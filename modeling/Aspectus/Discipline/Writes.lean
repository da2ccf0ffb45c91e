import Aspectus.Discipline.Basic
import Aspectus.Discipline.Cleanup

/-!
This module contains what the tasks of the server have found out before they write passwords and roles, and
what they record when they change a role.
-/

namespace Aspectus

open Interaction Prog

/--
The hash was computed from a password that meets the policy.
-/
def Hashed (cfg : Config) (h : List (Event Api)) (hash : String) : Prop :=
  ∃ password, cfg.passwordPolicy.validate password = .ok ()
    ∧ Called h (.host (.hashPassword password)) (.ok hash)

/--
The role was found not to be a system role, or it was created.
-/
def FoundCustom (h : List (Event Api)) (id : String) : Prop :=
  (∃ role, Called h (.role (.getById id)) (.ok (some role)) ∧ role.isSystem = false)
    ∨ ∃ name description roleType role, Called h (.role (.insert id name description roleType)) (.ok role)

/--
What is checked before an operation that is called after the events `h`.
-/
def Prudent (cfg : Config) (h : List (Event Api)) : Op → Prop
  | .user (.insert _ _ _ hash _) => Hashed cfg h hash
  | .user (.setPassword _ hash) => Hashed cfg h hash
  | .role (.update id ..) => FoundCustom h id
  | .role (.delete id) => FoundCustom h id
  | .role (.deleteScopes id) => FoundCustom h id
  | .role (.addScope _ id _) => FoundCustom h id
  | .auditAppend _ entry => entry.action ∈ roleEvents → entry.tenantId = ""
  | _ => True

/--
The operations before which nothing is checked.
-/
def Op.Inert : Op → Prop
  | .user (.insert ..) => False
  | .user (.setPassword ..) => False
  | .role (.update ..) => False
  | .role (.delete _) => False
  | .role (.deleteScopes _) => False
  | .role (.addScope ..) => False
  | .auditAppend _ entry => entry.action ∈ roleEvents → entry.tenantId = ""
  | _ => True

abbrev Inert {α : Type} (p : App α) : Prop :=
  p.Uses Op.Inert

abbrev Prudently {α : Type} (cfg : Config) (p : App α) (h : List (Event Api)) : Prop :=
  p.Conforms (Prudent cfg) (fun _ _ => True) h

variable {cfg : Config} {h : List (Event Api)}

section Rules

variable {α β : Type}

theorem Op.Inert.prudent {o : Op} (ho : o.Inert) : Prudent cfg h o := by
  unfold Op.Inert at ho
  unfold Prudent
  split <;> first | contradiction | trivial

theorem inert_perform_bind {o : Op} {f : o.Res → App α} (ho : o.Inert) (hf : ∀ r, Inert (f r)) :
    Inert (perform (S := Api) o >>= f) :=
  uses_perform_bind ho hf

theorem Inert.prudently {p : App α} (hp : Inert p) : Prudently cfg p h :=
  hp.conforms (fun _ _ ho => ho.prudent) fun _ _ => trivial

theorem Inert.prudently_bind {p : App α} {f : α → App β} (hp : Inert p)
    (hf : ∀ new a, Prudently cfg (f a) (new ++ h)) : Prudently cfg (p >>= f) h :=
  hp.conforms_bind (fun _ _ _ ho => ho.prudent) fun new a _ => hf new a

/--
What follows a program that is prudent is prudent if it is inert.
-/
theorem prudently_bind {p : App α} {f : α → App β} (hp : Prudently cfg p h) (hf : ∀ a, Inert (f a)) :
    Prudently cfg (p >>= f) h :=
  hp.bind fun _ a _ => (hf a).prudently

theorem FoundCustom.append {id : String} (hfound : FoundCustom h id) (new : List (Event Api)) :
    FoundCustom (new ++ h) id := by
  rcases hfound with ⟨role, hcalled, hcustom⟩ | ⟨name, description, roleType, role, hcalled⟩
  . exact .inl ⟨role, hcalled.append new, hcustom⟩
  . exact .inr ⟨name, description, roleType, role, hcalled.append new⟩

end Rules

theorem auditEvent_inert {params : AuditAuthParams}
    (haction : params.action ∈ roleEvents → params.tenantId = "")
    : Inert (auditEvent params) := by
  apply auditEvent_uses trivial trivial
  intro id entry hentry htenant hmem
  rw [htenant]
  exact haction (hentry ▸ hmem)

theorem issueTokens_inert (userId tenantId clientId : String) :
    Inert (issueTokens cfg userId tenantId clientId) := by
  refine issueTokens_calls.mono fun o ho => ?_
  unfold Op.Inert
  split
  . exact ho.elim
  . exact ho.elim
  . exact ho.elim
  . exact ho.elim
  . exact ho.elim
  . exact ho.elim
  . exact ho.elim
  . trivial

theorem assignDefaultRole_inert (userId : String) : Inert (register.assignDefaultRole userId) :=
  assignDefaultRole_uses trivial trivial (fun _ _ => trivial) trivial

theorem register_prudently (forwardedFor : Option String) (reg : RegisterRequest) :
    Prudently cfg (register cfg forwardedFor reg) h := by
  unfold register
  dsimp only
  split
  . trivial
  . split
    . trivial
    . split
      . trivial
      . split
        . trivial
        . next hvalid =>
          unfold register.checkDatabase
          apply conforms_perform_bind trivial
          rintro (e | _ | _)
          . trivial
          . apply conforms_perform_bind trivial
            rintro (e | _ | _)
            . trivial
            . trivial
            . unfold register.createUser
              apply conforms_perform_bind trivial
              rintro (e | passwordHash)
              . trivial
              . apply conforms_perform_bind trivial
                intro userId
                apply conforms_perform_bind
                . exact ⟨reg.password, hvalid, (Called.head _ _ _).cons _⟩
                . rintro (e | user)
                  . trivial
                  . apply Inert.prudently
                    unfold auditAuthEvent
                    repeat' first
                      | apply Uses.bind (assignDefaultRole_inert _)
                      | apply Uses.bind (auditEvent_inert (by simp [roleEvents]))
                      | apply issueTokens_inert | intro _
          . trivial

theorem resetPassword_prudently (req : ResetPasswordRequest) : Prudently cfg (resetPassword cfg req) h := by
  unfold resetPassword
  split
  . trivial
  . next hvalid =>
    apply conforms_perform_bind trivial
    rintro (e | _ | userId)
    . trivial
    . trivial
    . unfold resetPassword.updatePassword
      apply conforms_perform_bind trivial
      rintro (e | passwordHash)
      . trivial
      . apply conforms_perform_bind ⟨_, hvalid, Called.head _ _ _⟩
        rintro (e | updated)
        . trivial
        . apply Inert.prudently
          unfold auditAuthEvent
          repeat' first
            | trivial | apply Uses.bind (auditEvent_inert (by simp [roleEvents])) | apply inert_perform_bind
            | intro _ | split

theorem changePassword_prudently (id : String) (req : ChangePasswordRequest) :
    Prudently cfg (changePassword cfg id req) h := by
  unfold changePassword
  split
  . trivial
  . next hvalid =>
    apply conforms_perform_bind trivial
    rintro (e | _ | user)
    . trivial
    . trivial
    . dsimp only
      unfold changePassword.checkPassword changePassword.updatePassword
      split
      . trivial
      . split
        . trivial
        . split
          . apply conforms_perform_bind trivial
            rintro (e | newHash)
            . trivial
            . apply conforms_perform_bind ⟨_, hvalid, Called.head _ _ _⟩
              rintro (e | _ | _)
              . trivial
              . trivial
              . unfold auditAuthEvent
                exact (auditEvent_inert (by simp [roleEvents])).prudently_bind fun _ _ => trivial
          . trivial

/--
Only three requests for the authentication of users write passwords.
-/
theorem AuthRequest.handle_inert {q : AuthRequest}
    (hregister : ∀ forwardedFor reg, q ≠ .register forwardedFor reg)
    (hreset : ∀ req, q ≠ .resetPassword req) (hchange : ∀ id req, q ≠ .changePassword id req)
    : Inert (q.handle cfg) := by
  refine q.handle_calls.mono fun o ho => ?_
  unfold Op.Inert
  split
  . rcases ho with ⟨forwardedFor, reg, hq⟩
    exact hregister _ _ hq
  . rcases ho with ⟨req, hq⟩ | ⟨id, req, hq⟩
    . exact hreset _ hq
    . exact hchange _ _ hq
  . exact ho
  . exact ho
  . exact ho
  . exact ho
  . exact fun hmem => absurd hmem ho
  . trivial

/--
The requests for the authentication of users only set passwords that meet the policy.
-/
theorem AuthRequest.handle_prudently (q : AuthRequest) : Prudently cfg (q.handle cfg) h := by
  cases q with
  | register forwardedFor reg => exact register_prudently forwardedFor reg
  | resetPassword req => exact resetPassword_prudently req
  | changePassword id req => exact changePassword_prudently id req
  | _ => exact (AuthRequest.handle_inert (by simp) (by simp) (by simp)).prudently

/--
The requests for the credentials of service accounts set no passwords and change no roles.
-/
theorem KeyRequest.handle_inert (q : KeyRequest) : Inert (q.handle cfg) := by
  refine q.handle_calls.mono fun o ho => ?_
  unfold Op.Inert
  split
  . exact ho.elim
  . exact ho.elim
  . exact ho.elim
  . exact ho.elim
  . exact ho.elim
  . exact ho.elim
  . exact fun hmem => absurd hmem ho
  . trivial

/--
The requests for service tokens set no passwords and change no roles.
-/
theorem ProjectTokenRequest.handle_inert (q : ProjectTokenRequest) : Inert (q.handle cfg) := by
  refine q.handle_calls.mono fun o ho => ?_
  unfold Op.Inert
  split
  . exact ho.elim
  . exact ho.elim
  . exact ho.elim
  . exact ho.elim
  . exact ho.elim
  . exact ho.elim
  . exact fun hmem => absurd hmem ho
  . trivial

section Layers

theorem Endpoint.handle_prudently (endpoint : Endpoint) : Prudently cfg (endpoint.handle cfg) h := by
  cases endpoint with
  | auth q => exact q.handle_prudently
  | key q => exact q.handle_inert.prudently
  | serviceToken q => exact q.handle_inert.prudently
  | other layer a => trivial

theorem Op.Inert.of_isLayer {o : Op} (ho : o.isLayer = true) : o.Inert := by
  unfold Op.Inert
  split <;> first | contradiction | trivial

theorem Call.handle_prudently (call : Call) : Prudently cfg (call.handle cfg) h := by
  have hall : ∀ h, Prudently cfg (call.handle cfg) h := by
    apply Call.handle_rule (P := fun p => ∀ h, Prudently cfg p h)
    . exact fun _ _ => trivial
    . intro α p f hp hf h
      exact Inert.prudently_bind (hp.mono fun _ => Op.Inert.of_isLayer) fun new a => hf a _
    . exact fun endpoint _ => endpoint.handle_prudently
  exact hall h

end Layers

section Roles

open roles

variable {id : String}

theorem insertRoleScopes_prudently (scopes : List String) (hfound : FoundCustom h id) :
    Prudently cfg (insertRoleScopes id scopes) h := by
  have huses : (insertRoleScopes id scopes).Uses fun o => ∀ new, Prudent cfg (new ++ h) o :=
    insertRoleScopes_uses (fun _ _ => trivial) (fun _ => trivial) (fun _ _ _ => trivial) fun _ _ new =>
      hfound.append new
  exact huses.conforms (fun new _ ho => ho new) fun _ _ => trivial

theorem invalidateUsers_inert (userIds : List String) : Inert (invalidateUsers userIds) :=
  invalidateUsers_uses fun _ => trivial

/--
A changed role is recorded without a tenant.
-/
theorem audit_inert (action roleId : String) (metadata : List (String × Json)) :
    Inert (audit "" action roleId metadata) :=
  auditEvent_inert fun _ => rfl

theorem respondRole_inert (status : Nat) (role : Role) (action : String)
    (metadata : List (String × Json)) : Inert (respond status id role action metadata) :=
  respondRole_uses trivial fun _ htenant => auditEvent_inert fun _ => htenant

theorem createRole_prudently (req : CreateRoleRequest) : Prudently cfg (roles.create req) h := by
  unfold roles.create
  split
  . trivial
  . trivial
  . trivial
  . unfold insertRole
    apply conforms_perform_bind trivial
    intro id
    apply conforms_perform_bind trivial
    rintro (msg | role)
    . dsimp only
      split <;> trivial
    . apply Conforms.bind (insertRoleScopes_prudently req.scopes (.inr ⟨_, _, _, role, Called.head _ _ _⟩))
      rintro new (e | _) -
      . trivial
      . exact (respondRole_inert ..).prudently

theorem updateRole_prudently (id : String) (req : UpdateRoleRequest) :
    Prudently cfg (roles.update id req) h := by
  unfold roles.update
  split
  . trivial
  . trivial
  . unfold updateRole
    apply conforms_perform_bind trivial
    rintro (e | _ | role)
    . trivial
    . trivial
    . dsimp only
      split
      . trivial
      . next hcustom =>
        have hfound : FoundCustom (⟨.role (.getById id), .ok (some role)⟩ :: h) id :=
          .inl ⟨role, Called.head _ _ _, by simpa using hcustom⟩
        apply conforms_perform_bind hfound
        rintro (e | role')
        . trivial
        . unfold replaceScopes
          apply conforms_perform_bind (hfound.append [_])
          rintro (e | _)
          . trivial
          . apply Conforms.bind (insertRoleScopes_prudently req.scopes (hfound.append [_, _]))
            rintro new (e | _) -
            . trivial
            . apply Inert.prudently
              unfold invalidateUsersWithRole
              apply Uses.bind
              . exact inert_perform_bind (by trivial) fun _ => invalidateUsers_inert _
              . intro _
                apply respondRole_inert

theorem deleteRole_prudently (id : String) : Prudently cfg (roles.delete id) h := by
  unfold roles.delete
  apply conforms_perform_bind trivial
  rintro (e | _ | role)
  . trivial
  . trivial
  . dsimp only
    split
    . trivial
    . next hcustom =>
      have hfound : FoundCustom (⟨.role (.getById id), .ok (some role)⟩ :: h) id :=
        .inl ⟨role, Called.head _ _ _, by simpa using hcustom⟩
      apply conforms_perform_bind trivial
      rintro (e | used | used)
      . trivial
      . unfold deleteRole
        apply conforms_perform_bind (hfound.append [_])
        rintro (e | _ | _)
        . trivial
        . trivial
        . exact (audit_inert ..).prudently_bind fun _ _ => trivial
      . trivial

theorem assign_inert (userId roleId : String) : Inert (assign userId roleId) := by
  refine (assign_mayCall userId roleId).mono fun o ho => ?_
  unfold Op.Inert
  split <;> first | simp [RoleRequest.MayCall] at ho; done | exact ho | trivial

theorem remove_inert (userId roleId : String) : Inert (remove userId roleId) := by
  refine (remove_mayCall userId roleId).mono fun o ho => ?_
  unfold Op.Inert
  split <;> first | simp [RoleRequest.MayCall] at ho; done | exact ho | trivial

end Roles

section Users

open users

theorem assignRoles_inert (userId : String) (roleIds : List String) :
    Inert (assignRoles userId roleIds) :=
  assignRoles_uses trivial fun _ _ => trivial

theorem createUser_prudently (req : CreateUserRequest) : Prudently cfg (users.create cfg req) h := by
  unfold users.create
  split
  . trivial
  . split
    . trivial
    . split
      . trivial
      . next hvalid =>
        apply conforms_perform_bind trivial
        rintro (e | hash)
        . trivial
        . unfold users.insert
          apply conforms_perform_bind trivial
          intro userId
          apply conforms_perform_bind
          . exact ⟨req.password, hvalid, (Called.head _ _ _).cons _⟩
          . rintro (e | user)
            . dsimp only
              split <;> trivial
            . apply Inert.prudently
              unfold assignDefaults
              repeat' first
                | trivial | apply assignRoles_inert | apply Uses.bind (auditEvent_inert (by simp [roleEvents]))
                | apply inert_perform_bind | apply Uses.bind | intro _ | split

end Users

theorem RoleRequest.handle_prudently (q : RoleRequest) : Prudently cfg (q.handle cfg) h := by
  cases q with
  | createRole req => exact prudently_bind (createRole_prudently req) fun _ => trivial
  | updateRole id req => exact prudently_bind (updateRole_prudently id req) fun _ => trivial
  | deleteRole id => exact prudently_bind (deleteRole_prudently id) fun _ => trivial
  | assignRole userId roleId => exact (assign_inert userId roleId).prudently_bind fun _ _ => trivial
  | removeRole userId roleId => exact (remove_inert userId roleId).prudently_bind fun _ _ => trivial
  | createUser req => exact prudently_bind (createUser_prudently req) fun _ => trivial
  | register forwardedFor reg => exact prudently_bind (register_prudently forwardedFor reg) fun _ => trivial
  | expand userId => 
    exact Inert.prudently_bind (expand_uses trivial trivial fun _ => trivial) fun _ _ => trivial

section Server

variable {α : Type}

/--
What is checked before an operation of the server. The cleanup only deletes tokens.
-/
def ServerPrudent (cfg : Config) (h : List (Event ServerApi)) (o : ServerApi.Op) : Prop :=
  (∃ o', o = SumOp.right o') ∨ ∃ o', o = SumOp.left o' ∧ Prudent cfg (leftEvents h) o'

theorem left_prudently {p : App α} {f : α → Outcome} {h : List (Event ServerApi)}
    (hp : Prudently cfg p (leftEvents h))
    : (Prog.left p >>= fun a => Pure.pure (f a)).Conforms (ServerPrudent cfg) (fun _ _ => True) h := by
  have hserver : (Prog.left p : Prog ServerApi α).Conforms (ServerPrudent cfg) (fun _ _ => True) h :=
    (Conforms.left hp).mono (fun _ _ ho => .inr ho) fun _ _ _ => trivial
  exact hserver.bind fun _ _ _ => trivial

/--
Whatever the server does is prudent, and the cleanup only deletes tokens.
-/
theorem Task.handle_prudently (task : Task) :
    (task.handle cfg).Conforms (ServerPrudent cfg) (fun _ _ => True) [] := by
  cases task with
  | call c =>
    exact left_prudently c.handle_prudently
  | role q =>
    exact left_prudently q.handle_prudently
  | cleanup => exact Task.cleanup_uses.conforms (fun _ _ ho => .inl ho) fun _ _ => trivial

end Server

end Aspectus
