import Aspectus.Discipline.Basic

/-!
This module contains the discipline that the requests that set a password follow. It says precisely which
operations a request has called before it writes the password, and which it has called in total when it
is answered.
-/

namespace Aspectus

open Interaction Prog

namespace PasswordRequest

def newPassword : PasswordRequest → String
  | .change _ req => req.newPassword
  | .reset req => req.newPassword

/--
The status of a request that has set the password, where `b` tells whether the user exists.
-/
def setStatus : PasswordRequest → Bool → Nat
  | .change .., b => if b then 204 else 404
  | .reset _, _ => 200

end PasswordRequest

/--
The user is shown to know the password that it wants to change.
-/
def Verifies (cfg : Config) (req : ChangePasswordRequest) (user : User) : Prop :=
  user.isSuspended = false
    ∧ ∃ hash, user.passwordHash = some hash ∧ cfg.verifyPassword req.currentPassword hash = .ok true

/--
The request goes on to set the password of the user with this id after the event, which is its first one.
-/
inductive Proceeds (cfg : Config) : PasswordRequest → String → Event Api → Prop where
  | change (id : String) (req : ChangePasswordRequest) (user : User) (h : Verifies cfg req user) :
    Proceeds cfg (.change id req) id ⟨.user (.getById id), .ok (some user)⟩
  | reset (id : String) (req : ResetPasswordRequest) :
    Proceeds cfg (.reset req) id ⟨.reset (.claim (cfg.sha256Text req.token)), .ok (some id)⟩

def hashed (q : PasswordRequest) (passwordHash : String) : Event Api :=
  ⟨.host (.hashPassword q.newPassword), .ok passwordHash⟩

/--
What a request `q` may do after the events `h`.
-/
def PasswordAllowed (cfg : Config) (q : PasswordRequest) (h : List (Event Api)) : Op → Prop
  | .user (.getById id) => (∃ req, q = .change id req) ∧ h = []
  | .user (.setPassword id passwordHash) =>
    ∃ ev, Proceeds cfg q id ev ∧ h = [hashed q passwordHash, ev]
  | .user (.selectTenant _) => True
  | .reset (.claim tokenHash) =>
    (∃ req, q = .reset req ∧ tokenHash = cfg.sha256Text req.token) ∧ h = []
  | .host _ => True
  | .auditAppend .. => True
  | _ => False

/--
What a request does after it has set the password: nothing that concerns passwords.
-/
def Op.isAfterthought : Op → Bool
  | .user (.selectTenant _) => true
  | .host _ => true
  | .auditAppend .. => true
  | _ => false

/--
The operations a request has called in total, newest first, and its status.
-/
inductive PasswordCourse (cfg : Config) : PasswordRequest → List (Event Api) → Nat → Prop where
  | invalid (q : PasswordRequest) (msg : String)
    (h : cfg.passwordPolicy.validate q.newPassword = .error msg)
    : PasswordCourse cfg q [] ErrorCode.validationFailed.httpStatus
  | unread (id : String) (req : ChangePasswordRequest) (e : String) :
    PasswordCourse cfg (.change id req) [⟨.user (.getById id), .error e⟩] 500
  | missing (id : String) (req : ChangePasswordRequest) :
    PasswordCourse cfg (.change id req) [⟨.user (.getById id), .ok none⟩] 404
  | suspended (id : String) (req : ChangePasswordRequest) (user : User) (h : user.isSuspended = true) :
    PasswordCourse cfg (.change id req) [⟨.user (.getById id), .ok (some user)⟩] 403
  | refused (id : String) (req : ChangePasswordRequest) (user : User) (hactive : user.isSuspended = false)
    (h : ¬Verifies cfg req user)
    : PasswordCourse cfg (.change id req) [⟨.user (.getById id), .ok (some user)⟩] 401
  | unclaimed (req : ResetPasswordRequest) (e : String) :
    PasswordCourse cfg (.reset req) [⟨.reset (.claim (cfg.sha256Text req.token)), .error e⟩] 500
  | unclaimable (req : ResetPasswordRequest) :
    PasswordCourse cfg (.reset req) [⟨.reset (.claim (cfg.sha256Text req.token)), .ok none⟩]
      ErrorCode.validationFailed.httpStatus
  | unhashed (q : PasswordRequest) (id : String) (ev : Event Api) (e : String) (h : Proceeds cfg q id ev) :
    PasswordCourse cfg q [⟨.host (.hashPassword q.newPassword), .error e⟩, ev] 500
  | unset (q : PasswordRequest) (id : String) (ev : Event Api) (passwordHash e : String)
    (h : Proceeds cfg q id ev)
    : PasswordCourse cfg q [⟨.user (.setPassword id passwordHash), .error e⟩, hashed q passwordHash, ev] 500
  | set (q : PasswordRequest) (id : String) (ev : Event Api) (passwordHash : String) (b : Bool)
    (tail : List (Event Api)) (h : Proceeds cfg q id ev)
    (htail : ∀ ev ∈ tail, ev.op.isAfterthought = true)
    : PasswordCourse cfg q
        (tail ++ [⟨.user (.setPassword id passwordHash), .ok b⟩, hashed q passwordHash, ev])
        (q.setStatus b)

variable {cfg : Config} {q : PasswordRequest} {h : List (Event Api)}

theorem PasswordAllowed.of_isAfterthought {o : Op} (ho : o.isAfterthought = true) :
    PasswordAllowed cfg q h o := by
  unfold Op.isAfterthought at ho
  split at ho
  all_goals trivial

theorem auditEvent_afterthought (params : AuditAuthParams) :
    (auditEvent params).Uses fun (o : Op) => o.isAfterthought = true :=
  auditEvent_uses rfl rfl fun _ _ _ _ => rfl

/--
An answer that is given after something was recorded in the audit log.
-/
theorem audited_course {params : AuditAuthParams} {a : Response} {id passwordHash : String}
    {ev : Event Api} {b : Bool} (tail : List (Event Api)) (hproceeds : Proceeds cfg q id ev)
    (htail : ∀ ev ∈ tail, ev.op.isAfterthought = true) (ha : a.status = q.setStatus b)
    : (auditEvent params >>= fun _ => (Pure.pure a : App Response)).Conforms (PasswordAllowed cfg q)
        (fun h a => PasswordCourse cfg q h a.status)
        (tail ++ [⟨.user (.setPassword id passwordHash), .ok b⟩, hashed q passwordHash, ev]) := by
  apply (auditEvent_afterthought params).conforms_bind
  . intro new o _ ho
    exact .of_isAfterthought ho
  . intro new _ hnew
    change PasswordCourse cfg q (new ++ (tail ++ _)) a.status
    rw [← List.append_assoc, ha]
    exact .set q id ev passwordHash b (new ++ tail) hproceeds (List.forall_mem_append.mpr ⟨hnew, htail⟩)

theorem changePassword_course (id : String) (req : ChangePasswordRequest) :
    (changePassword cfg id req).Conforms (PasswordAllowed cfg (.change id req))
      (fun h a => PasswordCourse cfg (.change id req) h a.status) [] := by
  unfold changePassword
  split
  . next msg hinvalid => exact .invalid _ msg hinvalid
  . apply conforms_perform_bind ⟨⟨req, rfl⟩, rfl⟩
    rintro (e | _ | user)
    . exact .unread id req e
    . exact .missing id req
    . dsimp only
      split
      . next hsuspended => exact .suspended id req user hsuspended
      . next hactive =>
        have hactive : user.isSuspended = false := by simpa using hactive
        unfold changePassword.checkPassword
        split
        . next hnone =>
          apply PasswordCourse.refused id req user hactive
          rintro ⟨_, hash, hsome, _⟩
          rw [hnone] at hsome
          contradiction
        . next hash hsome =>
          split
          . next hverified =>
            have hproceeds := Proceeds.change id req user ⟨hactive, hash, hsome, hverified⟩
            unfold changePassword.updatePassword
            apply conforms_perform_bind trivial
            rintro (e | newHash)
            . exact .unhashed _ id _ e hproceeds
            . apply conforms_perform_bind ⟨_, hproceeds, rfl⟩
              rintro (e | _ | _)
              . exact .unset _ id _ newHash e hproceeds
              . exact .set (.change id req) id _ newHash false [] hproceeds (List.forall_mem_nil _)
              . exact audited_course [] (b := true) hproceeds (List.forall_mem_nil _) rfl
          . next hrefused =>
            apply PasswordCourse.refused id req user hactive
            rintro ⟨_, hash', hsome', hverified⟩
            rw [hsome] at hsome'
            injection hsome' with hsome'
            subst hsome'
            exact hrefused hverified

theorem resetPassword_course (req : ResetPasswordRequest) :
    (resetPassword cfg req).Conforms (PasswordAllowed cfg (.reset req))
      (fun h a => PasswordCourse cfg (.reset req) h a.status) [] := by
  unfold resetPassword
  split
  . next msg hinvalid => exact .invalid _ msg hinvalid
  . apply conforms_perform_bind ⟨⟨req, rfl, rfl⟩, rfl⟩
    rintro (e | _ | id)
    . exact .unclaimed req e
    . exact .unclaimable req
    . have hproceeds : Proceeds cfg _ _ _ := Proceeds.reset id req
      unfold resetPassword.updatePassword
      apply conforms_perform_bind trivial
      rintro (e | newHash)
      . exact .unhashed _ id _ e hproceeds
      . apply conforms_perform_bind ⟨_, hproceeds, rfl⟩
        rintro (e | b)
        . exact .unset _ id _ newHash e hproceeds
        . apply conforms_perform_bind trivial
          intro tenant
          have htail : ∀ ev ∈ [(⟨.user (.selectTenant id), tenant⟩ : Event Api)],
              ev.op.isAfterthought = true := List.forall_mem_singleton.mpr rfl
          split
          . next tenantId htenant => exact audited_course _ hproceeds htail rfl
          . exact PasswordCourse.set (.reset req) id _ newHash b _ hproceeds htail

/--
Both kinds of requests follow the discipline.
-/
theorem PasswordRequest.handle_conforms (cfg : Config) (q : PasswordRequest) :
    (q.handle cfg).Conforms (PasswordAllowed cfg q) (fun h a => PasswordCourse cfg q h a.status) [] := by
  cases q with
  | change id req => exact changePassword_course id req
  | reset req => exact resetPassword_course req

/-!
Among all requests for the authentication of users, a token is only claimed by the reset that presents it, and a
reset only sets the password of the user whose token it has claimed.
-/

/--
What a request `q` may do after the events `h`.
-/
def ResetAllowed (cfg : Config) (q : AuthRequest) (h : List (Event Api)) : Op → Prop
  | .reset (.claim tokenHash) => ∃ req, q = .resetPassword req ∧ tokenHash = cfg.sha256Text req.token
  | .user (.setPassword id _) => ∀ req, q = .resetPassword req →
    Called h (.reset (.claim (cfg.sha256Text req.token))) (.ok (some id))
  | _ => True

/--
A reset of a password follows it, as it follows the stricter discipline of passwords.
-/
theorem PasswordAllowed.reset {req : ResetPasswordRequest} {o : Op}
    (ho : PasswordAllowed cfg (.reset req) h o) : ResetAllowed cfg (.resetPassword req) h o := by
  unfold ResetAllowed
  split
  . next tokenHash =>
    rcases ho with ⟨⟨req', hreq, hhash⟩, _⟩
    cases hreq
    exact ⟨req, rfl, hhash⟩
  . next id passwordHash =>
    rintro _ ⟨⟩
    rcases ho with ⟨ev, hproceeds, rfl⟩
    cases hproceeds
    exact (Called.head _ _ _).cons _
  . trivial

theorem AuthRequest.handle_resets (cfg : Config) (q : AuthRequest) :
    (q.handle cfg).Conforms (ResetAllowed cfg q) (fun _ _ => True) [] := by
  by_cases hq : ∃ req, q = .resetPassword req
  . rcases hq with ⟨req, rfl⟩
    exact (resetPassword_course req).mono (fun _ _ ho => ho.reset) fun _ _ _ => trivial
  . apply Uses.conforms q.handle_calls _ fun _ _ => trivial
    intro new o ho
    unfold ResetAllowed
    split
    . exact absurd ho hq
    . intro req hreq
      exact absurd ⟨req, hreq⟩ hq
    . trivial

end Aspectus
