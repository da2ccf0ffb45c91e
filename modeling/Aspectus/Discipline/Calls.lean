import Aspectus.Discipline.Parts

/-!
This module contains which operations the handlers call at all, whatever they are answered. What the handlers
never do is read off from it.
-/

namespace Aspectus

open Interaction Prog

/--
The events that are recorded for changes of roles, which belong to no tenant.
-/
def roleEvents : List String := ["role.created", "role.updated", "role.deleted"]

variable {cfg : Config} {U : Op → Prop}

/--
What is recorded for anything but a change of a role.
-/
theorem auditEvent_other {params : AuditAuthParams} (haction : params.action ∉ roleEvents)
    (hid : U (.host .generateId)) (hnow : U (.host .now))
    (happend : ∀ id entry, entry.action ∉ roleEvents → U (.auditAppend id entry))
    : (auditEvent params).Uses U :=
  auditEvent_uses hid hnow fun id entry hentry _ => happend id entry (hentry ▸ haction)

section Auth

/--
The client that a request names in order to be issued tokens.
-/
def AuthRequest.client : AuthRequest → Option String
  | .login _ req => some req.clientId
  | .register _ reg => some reg.clientId
  | .token req => req.clientId
  | _ => none

/--
The operations that a request for the authentication of users may call.
-/
def AuthRequest.MayCall (cfg : Config) (q : AuthRequest) : Op → Prop
  | .user (.insert ..) => ∃ forwardedFor reg, q = .register forwardedFor reg
  | .user (.setPassword ..) => (∃ req, q = .resetPassword req) ∨ ∃ id req, q = .changePassword id req
  | .role .selectDefault => True
  | .role (.assignDefault ..) => True
  | .role (.selectScopes _) => True
  | .role _ => False
  | .refresh (.revokeAllForUser _) => ∃ req, q = .token req
  | .refresh (.findByHashAny _) => ∃ req, q = .token req
  | .client (.create clientId ..) => ∃ id, clientId = "client_" ++ id
  | .reset (.claim _) => ∃ req, q = .resetPassword req
  | .key _ => False
  | .serviceToken _ => False
  | .cache (.get _) => True
  | .cache (.set key _ _) => (∃ userId, key = ScopeExpander.cacheKey userId) ∨ Denies cfg key
  | .cache (.del _) => True
  | .cache _ => False
  | .host (.encodeJwt claims) =>
    ∃ clientId project, q.client = some clientId ∧ project = (Project.parse clientId).getD .pandaria
      ∧ claims.clientId = project.toString ∧ claims.aud = project.toString
  | .auditAppend _ entry => entry.action ∉ roleEvents
  | _ => True

variable {q : AuthRequest}

theorem issueTokens_mayCall {userId tenantId clientId : String} (hclient : q.client = some clientId) :
    (issueTokens cfg userId tenantId clientId).Uses (q.MayCall cfg) := by
  refine issueTokens_calls.mono fun o ho => ?_
  unfold IssueCall at ho
  split at ho
  . trivial
  . exact .inl ⟨userId, ho⟩
  . trivial
  . trivial
  . trivial
  . trivial
  . rcases ho with ⟨project, hproject, hid, haud⟩
    exact ⟨clientId, project, hclient, hproject, hid, haud⟩
  . trivial
  . trivial
  . trivial
  . exact ho.elim

section Token

variable {req : TokenRequest}

theorem withClient_mayCall {grant : String → App Response}
    (hgrant : ∀ clientId, req.clientId = some clientId →
      (grant clientId).Uses ((AuthRequest.token req).MayCall cfg))
    : (token.withClient cfg req grant).Uses ((AuthRequest.token req).MayCall cfg) := by
  unfold token.withClient
  split
  . trivial
  . next clientId hclient =>
    apply uses_perform_bind trivial
    rintro (e | row)
    . trivial
    . dsimp only
      split
      . exact hgrant clientId hclient
      . trivial

theorem exchange_mayCall {code clientId : String} (hclient : req.clientId = some clientId) :
    (token.exchange cfg req code clientId).Uses ((AuthRequest.token req).MayCall cfg) := by
  unfold token.exchange
  apply uses_perform_bind trivial
  rintro (e | _ | ⟨userId, clientId', storedRedirectUri⟩)
  . trivial
  . trivial
  . dsimp only
    split
    . trivial
    . next hsame =>
      rw [not_not.mp hsame]
      unfold token.redeem
      repeat' first
        | exact trivial | exact issueTokens_mayCall hclient | apply uses_perform_bind | intro _ | split

theorem rotate_mayCall {tokenHash clientId : String} (hclient : req.clientId = some clientId) :
    (token.rotate cfg tokenHash clientId).Uses ((AuthRequest.token req).MayCall cfg) := by
  unfold token.rotate
  apply uses_perform_bind trivial
  rintro (e | _ | ⟨userId, clientId', used⟩)
  . trivial
  . dsimp only
    unfold token.refuse
    repeat' first | exact trivial | exact ⟨req, rfl⟩ | apply uses_perform_bind | intro _ | split
  . dsimp only
    split
    . trivial
    . next hsame =>
      rw [not_not.mp hsame]
      unfold token.succeed
      repeat' first
        | exact trivial | exact issueTokens_mayCall hclient | apply uses_perform_bind | intro _ | split

end Token

/--
What is called by the requests for the authentication of users.
-/
theorem AuthRequest.handle_calls (q : AuthRequest) : (q.handle cfg).Uses (q.MayCall cfg) := by
  have haudit : ∀ {params : AuditAuthParams}, params.action ∉ roleEvents →
      (auditEvent params).Uses (q.MayCall cfg) := fun haction =>
    auditEvent_other haction trivial trivial fun _ _ => id
  cases q with
  | login forwardedFor req =>
    dsimp only [AuthRequest.handle, Aspectus.login]
    unfold login.checkPassword login.blocked login.failed login.succeed auditAuthEvent
    repeat' first
      | exact trivial | exact issueTokens_mayCall rfl | apply Uses.bind (haudit (by simp [roleEvents]))
      | apply uses_perform_bind | intro _ | split
  | register forwardedFor reg =>
    have hassign : ∀ userId, (register.assignDefaultRole userId).Uses
        ((AuthRequest.register forwardedFor reg).MayCall cfg) := fun _ =>
      assignDefaultRole_uses trivial trivial (fun _ _ => trivial) trivial
    dsimp only [AuthRequest.handle, Aspectus.register]
    unfold register.checkDatabase register.createUser auditAuthEvent
    repeat' first
      | exact trivial | exact ⟨_, _, rfl⟩ | exact issueTokens_mayCall rfl
      | apply Uses.bind (haudit (by simp [roleEvents])) | apply Uses.bind (hassign _)
      | apply uses_perform_bind | intro _ | split
  | authorize req =>
    dsimp only [AuthRequest.handle, Aspectus.authorize]
    unfold authorize.authenticate authorize.createCode
    repeat' first | exact trivial | apply uses_perform_bind | intro _ | split
  | token req =>
    dsimp only [AuthRequest.handle, Aspectus.token]
    unfold token.authorizationCode token.refreshToken
    split
    . split
      . trivial
      . exact withClient_mayCall fun _ hclient => exchange_mayCall hclient
    . split
      . trivial
      . exact withClient_mayCall fun _ hclient => rotate_mayCall hclient
    . trivial
  | logout req =>
    have hrevoke : ∀ token, (JwtVerifier.revoke cfg token).Uses ((AuthRequest.logout req).MayCall cfg) :=
      fun _ => jwtRevoke_uses trivial fun _ _ => .inr
    dsimp only [AuthRequest.handle, Aspectus.logout]
    repeat' first
      | exact trivial | apply Uses.bind (hrevoke _) | apply uses_perform_bind | intro _ | split
  | forgotPassword req =>
    dsimp only [AuthRequest.handle, Aspectus.forgotPassword]
    unfold forgotPassword.createToken
    repeat' first | exact trivial | apply uses_perform_bind | intro _ | split
  | resetPassword req =>
    dsimp only [AuthRequest.handle, Aspectus.resetPassword]
    unfold resetPassword.updatePassword auditAuthEvent
    repeat' first
      | exact trivial | exact ⟨req, rfl⟩ | exact .inl ⟨req, rfl⟩
      | apply Uses.bind (haudit (by simp [roleEvents])) | apply uses_perform_bind | intro _ | split
  | changePassword id req =>
    dsimp only [AuthRequest.handle, Aspectus.changePassword]
    unfold changePassword.checkPassword changePassword.updatePassword auditAuthEvent
    repeat' first
      | exact trivial | exact .inr ⟨id, req, rfl⟩ | apply Uses.bind (haudit (by simp [roleEvents]))
      | apply uses_perform_bind | intro _ | split
  | suspend id suspended =>
    dsimp only [AuthRequest.handle, Aspectus.suspend]
    repeat' first
      | exact trivial | apply Uses.bind (haudit (by simp [roleEvents])) | apply uses_perform_bind | intro _
      | split
  | unlock id =>
    dsimp only [AuthRequest.handle, Aspectus.unlock]
    repeat' first
      | exact trivial | apply Uses.bind (haudit (by simp [roleEvents])) | apply uses_perform_bind | intro _
      | split
  | createClient req =>
    dsimp only [AuthRequest.handle, Aspectus.createClient]
    repeat' first | exact trivial | exact ⟨_, rfl⟩ | apply uses_perform_bind | intro _ | split

end Auth

section Keys

/--
The requests that verify an API key or an opaque token.
-/
def KeyRequest.verifies : KeyRequest → Bool
  | .issue _ => true
  | .verify _ => true
  | .introspect _ => true
  | _ => false

/--
The operations that a request for the credentials of service accounts may call.
-/
def KeyRequest.MayCall (cfg : Config) (q : KeyRequest) : Op → Prop
  | .user (.getById _) => True
  | .tenant (.getById _) => True
  | .role (.countScopes ..) => True
  | .role (.selectScopes _) => True
  | .key (.setUserOwner ..) => ∃ req, q = .create req
  | .key _ => True
  | .cache (.getJson _) => True
  | .cache (.setJson key _ _) => q.verifies = true ∧ ∃ keyHash, key = ApiKeyVerifier.cacheKey keyHash
  | .cache (.get _) => True
  | .cache (.set key _ _) => (∃ userId, key = ScopeExpander.cacheKey userId) ∨ Denies cfg key
  | .cache (.del _) => ∃ id, q = .delete id
  | .host (.encodeJwt _) => ∃ req, q = .issue req
  | .host _ => True
  | .auditAppend _ entry => entry.action ∉ roleEvents
  | _ => False

/--
What is called by the requests for the credentials of service accounts.
-/
theorem KeyRequest.handle_calls (q : KeyRequest) : (q.handle cfg).Uses (q.MayCall cfg) := by
  have haudit : ∀ {params : AuditAuthParams}, params.action ∉ roleEvents →
      (auditEvent params).Uses (q.MayCall cfg) := fun haction =>
    auditEvent_other haction trivial trivial fun _ _ => id
  have hverify : ∀ token, q.verifies = true → (ApiKeyVerifier.verify cfg token).Uses (q.MayCall cfg) :=
    fun _ hq => apiKeyVerify_uses trivial (fun _ => trivial) (fun _ => trivial) fun keyHash _ _ =>
      ⟨hq, keyHash, rfl⟩
  cases q with
  | create req =>
    have hcreate : ∀ project ownerType ownerId,
        (createApiKey.createForOwner cfg req project ownerType ownerId).Uses
          ((KeyRequest.create req).MayCall cfg) := by
      intro project ownerType ownerId
      unfold createApiKey.createForOwner createApiKey.ownerTenant createApiKey.createKey
      apply Uses.bind
      . repeat' first | exact trivial | apply uses_perform_bind | intro _ | split
      . rintro (response | tenantId)
        . trivial
        . apply Uses.bind (insertNew_uses trivial trivial (uses_pure _) fun _ => trivial)
          repeat' first
            | exact trivial | exact ⟨req, rfl⟩ | apply Uses.bind (haudit (by simp [roleEvents]))
            | apply uses_perform_bind | intro _ | split
    dsimp only [KeyRequest.handle, Aspectus.createApiKey]
    unfold createApiKey.checkExistence
    repeat' first | exact trivial | apply hcreate | apply uses_perform_bind | intro _ | split
  | delete id =>
    dsimp only [KeyRequest.handle, Aspectus.revokeApiKey]
    unfold ApiKeyVerifier.invalidateCache
    repeat' first
      | exact trivial | exact ⟨id, rfl⟩ | apply Uses.bind (haudit (by simp [roleEvents]))
      | apply uses_perform_bind | intro _ | split
  | issue req =>
    have hsign : ∀ req', (JwtSigner.signWithTenantName req').Uses ((KeyRequest.issue req).MayCall cfg) :=
      fun _ => signWithTenantName_uses trivial trivial fun _ _ => ⟨req, rfl⟩
    dsimp only [KeyRequest.handle, Aspectus.issueServiceToken]
    unfold issueServiceToken.create ApiKeyCreator.createOpaque JwtSigner.sign
    repeat' first
      | exact trivial | apply Uses.bind (hverify _ rfl) | apply Uses.bind (hsign _)
      | apply Uses.bind (insertNew_uses trivial trivial _ fun _ => trivial) | apply uses_perform_bind
      | intro _ | split
  | revoke token =>
    have hrevoke : ∀ token', (JwtVerifier.revoke cfg token').Uses ((KeyRequest.revoke token).MayCall cfg) :=
      fun _ => jwtRevoke_uses trivial fun _ _ => .inr
    dsimp only [KeyRequest.handle, Aspectus.revokeToken]
    repeat' first
      | exact trivial | apply Uses.bind (hrevoke _) | apply uses_perform_bind | intro _ | split
  | verify token => exact (hverify token rfl).bind fun _ => trivial
  | introspect token =>
    have hjwt : (JwtVerifier.verify cfg token).Uses ((KeyRequest.introspect token).MayCall cfg) :=
      jwtVerify_uses trivial fun _ => trivial
    have hscope : ∀ response,
        (introspect.addScope response).Uses ((KeyRequest.introspect token).MayCall cfg) :=
      fun _ => addScope_uses fun userId => expand_uses trivial trivial fun _ => .inl ⟨userId, rfl⟩
    have hquotas : ∀ response,
        (introspect.addQuotas response).Uses ((KeyRequest.introspect token).MayCall cfg) :=
      fun _ => addQuotas_uses fun _ => trivial
    dsimp only [KeyRequest.handle, Aspectus.introspect]
    unfold TokenVerifier.verify
    apply Uses.bind
    . split
      . exact hjwt
      . apply Uses.bind (hverify token rfl)
        intro response
        split
        . trivial
        . trivial
    . intro response
      split
      . exact Uses.bind (hscope response) fun _ => Uses.bind (hquotas _) fun _ => trivial
      . trivial

end Keys

section ServiceTokens

open ServiceTokens

/--
The operations that a request for service tokens may call.
-/
def ProjectTokenRequest.MayCall (q : ProjectTokenRequest) : Op → Prop
  | .serviceToken (.upsert project _ _) => project ≠ .aspectus
  | .serviceToken (.seedAdmin _) => False
  | .serviceToken _ => True
  | .cache (.get _) => True
  | .cache (.set ..) => ∃ token, q = .verify token
  | .cache (.del _) => True
  | .host .now => True
  | .host .random => True
  | .host .generateId => True
  | .auditAppend _ entry => entry.action ∉ roleEvents
  | _ => False

theorem managed_uses {parsed : Except Response Project} {next : Project → App Response}
    (hnext : ∀ project, project ≠ .aspectus → (next project).Uses U) : (managed parsed next).Uses U := by
  unfold managed
  split
  . trivial
  . next project =>
    unfold rejectAspectus
    by_cases hproject : project = .aspectus
    . rw [if_pos hproject]
      trivial
    . rw [if_neg hproject]
      exact hnext project hproject

/--
What is called by the requests for service tokens.
-/
theorem ProjectTokenRequest.handle_calls (q : ProjectTokenRequest) : (q.handle cfg).Uses q.MayCall := by
  have haudit : ∀ {params : AuditAuthParams}, params.action ∉ roleEvents →
      (auditEvent params).Uses q.MayCall := fun haction =>
    auditEvent_other haction trivial trivial fun _ _ => id
  have hrespond : ∀ {status : Nat} {action : String} {created : CreatedServiceToken}, action ∉ roleEvents →
      (respond status action created).Uses q.MayCall := by
    intro status action created haction
    unfold respond appendAuditLog
    exact Uses.bind (haudit haction) fun _ => uses_perform_bind trivial fun _ => trivial
  cases q with
  | list =>
    dsimp only [ProjectTokenRequest.handle, ServiceTokens.list]
    repeat' first | exact trivial | apply uses_perform_bind | intro _ | split
  | get name =>
    apply managed_uses
    intro project _
    repeat' first | exact trivial | apply uses_perform_bind | intro _ | split
  | create name =>
    apply managed_uses
    intro project hproject
    have hpersist : (persist cfg project).Uses (ProjectTokenRequest.create name).MayCall := by
      unfold persist ServiceTokenCreator.create
      apply uses_perform_bind trivial
      rintro (e | raw)
      . trivial
      . apply uses_perform_bind hproject
        rintro (e | old)
        . trivial
        . exact hrespond (by simp [roleEvents])
    repeat' first | exact trivial | exact hpersist | apply uses_perform_bind | intro _ | split
  | rotate name =>
    apply managed_uses
    intro project hproject
    have hreplace : ∀ existing,
        (replace cfg project existing).Uses (ProjectTokenRequest.rotate name).MayCall := by
      intro existing
      unfold replace ServiceTokenCreator.create
      apply uses_perform_bind trivial
      rintro (e | raw)
      . trivial
      . apply uses_perform_bind hproject
        rintro (e | old)
        . trivial
        . exact uses_perform_bind trivial fun _ => hrespond (by simp [roleEvents])
    unfold withActive
    repeat' first | exact trivial | apply hreplace | apply uses_perform_bind | intro _ | split
  | revoke name =>
    apply managed_uses
    intro project _
    unfold withActive retire ServiceTokenVerifier.invalidateByHash appendAuditLog
    repeat' first
      | exact trivial | apply Uses.bind (haudit (by simp [roleEvents])) | apply uses_perform_bind | intro _
      | split
  | verify token =>
    have hverify : (ServiceTokenVerifier.verify cfg token).Uses (ProjectTokenRequest.verify token).MayCall :=
      serviceTokenVerify_uses (fun _ => trivial) (fun _ => trivial) fun _ _ => ⟨token, rfl⟩
    apply hverify.bind
    rintro (_ | project)
    . trivial
    . trivial

end ServiceTokens

section Roles

open roles

/--
The operations that a request about roles may call. A changed role is recorded without a tenant.
-/
def RoleRequest.MayCall (q : RoleRequest) : Op → Prop
  | .user (.insert ..) => (∃ forwardedFor reg, q = .register forwardedFor reg) ∨ ∃ req, q = .createUser req
  | .user (.setPassword ..) => False
  | .role (.insert ..) => ∃ req, q = .createRole req
  | .role (.update id _ roleType) =>
    ∃ req, q = .updateRole id req ∧ RoleType.parse req.roleType = some roleType
  | .role (.delete id) => q = .deleteRole id
  | .role (.deleteScopes id) => ∃ req, q = .updateRole id req
  | .role (.addScope ..) => (∃ req, q = .createRole req) ∨ ∃ id req, q = .updateRole id req
  | .role (.assign _ userId roleId) => q = .assignRole userId roleId
  | .role (.remove userId roleId) => q = .removeRole userId roleId
  | .refresh (.revokeAllForUser _) => False
  | .refresh (.findByHashAny _) => False
  | .auditAppend _ entry => entry.action ∈ roleEvents → entry.tenantId = ""
  | _ => True

variable {q : RoleRequest}

theorem roleAudit_mayCall {params : AuditAuthParams}
    (haction : params.action ∈ roleEvents → params.tenantId = "") : (auditEvent params).Uses q.MayCall := by
  apply auditEvent_uses trivial trivial
  intro id entry hentry htenant hmem
  rw [htenant]
  exact haction (hentry ▸ hmem)

theorem roles.respond_mayCall {status : Nat} {id : String} {role : Role} {action : String}
    {metadata : List (String × Json)} : (respond status id role action metadata).Uses q.MayCall :=
  respondRole_uses trivial fun _ htenant => roleAudit_mayCall fun _ => htenant

theorem roles.create_mayCall (req : CreateRoleRequest) :
    (create req).Uses (RoleRequest.createRole req).MayCall := by
  have hscopes : ∀ id, (insertRoleScopes id req.scopes).Uses (RoleRequest.createRole req).MayCall :=
    fun _ => insertRoleScopes_uses (fun _ => trivial) trivial (fun _ _ => trivial) fun _ _ => .inl ⟨req, rfl⟩
  unfold create insertRole
  repeat' first
    | exact trivial | exact ⟨req, rfl⟩ | apply Uses.bind (hscopes _) | apply respond_mayCall
    | apply uses_perform_bind | intro _ | split

theorem roles.update_mayCall (id : String) (req : UpdateRoleRequest) :
    (update id req).Uses (RoleRequest.updateRole id req).MayCall := by
  have hscopes : (insertRoleScopes id req.scopes).Uses (RoleRequest.updateRole id req).MayCall :=
    insertRoleScopes_uses (fun _ => trivial) trivial (fun _ _ => trivial) fun _ _ => .inr ⟨id, req, rfl⟩
  have hinvalidate : (invalidateUsersWithRole id).Uses (RoleRequest.updateRole id req).MayCall :=
    uses_perform_bind trivial fun _ => invalidateUsers_uses fun _ => trivial
  unfold update
  split
  . trivial
  . trivial
  . next roleType _ htype =>
    unfold updateRole replaceScopes
    repeat' first
      | exact trivial | exact ⟨req, rfl⟩ | exact ⟨req, rfl, htype⟩ | apply Uses.bind hscopes
      | apply Uses.bind hinvalidate | apply respond_mayCall | apply uses_perform_bind | intro _ | split

theorem roles.delete_mayCall (id : String) : (delete id).Uses (RoleRequest.deleteRole id).MayCall := by
  unfold delete deleteRole audit
  repeat' first
    | exact trivial | exact rfl | apply Uses.bind (roleAudit_mayCall fun _ => rfl) | apply uses_perform_bind
    | intro _ | split

theorem roles.assign_mayCall (userId roleId : String) :
    (assign userId roleId).Uses (RoleRequest.assignRole userId roleId).MayCall := by
  unfold assign audit ScopeExpander.invalidate
  apply Uses.bind (tenantIdForUser_uses trivial)
  repeat' first
    | exact trivial | exact rfl | apply Uses.bind (roleAudit_mayCall (by simp [roleEvents]))
    | apply uses_perform_bind | intro _ | split

theorem roles.remove_mayCall (userId roleId : String) :
    (remove userId roleId).Uses (RoleRequest.removeRole userId roleId).MayCall := by
  unfold remove audit ScopeExpander.invalidate
  apply Uses.bind (tenantIdForUser_uses trivial)
  repeat' first
    | exact trivial | exact rfl | apply Uses.bind (roleAudit_mayCall (by simp [roleEvents]))
    | apply uses_perform_bind | intro _ | split

theorem users.create_mayCall (req : CreateUserRequest) :
    (create cfg req).Uses (RoleRequest.createUser req).MayCall := by
  have hdefaults : ∀ userId, (assignDefaults userId).Uses (RoleRequest.createUser req).MayCall := by
    intro userId
    unfold assignDefaults
    apply uses_perform_bind trivial
    rintro (e | roleIds)
    . trivial
    . exact assignRoles_uses trivial fun _ _ => trivial
  unfold create
  split
  . trivial
  . split
    . trivial
    . split
      . trivial
      . apply uses_perform_bind trivial
        rintro (e | hash)
        . trivial
        . unfold insert
          apply uses_perform_bind trivial
          intro userId
          apply uses_perform_bind (.inr ⟨req, rfl⟩)
          rintro (e | user)
          . dsimp only
            split
            . trivial
            . trivial
          . apply Uses.bind (hdefaults userId)
            intro assigned
            exact Uses.bind (roleAudit_mayCall (by simp [roleEvents])) fun _ => trivial

/--
A registration calls what it calls among the requests for the authentication of users.
-/
theorem AuthRequest.MayCall.register {forwardedFor : Option String} {reg : RegisterRequest} {o : Op}
    (ho : (AuthRequest.register forwardedFor reg).MayCall cfg o)
    : (RoleRequest.register forwardedFor reg).MayCall o := by
  unfold RoleRequest.MayCall
  split
  . exact .inl ⟨forwardedFor, reg, rfl⟩
  . rcases ho with ⟨req, hreq⟩ | ⟨id, req, hreq⟩
    . cases hreq
    . cases hreq
  . exact ho.elim
  . exact ho.elim
  . exact ho.elim
  . exact ho.elim
  . exact ho.elim
  . exact ho.elim
  . exact ho.elim
  . rcases ho with ⟨req, hreq⟩
    cases hreq
  . rcases ho with ⟨req, hreq⟩
    cases hreq
  . exact fun hmem => absurd hmem ho
  . trivial

/--
What is called by the requests about roles.
-/
theorem RoleRequest.handle_calls (q : RoleRequest) : (q.handle cfg).Uses q.MayCall := by
  cases q with
  | createRole req => exact (roles.create_mayCall req).bind fun _ => trivial
  | updateRole id req => exact (roles.update_mayCall id req).bind fun _ => trivial
  | deleteRole id => exact (roles.delete_mayCall id).bind fun _ => trivial
  | assignRole userId roleId => exact (roles.assign_mayCall userId roleId).bind fun _ => trivial
  | removeRole userId roleId => exact (roles.remove_mayCall userId roleId).bind fun _ => trivial
  | createUser req => exact (users.create_mayCall req).bind fun _ => trivial
  | register forwardedFor reg =>
    apply Uses.bind
    . exact (AuthRequest.handle_calls (.register forwardedFor reg)).mono fun _ ho => ho.register
    . intro _
      trivial
  | expand userId => exact (expand_uses trivial trivial fun _ => trivial).bind fun _ => trivial

end Roles

section Layers

/--
The operations of the layers around an endpoint, and of a start of the service.
-/
def Op.isLayer : Op → Bool
  | .serviceToken (.findByHash _) => true
  | .serviceToken (.seedAdmin _) => true
  | .cache (.get _) => true
  | .cache (.set ..) => true
  | .cache (.checkRate ..) => true
  | .host .now => true
  | _ => false

variable {P : App Response → Prop} (hpure : ∀ a, P (Prog.pure a))
  (hbind : ∀ {α : Type} {p : App α} {f : α → App Response}, (p.Uses fun o : Op => o.isLayer = true) →
    (∀ a, P (f a)) → P (p >>= f))
include hpure hbind

theorem serviceTokenAuth_rule {path : String} {authorization : Option String}
    {next : Project → App Response} (hnext : ∀ project, P (next project))
    : P (serviceTokenAuth cfg path authorization next) := by
  unfold serviceTokenAuth
  split
  . apply hpure
  . apply hbind (serviceTokenVerify_uses (fun _ => rfl) (fun _ => rfl) fun _ _ => rfl)
    rintro (_ | project)
    . apply hpure
    . apply hnext

theorem layer_rule {limiter : RateLimiter} {key : String} {next : App Response} (hnext : P next) :
    P (limiter.layer key next) := by
  unfold RateLimiter.layer RateLimiter.check
  apply hbind
  . refine uses_perform_bind rfl fun now => uses_perform_bind rfl fun checked => ?_
    rcases checked with e | allowed
    . trivial
    . trivial
  . intro allowed
    split
    . exact hnext
    . apply hpure

theorem limited_rule {limiter : Option RateLimiter} {key : String} {next : App Response} (hnext : P next) :
    P (Call.limited limiter key next) := by
  unfold Call.limited
  split
  . exact layer_rule hpure hbind hnext
  . exact hnext

/--
What holds of all endpoints holds of the calls if the layers keep it.
-/
theorem Call.handle_rule (hendpoint : ∀ endpoint : Endpoint, P (endpoint.handle cfg)) (call : Call) :
    P (call.handle cfg) := by
  cases call with
  | startUp adminToken =>
    dsimp only [Call.handle]
    unfold seedAdminToken
    split
    . apply hpure
    . split
      . apply hpure
      . exact hbind (uses_perform_bind rfl fun _ => trivial) fun _ => hpure _
  | request path authorization address endpoint =>
    dsimp only [Call.handle]
    split
    . exact limited_rule hpure hbind (hendpoint endpoint)
    . unfold authenticated
      apply serviceTokenAuth_rule hpure hbind
      intro project
      split
      . exact serviceTokenAuth_rule hpure hbind fun _ => limited_rule hpure hbind (hendpoint endpoint)
      . exact limited_rule hpure hbind (hendpoint endpoint)
    . unfold managed
      apply serviceTokenAuth_rule hpure hbind
      intro project
      unfold requireAdminServiceToken
      split
      . exact layer_rule hpure hbind (hendpoint endpoint)
      . apply hpure

end Layers

end Aspectus
