import Aspectus.Routes.Cleanup

/-!
This module contains the rules for what the handlers have in common: a part only calls operations from a set if its
own operations are in the set.
-/

namespace Aspectus

open Interaction Prog

/--
The key is the one under which a JWT that was decoded is revoked.
-/
def Denies (cfg : Config) (key : String) : Prop :=
  ∃ now token claims, cfg.decodeJwt JwtVerifier.revokeValidation now token = some claims
    ∧ key = JwtVerifier.revokedKey claims.jti

variable {cfg : Config} {U : Op → Prop}

section Parts

variable {userId tenantId clientId token : String}

theorem auditEvent_uses {params : AuditAuthParams} (hid : U (.host .generateId)) (hnow : U (.host .now))
    (happend : ∀ id entry, entry.action = params.action → entry.tenantId = params.tenantId →
      U (.auditAppend id entry))
    : (auditEvent params).Uses U := by
  unfold auditEvent
  apply uses_perform_bind hid
  intro id
  apply uses_perform_bind hnow
  intro now
  apply uses_perform_bind (happend _ _ rfl rfl)
  intro appended
  trivial

theorem expand_uses (hget : U (.cache (.get (ScopeExpander.cacheKey userId))))
    (hselect : U (.role (.selectScopes userId)))
    (hset : ∀ text, U (.cache (.set (ScopeExpander.cacheKey userId) text 60)))
    : (ScopeExpander.expand userId).Uses U := by
  unfold ScopeExpander.expand
  apply uses_perform_bind hget
  intro cached
  cases cached with
  | some text => trivial
  | none =>
    apply uses_perform_bind hselect
    intro scopes
    apply uses_perform_bind (hset _)
    intro stored
    trivial

theorem signWithTenantName_uses {req : JwtSignRequest} (hnow : U (.host .now)) (hid : U (.host .generateId))
    (hencode : ∀ now jti, U (.host (.encodeJwt (JwtSigner.claims req now jti))))
    : (JwtSigner.signWithTenantName req).Uses U := by
  unfold JwtSigner.signWithTenantName
  apply uses_perform_bind hnow
  intro now
  apply uses_perform_bind hid
  intro jti
  apply uses_perform_bind (hencode _ _)
  rintro (e | token)
  . trivial
  . trivial

theorem jwtRevoke_uses (hnow : U (.host .now))
    (hset : ∀ key ttl, Denies cfg key → U (.cache (.set key "1" ttl)))
    : (JwtVerifier.revoke cfg token).Uses U := by
  unfold JwtVerifier.revoke
  apply uses_perform_bind hnow
  intro now
  split
  . trivial
  . next claims hdecode =>
    apply uses_perform_bind hnow
    intro now'
    apply uses_perform_bind (hset _ _ ⟨now, token, claims, hdecode, rfl⟩)
    intro stored
    trivial

theorem jwtVerify_uses (hnow : U (.host .now)) (hget : ∀ key, U (.cache (.get key))) :
    (JwtVerifier.verify cfg token).Uses U := by
  unfold JwtVerifier.verify
  apply uses_perform_bind hnow
  intro now
  split
  . trivial
  . apply uses_perform_bind (hget _)
    rintro (_ | revoked)
    . trivial
    . trivial

theorem assignDefaultRole_uses (hselect : U (.role .selectDefault)) (hid : U (.host .generateId))
    (hassign : ∀ id roleId, U (.role (.assignDefault id userId roleId)))
    (hdel : U (.cache (.del (ScopeExpander.cacheKey userId))))
    : (register.assignDefaultRole userId).Uses U := by
  unfold register.assignDefaultRole
  apply uses_perform_bind hselect
  intro found
  split
  . apply uses_perform_bind hid
    intro id
    apply uses_perform_bind (hassign _ _)
    rintro (e | _)
    . trivial
    . exact ⟨hdel, fun _ => trivial⟩
  . trivial

/--
The operations that the issuing of tokens calls.
-/
def IssueCall (userId tenantId clientId : String) : Op → Prop
  | .cache (.get key) => key = ScopeExpander.cacheKey userId
  | .cache (.set key _ _) => key = ScopeExpander.cacheKey userId
  | .role (.selectScopes id) => id = userId
  | .tenant (.selectInfo id) => id = tenantId
  | .user (.selectInfo id) => id = userId
  | .refresh (.create _ id client _) => id = userId ∧ client = clientId
  | .host (.encodeJwt claims) =>
    ∃ project, project = (Project.parse clientId).getD .pandaria ∧ claims.clientId = project.toString
      ∧ claims.aud = project.toString
  | .host .now => True
  | .host .generateId => True
  | .host .random => True
  | _ => False

theorem issueTokens_calls :
    (issueTokens cfg userId tenantId clientId).Uses (IssueCall userId tenantId clientId) := by
  unfold issueTokens
  dsimp only
  refine Uses.bind (expand_uses rfl rfl fun _ => rfl) fun scopes => ?_
  refine uses_perform_bind rfl fun tenantRow => ?_
  refine uses_perform_bind rfl fun userInfo => ?_
  refine Uses.bind (signWithTenantName_uses trivial trivial fun _ _ => ⟨_, rfl, rfl, rfl⟩) fun signed => ?_
  rcases signed with e | access
  . trivial
  . refine uses_perform_bind trivial fun raw => ?_
    rcases raw with e | raw
    . trivial
    . refine uses_perform_bind trivial fun now => ?_
      refine uses_perform_bind ⟨rfl, rfl⟩ fun stored => ?_
      rcases stored with e | _
      . trivial
      . trivial

theorem insertNew_uses {kind serviceAccountId : String} {prefixLength : Nat} {project : Project}
    {scopes : List String} {expiresAt : App (Option Instant)} (hid : U (.host .generateId))
    (hrandom : U (.host .random)) (hexpiresAt : expiresAt.Uses U)
    (hinsert : ∀ params, U (.key (.insert params)))
    : (ApiKeyCreator.insertNew cfg kind prefixLength tenantId serviceAccountId project scopes
        expiresAt).Uses U := by
  unfold ApiKeyCreator.insertNew
  apply uses_perform_bind hid
  intro id
  apply uses_perform_bind hrandom
  rintro (e | raw)
  . trivial
  . dsimp only
    apply Uses.bind hexpiresAt
    intro expiresAt
    apply uses_perform_bind (hinsert _)
    rintro (e | _)
    . trivial
    . trivial

theorem apiKeyVerify_uses (hnow : U (.host .now)) (hget : ∀ key, U (.cache (.getJson key)))
    (hfind : ∀ keyHash, U (.key (.findByHash keyHash)))
    (hset : ∀ keyHash value ttl, U (.cache (.setJson (ApiKeyVerifier.cacheKey keyHash) value ttl)))
    : (ApiKeyVerifier.verify cfg token).Uses U := by
  have hactive : ∀ keyHash key, (ApiKeyVerifier.verifyActive keyHash key).Uses U := by
    intro keyHash key
    unfold ApiKeyVerifier.verifyActive
    dsimp only
    split
    . exact uses_perform_bind hnow fun _ => uses_perform_bind (hset _ _ _) fun _ => trivial
    . exact uses_perform_bind (hset _ _ _) fun _ => trivial
  unfold ApiKeyVerifier.verify ApiKeyVerifier.verifyCached ApiKeyVerifier.verifyKey
  repeat' first
    | exact trivial | apply hactive | apply hget | apply hfind | apply hnow | apply uses_perform_bind
    | intro _ | split

theorem addScope_uses {response : IntrospectResponse}
    (hexpand : ∀ userId, (ScopeExpander.expand userId).Uses U)
    : (introspect.addScope response).Uses U := by
  unfold introspect.addScope
  split
  . exact Uses.bind (hexpand _) fun _ => trivial
  . trivial

theorem addQuotas_uses {response : IntrospectResponse} (hget : ∀ id, U (.tenant (.getById id))) :
    (introspect.addQuotas response).Uses U := by
  unfold introspect.addQuotas
  repeat' first | exact trivial | apply hget | apply uses_perform_bind | intro _ | split

theorem serviceTokenVerify_uses (hget : ∀ key, U (.cache (.get key)))
    (hfind : ∀ tokenHash, U (.serviceToken (.findByHash tokenHash)))
    (hset : ∀ tokenHash text, U (.cache (.set (ServiceTokenVerifier.cacheKey tokenHash) text 60)))
    : (ServiceTokenVerifier.verify cfg token).Uses U := by
  unfold ServiceTokenVerifier.verify ServiceTokenVerifier.verifyStored
  dsimp only
  repeat' first
    | exact trivial | apply hget | apply hfind | apply hset | apply uses_perform_bind | intro _ | split

end Parts

section RoleParts

variable {roleId userId : String} {scopes userIds roleIds : List String}

theorem insertRoleScopes_uses (hfind : ∀ scope, U (.role (.findScope scope))) (hid : U (.host .generateId))
    (hinsert : ∀ id scope, U (.role (.insertScope id scope)))
    (hadd : ∀ id scopeId, U (.role (.addScope id roleId scopeId)))
    : (roles.insertRoleScopes roleId scopes).Uses U := by
  have hscopeId : ∀ scope, (roles.scopeId scope).Uses U := by
    intro scope
    unfold roles.scopeId
    apply uses_perform_bind (hfind scope)
    rintro (e | _ | id)
    . trivial
    . apply uses_perform_bind hid
      intro id
      apply uses_perform_bind (hinsert _ _)
      rintro (e | _)
      . trivial
      . trivial
    . trivial
  induction scopes with
  | nil => trivial
  | cons scope scopes ih =>
    unfold roles.insertRoleScopes
    apply Uses.bind (hscopeId scope)
    rintro (e | scopeId)
    . trivial
    . apply uses_perform_bind hid
      intro id
      apply uses_perform_bind (hadd _ _)
      rintro (e | _)
      . trivial
      . exact ih

theorem invalidateUsers_uses (hdel : ∀ userId, U (.cache (.del (ScopeExpander.cacheKey userId)))) :
    (roles.invalidateUsers userIds).Uses U := by
  induction userIds with
  | nil => trivial
  | cons userId userIds ih => exact uses_perform_bind (hdel userId) fun _ => ih

theorem respondRole_uses {status : Nat} {role : Role} {action : String} {metadata : List (String × Json)}
    (hselect : U (.role (.selectRoleScopes roleId)))
    (haudit : ∀ params : AuditAuthParams, params.tenantId = "" → (auditEvent params).Uses U)
    : (roles.respond status roleId role action metadata).Uses U := by
  unfold roles.respond
  apply uses_perform_bind hselect
  rintro (e | scopes)
  . trivial
  . exact Uses.bind (haudit _ rfl) fun _ => trivial

theorem tenantIdForUser_uses (hselect : U (.user (.selectTenant userId))) :
    (roles.tenantIdForUser userId).Uses U := by
  unfold roles.tenantIdForUser
  apply uses_perform_bind hselect
  rintro (e | _ | tenantId)
  . trivial
  . trivial
  . trivial

theorem assignRoles_uses (hid : U (.host .generateId))
    (hassign : ∀ id roleId, U (.role (.assignDefault id userId roleId)))
    : (users.assignRoles userId roleIds).Uses U := by
  induction roleIds with
  | nil => trivial
  | cons roleId roleIds ih => exact uses_perform_bind hid fun _ => uses_perform_bind (hassign _ _) fun _ => ih

end RoleParts

end Aspectus
