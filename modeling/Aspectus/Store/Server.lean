import Aspectus.Core.Error
import Aspectus.Core.Text
import Aspectus.Data.Table

/-!
This module contains the state of the service: the rows of the database tables, the entries of the
Redis cache, and the clock.
-/

namespace Aspectus

structure Tenant where
  name : String
  logoUrl : Option String
  quotas : Json

structure User where
  tenantId : String
  email : Option String
  passwordHash : Option String
  displayName : Option String
  isSuspended : Bool
  failedLoginAttempts : Int
  lockedUntil : Option Instant
  lastSignInAt : Option Instant
  createdAt : Instant
  updatedAt : Instant

structure Role where
  name : String
  description : Option String
  roleType : RoleType
  isDefault : Bool
  isSystem : Bool

structure Scope where
  name : String

structure RoleScope where
  roleId : String
  scopeId : String

structure UserRole where
  userId : String
  roleId : String

structure OAuth2Client where
  name : String
  redirectUris : List String
  clientSecretHash : Option String

structure AuthorizationCode where
  userId : String
  clientId : String
  redirectUri : String
  expiresAt : Instant
  used : Bool
  codeChallenge : Option String

structure RefreshToken where
  userId : String
  clientId : String
  expiresAt : Instant
  revokedAt : Option Instant

structure PasswordResetToken where
  userId : String
  expiresAt : Instant
  used : Bool

structure ServiceAccount where
  tenantId : String

/--
An API key or an opaque token. It is owned by a service account or, if `userId` is set, by a user.
-/
structure ApiKeyRow where
  tenantId : String
  serviceAccountId : Option String
  userId : Option String
  project : Project
  keyHash : String
  keyPrefix : String
  scopes : List String
  expiresAt : Option Instant
  revokedAt : Option Instant

/--
The service token of a project, the table has one row for each project.
-/
structure ServiceTokenRow where
  tokenHash : String
  tokenPrefix : Option String
  createdAt : Instant
  updatedAt : Instant
  revokedAt : Option Instant

structure AuditLog where
  tenantId : String
  actorId : String
  actorType : IdentityType
  action : String
  targetType : String
  targetId : String
  metadata : Json
  createdAt : Instant

/--
RFC 7662 Token Introspection response.
-/
structure IntrospectResponse where
  active : Bool
  tenantId : Option String
  userId : Option String
  identityType : Option IdentityType
  clientId : Option String
  scope : Option String
  tokenType : Option String
  exp : Option Int
  quotas : Option (List (String × Json))
  tokenFormat : Option String

namespace IntrospectResponse

def inactive : IntrospectResponse where
  active := false
  tenantId := none
  userId := none
  identityType := none
  clientId := none
  scope := none
  tokenType := none
  exp := none
  quotas := none
  tokenFormat := none

def mkActive (tenantId userId : String) (identityType : IdentityType) (clientId scope : String)
    (exp : Int) (quotas : Option (List (String × Json))) (tokenFormat : String) :
    IntrospectResponse where
  active := true
  tenantId := some tenantId
  userId := some userId
  identityType := some identityType
  clientId := some clientId
  scope := some scope
  tokenType := some "Bearer"
  exp := some exp
  quotas := quotas
  tokenFormat := some tokenFormat

/--
Validate that an active response carries the mandatory fields.
-/
def validate (r : IntrospectResponse) : Except CoreError Unit :=
  if !r.active then
    .ok ()
  else if r.tenantId.isNone then
    .error (.validation "active introspection response missing tenant_id")
  else if r.scope.isNone then
    .error (.validation "active introspection response missing scope")
  else if r.exp.isNone then
    .error (.validation "active introspection response missing exp")
  else
    .ok ()

end IntrospectResponse

/--
What is stored under a key of the cache. Plain texts, serialized responses and counters are never
stored under the same key.
-/
inductive CacheValue where
  | text (s : String)
  | response (r : IntrospectResponse)
  | counter (n : Int)

/--
An entry without a deadline stays until it is removed.
-/
structure CacheEntry where
  value : CacheValue
  deadline : Option Instant

namespace CacheEntry

/--
An entry disappears when its deadline is reached.
-/
def live (now : Instant) (entry : CacheEntry) : Bool :=
  entry.deadline.all fun deadline => now < deadline

theorem live_of_le {entry : CacheEntry} {now now' : Instant} (h : now ≤ now') (hlive : entry.live now' = true) :
    entry.live now = true := by
  unfold live at hlive ⊢
  cases hdeadline : entry.deadline with
  | none => rfl
  | some deadline =>
    rw [hdeadline] at hlive
    exact decide_eq_true (Int.lt_of_le_of_lt h (of_decide_eq_true hlive))

/--
The entry is gone at `t` at the latest.
-/
def EndsBy (t : Instant) (entry : CacheEntry) : Prop :=
  ∃ deadline, entry.deadline = some deadline ∧ deadline ≤ t

theorem EndsBy.lt {entry : CacheEntry} {t now : Instant} (h : entry.EndsBy t) (hlive : entry.live now = true) :
    now < t := by
  rcases h with ⟨deadline, hdeadline, hle⟩
  unfold live at hlive
  rw [hdeadline] at hlive
  exact Int.lt_of_lt_of_le (of_decide_eq_true hlive) hle

end CacheEntry

structure Server where
  now : Instant
  tenants : Table String Tenant
  users : Table String User
  roles : Table String Role
  scopes : Table String Scope
  rolesScopes : Table String RoleScope
  usersRoles : Table String UserRole
  oauth2Clients : Table String OAuth2Client
  authorizationCodes : Table String AuthorizationCode
  refreshTokens : Table String RefreshToken
  passwordResetTokens : Table String PasswordResetToken
  serviceAccounts : Table String ServiceAccount
  apiKeys : Table String ApiKeyRow
  serviceTokens : Table String ServiceTokenRow
  auditLogs : Table String AuditLog
  redis : String → Option CacheEntry

namespace Server

/--
The value Redis still holds under a key.
-/
def cached (s : Server) (key : String) : Option CacheValue :=
  match s.redis key with
  | some entry => if entry.live s.now then some entry.value else none
  | none => none

theorem cached_eq_some {s : Server} {key : String} {v : CacheValue} :
    s.cached key = some v
      ↔
    ∃ entry, s.redis key = some entry ∧ entry.live s.now = true ∧ entry.value = v := by
  unfold cached
  split
  . next entry h =>
    by_cases hlive : entry.live s.now = true
    . simp [h, hlive]
    . simp [h, hlive]
  . next h => simp [h]

end Server

end Aspectus
