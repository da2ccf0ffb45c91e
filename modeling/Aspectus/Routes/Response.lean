import Aspectus.Auth.ServiceToken

/-!
This module contains the responses of the endpoints, and the helpers all handlers share.
-/

namespace Aspectus

open Interaction

structure TokenUser where
  id : String
  email : Option String
  displayName : Option String
deriving DecidableEq

structure TokenTenant where
  id : String
  name : Option String
  logoUrl : Option String
deriving DecidableEq

/--
The response that carries an access token and a refresh token of a user.
-/
structure UserTokens where
  accessToken : String
  tokenFormat : String
  expiresIn : Nat
  tokenType : String
  refreshToken : String
  user : TokenUser
  tenant : TokenTenant
  availableProjects : List String
deriving DecidableEq

/--
The response that carries a token of a service account.
-/
structure ServiceToken where
  accessToken : String
  tokenFormat : String
  expiresIn : Nat
  tokenType : String
deriving DecidableEq

/--
Metadata of a service token, never the token or its hash.
-/
structure ServiceTokenMetadata where
  project : String
  tokenPrefix : Option String
  createdAt : Instant
  updatedAt : Instant
  revokedAt : Option Instant

/--
The response that carries a new service token, which is returned exactly once.
-/
structure ServiceTokenCreated where
  project : String
  token : String
  tokenPrefix : String
  createdAt : Instant
  updatedAt : Instant

/--
A role together with the names of its scopes.
-/
structure RoleDetail where
  id : String
  name : String
  description : Option String
  roleType : String
  isDefault : Bool
  isSystem : Bool
  scopes : List String

/--
What is serialized of a user, neither the hash of the password nor the number of failed logins.
-/
structure UserDetail where
  id : String
  tenantId : String
  email : Option String
  displayName : Option String
  isSuspended : Bool
  lockedUntil : Option Instant
  lastSignInAt : Option Instant
  createdAt : Instant
  updatedAt : Instant

inductive Body where
  | empty
  | problem (p : ProblemDetails)
  | message (text : String)
  | userTokens (t : UserTokens)
  | serviceToken (t : ServiceToken)
  | code (code redirectUri : String)
  | client (clientId name clientSecret : String)
  | createdKey (key : CreatedApiKey)
  | introspection (r : IntrospectResponse)
  | serviceTokenCreated (t : ServiceTokenCreated)
  | serviceTokenMetadata (t : ServiceTokenMetadata)
  | serviceTokens (ts : List ServiceTokenMetadata)
  | created (id : String)
  | role (r : RoleDetail)
  | user (u : UserDetail)

structure Response where
  status : Nat
  body : Body

namespace Response

def problem (p : ProblemDetails) : Response :=
  ⟨p.status, .problem p⟩

def noContent : Response :=
  ⟨204, .empty⟩

end Response

namespace ProblemDetails

def intoResponse (p : ProblemDetails) : Response :=
  .problem p

end ProblemDetails

/--
Extract client IP from the `X-Forwarded-For` header or fallback.
-/
def clientIp (forwardedFor : Option String) : String :=
  match forwardedFor with
  | some value =>
    match split value ',' with
    | first :: _ => trim first
    | [] => "unknown"
  | none => "unknown"

structure AuditAuthParams where
  tenantId : String
  actorId : String
  actorType : IdentityType
  action : String
  targetType : String
  targetId : String
  metadata : Json

/--
Record an audit log entry, a failure to do so is only logged.
-/
def auditEvent (params : AuditAuthParams) : App Unit := do
  let id ← App.host .generateId
  let now ← App.host .now
  let _ ← App.auditAppend id {
    tenantId := params.tenantId
    actorId := params.actorId
    actorType := params.actorType
    action := params.action
    targetType := params.targetType
    targetId := params.targetId
    metadata := params.metadata
    createdAt := now
  }
  return ()

/--
Record an authentication event of a user.
-/
def auditAuthEvent (tenantId userId action : String) (metadata : List (String × Json)) : App Unit :=
  auditEvent {
    tenantId := tenantId
    actorId := userId
    actorType := .user
    action := action
    targetType := "user"
    targetId := userId
    metadata := .obj metadata
  }

end Aspectus
