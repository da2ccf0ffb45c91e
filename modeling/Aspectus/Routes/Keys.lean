import Aspectus.Core.Scope
import Aspectus.Routes.Users

/-!
This module contains the endpoints for the credentials of service accounts: the management of API
keys under `/api-keys`, and `/token`, `/token/revoke` and `/introspect`.
-/

namespace Aspectus

open Interaction

structure CreateApiKeyRequest where
  ownerType : Option String
  ownerId : Option String
  serviceAccountId : Option String
  project : String
  scopes : List String
  expiresAt : Option String

namespace createApiKey

/--
Every scope has to be well-formed and belong to the project of the key.
-/
def checkScopes (project : Project) : List String → Except Response Unit
  | [] => .ok ()
  | scope :: rest =>
    match Scope.validate scope with
    | .error e =>
      .error (validationFailed ("Invalid scope '" ++ scope ++ "': " ++ e.toString))
    | .ok () =>
      match Scope.project scope with
      | .ok scopeProject =>
        if scopeProject = project then
          checkScopes project rest
        else
          .error (validationFailed ("Scope '" ++ scope ++ "' belongs to project '"
            ++ scopeProject.toString ++ "' but key project is '" ++ project.toString ++ "'"))
      | .error e =>
        .error (validationFailed ("Invalid scope '" ++ scope ++ "': " ++ e.toString))

/--
The tenant of the owner of the key.
-/
def ownerTenant (ownerType ownerId : String) : App (Except Response String) := do
  if ownerType = "user" then
    match ← App.user (.getById ownerId) with
    | .ok (some user) => return .ok user.tenantId
    | .ok none => return .error (userNotFound ownerId)
    | .error e => return .error (ProblemDetails.ofCoreError (.internal e)).intoResponse
  else
    match ← App.key (.getServiceAccount ownerId) with
    | .ok (some sa) => return .ok sa.tenantId
    | .ok none => return .error (notFound ("ServiceAccount " ++ ownerId ++ " not found"))
    | .error e => return .error (ProblemDetails.ofCoreError (.internal e)).intoResponse

def createKey (cfg : Config) (req : CreateApiKeyRequest) (project : Project)
    (ownerType ownerId tenantId : String) : App Response := do
  match ← ApiKeyCreator.create cfg tenantId ownerId project req.scopes
    (req.expiresAt.bind cfg.parseRfc3339) with
  | .error e => return (ProblemDetails.ofCoreError e).intoResponse
  | .ok key =>
    if ownerType = "user" then
      let _ ← App.key (.setUserOwner ownerId key.id)
    auditEvent {
      tenantId := tenantId
      actorId := "mgmt"
      actorType := .serviceAccount
      action := "api_key.created"
      targetType := "api_key"
      targetId := key.id
      metadata := .obj [
        ("owner_type", .str ownerType),
        ("owner_id", .str ownerId),
        ("project", .str req.project),
        ("scopes", .arr (req.scopes.map Json.str))
      ]
    }
    return ⟨201, .createdKey key⟩

def createForOwner (cfg : Config) (req : CreateApiKeyRequest) (project : Project)
    (ownerType ownerId : String) : App Response := do
  match ← ownerTenant ownerType ownerId with
  | .error response => return response
  | .ok tenantId => createKey cfg req project ownerType ownerId tenantId

/--
Every scope has to exist in the database.
-/
def checkExistence (cfg : Config) (req : CreateApiKeyRequest) (project : Project)
    (ownerType ownerId : String) : App Response := do
  if req.scopes.isEmpty then
    createForOwner cfg req project ownerType ownerId
  else
    match ← App.role (.countScopes req.scopes.length req.scopes) with
    | .error _ => return internalError "Failed to validate scopes"
    | .ok false => return validationFailed "One or more scopes are not valid for this project"
    | .ok true => createForOwner cfg req project ownerType ownerId

end createApiKey

open createApiKey in
def createApiKey (cfg : Config) (req : CreateApiKeyRequest) : App Response :=
  match Project.parse req.project with
  | none => return (ProblemDetails.ofCoreError (.invalidProject req.project)).intoResponse
  | some project =>
    let ownerType := req.ownerType.getD "service_account"
    match req.ownerId.orElse fun _ => req.serviceAccountId with
    | none =>
      return validationFailed "Either owner_type+owner_id or service_account_id is required"
    | some ownerId =>
      if ¬ownerType ∈ ["user", "service_account"] then
        return validationFailed ("Invalid owner_type: " ++ ownerType)
      else if Scope.maxScopesPerKey < req.scopes.length then
        return validationFailed ("Too many scopes: max " ++ toString Scope.maxScopesPerKey)
      else
        match checkScopes project req.scopes with
        | .error response => return response
        | .ok () => checkExistence cfg req project ownerType ownerId

def apiKeyNotFound (id : String) : Response :=
  notFound ("ApiKey " ++ id ++ " not found")

/--
`DELETE /api-keys/{id}`
-/
def revokeApiKey (id : String) : App Response := do
  match ← App.key (.findById id) with
  | .ok (some key) =>
    match ← App.key (.revoke id) with
    | .ok true =>
      ApiKeyVerifier.invalidateCache key.keyHash
      -- The time of the revocation in the metadata is read from the clock once more.
      let revokedAt ← App.host .now
      auditEvent {
        tenantId := key.tenantId
        actorId := "mgmt"
        actorType := .serviceAccount
        action := "api_key.revoked"
        targetType := "api_key"
        targetId := id
        metadata := .obj [("revoked_at", .time revokedAt)]
      }
      return .noContent
    | .ok false => return notFound ("ApiKey " ++ id ++ " not found or already revoked")
    | .error _ => return internalError "An internal error occurred"
  | _ => return apiKeyNotFound id

structure ServiceTokenRequest where
  grantType : String
  clientId : String
  clientSecret : String
  tokenFormat : String

namespace issueServiceToken

def response (format : String) (ttl : Nat) (token : String) : Response :=
  ⟨200, .serviceToken {
    accessToken := token
    tokenFormat := format
    expiresIn := ttl
    tokenType := "Bearer"
  }⟩

/--
Issue a token for the service account, tenant, project and scopes of a verified API key.
-/
def create (cfg : Config) (format tenantId serviceAccountId : String) (project : Project)
    (scopes : String) : App Response := do
  match format with
  | "jwt" =>
    match ← JwtSigner.sign serviceAccountId tenantId project scopes .serviceAccount
      cfg.jwtTtlSeconds with
    | .ok token => return response "jwt" cfg.jwtTtlSeconds token
    | .error e => return (ProblemDetails.ofCoreError e).intoResponse
  | "opaque" =>
    match ← ApiKeyCreator.createOpaque cfg tenantId serviceAccountId project scopes
      cfg.opaqueTokenTtlSeconds with
    | .ok key => return response "opaque" cfg.opaqueTokenTtlSeconds key.key
    | .error e => return (ProblemDetails.ofCoreError e).intoResponse
  | other => return validationFailed ("Unsupported token_format: " ++ other)

end issueServiceToken

open issueServiceToken in
def issueServiceToken (cfg : Config) (req : ServiceTokenRequest) : App Response := do
  if req.grantType ≠ "client_credentials" then
    return validationFailed "Only client_credentials is supported"
  else
    let introspect ← ApiKeyVerifier.verify cfg req.clientSecret
    if !introspect.active then
      return unauthorized "Invalid client_secret" "/token"
    else
      let tenantId := introspect.tenantId.getD ""
      let scopes := introspect.scope.getD ""
      let serviceAccountId := introspect.userId.getD ""
      let project := (introspect.clientId.bind Project.parse).getD .pandaria
      match Project.parse req.clientId with
      | none => return validationFailed ("Unknown project: " ++ req.clientId)
      | some requestedProject =>
        if requestedProject ≠ project then
          return unauthorized "client_id does not match the API key's project" "/token"
        else
          create cfg req.tokenFormat tenantId serviceAccountId project scopes

/--
`POST /token/revoke`, everything but a missing token is answered with success.
-/
def revokeToken (cfg : Config) (token : Option String) : App Response := do
  let token := token.getD ""
  if token = "" then
    return validationFailed "token is required"
  else if startsWith token "eyJ" then
    let _ ← JwtVerifier.revoke cfg token
    return .noContent
  else
    match extractRawFromKey token with
    | none => return .noContent
    | some raw =>
      match ← App.key (.findByHash (cfg.sha256 raw)) with
      | .ok (some key) =>
        let _ ← App.key (.revoke key.id)
        return .noContent
      | _ => return .noContent

namespace introspect

/--
The quotas of a tenant as they are added to a response, an empty object adds nothing.
-/
def quotasOf (tenant : Tenant) : Option (List (String × Json)) :=
  match tenant.quotas with
  | .obj [] => none
  | .obj fields => some fields
  | _ => none

def addScope (response : IntrospectResponse) : App IntrospectResponse :=
  match response.identityType, response.userId with
  | some .user, some userId => do
    let scope ← ScopeExpander.expand userId
    return { response with scope := some scope }
  | _, _ => return response

def addQuotas (response : IntrospectResponse) : App IntrospectResponse :=
  match response.tenantId with
  | none => return response
  | some tenantId => do
    match ← App.tenant (.getById tenantId) with
    | .ok (some tenant) =>
      match quotasOf tenant with
      | some quotas => return { response with quotas := some quotas }
      | none => return response
    | _ => return response

end introspect

open introspect in
def introspect (cfg : Config) (token : String) : App Response := do
  let response ← TokenVerifier.verify cfg token
  if response.active then
    let response ← addScope response
    let response ← addQuotas response
    return ⟨200, .introspection response⟩
  else
    return ⟨200, .introspection response⟩

end Aspectus
