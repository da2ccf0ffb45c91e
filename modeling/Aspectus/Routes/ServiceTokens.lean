import Aspectus.Routes.Middleware
import Aspectus.Routes.Users
import Aspectus.Store.Semantics

/-!
This module contains the management of service tokens under `/service-tokens`.
-/

namespace Aspectus

open Interaction

namespace ServiceTokenMetadata

def ofStored (token : StoredServiceToken) : ServiceTokenMetadata where
  project := token.project.toString
  tokenPrefix := token.tokenPrefix
  createdAt := token.createdAt
  updatedAt := token.updatedAt
  revokedAt := token.revokedAt

end ServiceTokenMetadata

namespace ServiceTokens

def tokenNotFound (project : String) : Response :=
  notFound ("Service token for project " ++ project ++ " not found")

def activeNotFound (project : Project) : Response :=
  notFound ("Active service token for project " ++ project.toString ++ " not found")

def parseProject (project : String) : Except Response Project :=
  match Project.parse project with
  | some p => .ok p
  | none =>
    .error (validationFailed ("Invalid project: " ++ (CoreError.invalidProject project).toString))

/--
An unknown project in a path is a resource that does not exist.
-/
def parseProjectParam (project : String) : Except Response Project :=
  match Project.parse project with
  | some p => .ok p
  | none => .error (tokenNotFound project)

def rejectAspectus (project : Project) : Except Response Unit :=
  if project = .aspectus then
    .error (ProblemDetails.withCode .validationFailed
      "The aspectus admin token cannot be managed through this endpoint").intoResponse
  else
    .ok ()

def appendAuditLog (action : String) (project : Project) (metadata : List (String × Json)) :
    App Unit :=
  auditEvent {
    tenantId := "system"
    actorId := "mgmt"
    actorType := .serviceAccount
    action := action
    targetType := "service_token"
    targetId := project.toString
    metadata := .obj metadata
  }

/--
The project of a request, unless it is unknown or the one of the admin token.
-/
def managed (parsed : Except Response Project) (next : Project → App Response) : App Response :=
  match parsed with
  | .error response => return response
  | .ok project =>
    match rejectAspectus project with
    | .error response => return response
    | .ok () => next project

def list : App Response := do
  match ← App.serviceToken .list with
  | .ok tokens =>
    let tokens := tokens.filter fun t => t.project ≠ .aspectus
    return ⟨200, .serviceTokens (tokens.map ServiceTokenMetadata.ofStored)⟩
  | .error _ => return internalError "Failed to list service tokens"

def get (project : String) : App Response :=
  managed (parseProjectParam project) fun project => do
    match ← App.serviceToken (.getByProject project) with
    | .ok (some token) => return ⟨200, .serviceTokenMetadata (.ofStored token)⟩
    | .ok none => return tokenNotFound project.toString
    | .error _ => return internalError "Failed to get service token"

def alreadyExists (project : Project) : Response :=
  (ProblemDetails.withCode .conflict ("Service token for project " ++ project.toString
    ++ " already exists. Use /service-tokens/" ++ project.toString
    ++ "/rotate to replace it.")).intoResponse

/--
Answer with a token that was stored.
-/
def respond (status : Nat) (action : String) (created : CreatedServiceToken) : App Response := do
  appendAuditLog action created.project [("token_prefix", .str created.tokenPrefix)]
  let now ← App.host .now
  return ⟨status, .serviceTokenCreated {
    project := created.project.toString
    token := created.token
    tokenPrefix := created.tokenPrefix
    createdAt := now
    updatedAt := now
  }⟩

/--
Store a new token for the project.
-/
def persist (cfg : Config) (project : Project) : App Response := do
  match ← ServiceTokenCreator.create cfg project with
  | .error e => return (ProblemDetails.ofCoreError e).intoResponse
  | .ok created =>
    match ← App.serviceToken (.upsert created.project created.tokenHash created.tokenPrefix) with
    | .ok _ => respond 201 "service_token.created" created
    | .error _ => return internalError "Failed to persist service token"

def create (cfg : Config) (project : String) : App Response :=
  managed (parseProject project) fun project => do
    match ← App.serviceToken (.getByProject project) with
    | .ok (some existing) =>
      if existing.isActive then
        return alreadyExists project
      else
        persist cfg project
    | .ok none => persist cfg project
    | .error _ => return internalError "Failed to check existing service token"

/--
Continue with the token of the project if there is one that is active.
-/
def withActive (project : Project) (next : StoredServiceToken → App Response) : App Response := do
  match ← App.serviceToken (.getByProject project) with
  | .ok (some existing) =>
    if existing.isActive then
      next existing
    else
      return activeNotFound project
  | .ok none => return activeNotFound project
  | .error _ => return internalError "Failed to look up service token"

/--
Replace the token that was found by a new one. What `upsert` returns is not used.
-/
def replace (cfg : Config) (project : Project) (existing : StoredServiceToken) : App Response := do
  match ← ServiceTokenCreator.create cfg project with
  | .error e => return (ProblemDetails.ofCoreError e).intoResponse
  | .ok created =>
    match ← App.serviceToken (.upsert created.project created.tokenHash created.tokenPrefix) with
    | .ok _ =>
      ServiceTokenVerifier.invalidateByHash existing.tokenHash
      respond 200 "service_token.rotated" created
    | .error _ => return internalError "Failed to rotate service token"

def rotate (cfg : Config) (project : String) : App Response :=
  managed (parseProjectParam project) fun project => withActive project (replace cfg project)

/--
Revoke the token that was found.
-/
def retire (project : Project) (existing : StoredServiceToken) : App Response := do
  match ← App.serviceToken (.revoke project) with
  | .ok true =>
    ServiceTokenVerifier.invalidateByHash existing.tokenHash
    appendAuditLog "service_token.revoked" project []
    return .noContent
  | .ok false => return activeNotFound project
  | .error _ => return internalError "Failed to revoke service token"

def revoke (project : String) : App Response :=
  managed (parseProjectParam project) fun project => withActive project (retire project)

end ServiceTokens

/--
The requests for service tokens, and the verification of one that the other requests begin with.
-/
inductive ProjectTokenRequest where
  | list
  | get (project : String)
  | create (project : String)
  | rotate (project : String)
  | revoke (project : String)
  | verify (token : String)

def ProjectTokenRequest.handle (cfg : Config) : ProjectTokenRequest → App Response
  | .list => ServiceTokens.list
  | .get project => ServiceTokens.get project
  | .create project => ServiceTokens.create cfg project
  | .rotate project => ServiceTokens.rotate cfg project
  | .revoke project => ServiceTokens.revoke project
  | .verify token => do
    match ← ServiceTokenVerifier.verify cfg token with
    | some project => return ⟨200, .message project.toString⟩
    | none => return invalidServiceToken "Invalid Service Token" "/"

abbrev TokenMachine : Type := Machine Api Server Draw ProjectTokenRequest Response

abbrev TokenEntry : Type := Entry Api Server Draw ProjectTokenRequest Response

/--
The executions of the requests for service tokens that start from `s`.
-/
abbrev TokenMachine.Reachable (cfg : Config) (s : Server) (m : TokenMachine) : Prop :=
  Machine.Reaches (semantics cfg) (ProjectTokenRequest.handle cfg) (Machine.init s) m

end Aspectus
