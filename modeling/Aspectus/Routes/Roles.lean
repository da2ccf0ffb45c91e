import Aspectus.Core.Scope
import Aspectus.Routes.Users

/-!
This module contains the endpoints that create users and administrate roles: which scopes a role has, and
which users it is assigned to.
-/

namespace Aspectus

open Interaction

namespace users

def validateEmail (email : String) : Bool :=
  contains email '@' && byteLength email ≤ 256 && !contains email (Char.ofNat 0)

def isControl (c : Char) : Bool :=
  c.toNat < 32 || (127 ≤ c.toNat && c.toNat < 160)

def validateDisplayName (name : String) : Bool :=
  byteLength name ≤ 128 && !name.toList.any isControl

structure CreateUserRequest where
  tenantId : String
  email : String
  password : String
  displayName : Option String

def toDetail (id : String) (user : User) : UserDetail where
  id := id
  tenantId := user.tenantId
  email := user.email
  displayName := user.displayName
  isSuspended := user.isSuspended
  lockedUntil := user.lockedUntil
  lastSignInAt := user.lastSignInAt
  createdAt := user.createdAt
  updatedAt := user.updatedAt

/--
Give the user the default roles, failures are ignored. The conflict target is left out here, which makes no
difference as the result of the statement is not used.
-/
def assignRoles (userId : String) : List String → App Unit
  | [] => return ()
  | roleId :: roleIds => do
    let id ← App.host .generateId
    let _ ← App.role (.assignDefault id userId roleId)
    assignRoles userId roleIds

def assignDefaults (userId : String) : App Unit := do
  match ← App.role .selectDefaults with
  | .ok roleIds => assignRoles userId roleIds
  | .error _ => return ()

def insert (req : CreateUserRequest) (hash : String) : App Response := do
  let userId ← App.host .generateId
  match ← App.user (.insert userId req.tenantId req.email hash req.displayName) with
  | .ok user =>
    assignDefaults userId
    auditEvent {
      tenantId := user.tenantId
      actorId := "mgmt"
      actorType := .serviceAccount
      action := "user.created"
      targetType := "user"
      targetId := userId
      metadata := .obj [("email", (user.email.map Json.str).getD .null)]
    }
    return ⟨201, .user (toDetail userId user)⟩
  | .error e =>
    let msg := (CoreError.internal e).toString
    if containsText msg "users__email" || containsText msg "unique" then
      return validationFailed "Email already exists in this tenant"
    else
      return (ProblemDetails.ofCoreError (.internal e)).intoResponse

/--
Unlike `register` this does not invalidate the scopes of the new user.
-/
def create (cfg : Config) (req : CreateUserRequest) : App Response := do
  if !validateEmail req.email then
    return validationFailed "Invalid email format"
  else if !(req.displayName.map validateDisplayName).getD true then
    return validationFailed "Invalid display name"
  else
    match cfg.passwordPolicy.validate req.password with
    | .error msg => return validationFailed msg
    | .ok () =>
      match ← App.host (.hashPassword req.password) with
      | .error e => return internalError e
      | .ok hash => insert req hash

end users

namespace roles

def toDetail (id : String) (role : Role) (scopes : List String) : RoleDetail where
  id := id
  name := role.name
  description := role.description
  roleType := role.roleType.toString
  isDefault := role.isDefault
  isSystem := role.isSystem
  scopes := scopes

def tenantIdForUser (userId : String) : App (Except Response String) := do
  match ← App.user (.selectTenant userId) with
  | .ok (some tenantId) => return .ok tenantId
  | .ok none => return .error (userNotFound userId)
  | .error e => return .error (internalError e)

/--
Record an event of a role.
-/
def audit (tenantId action roleId : String) (metadata : List (String × Json)) : App Unit :=
  auditEvent {
    tenantId := tenantId
    actorId := "mgmt"
    actorType := .serviceAccount
    action := action
    targetType := "role"
    targetId := roleId
    metadata := .obj metadata
  }

def assign (userId roleId : String) : App Response := do
  match ← tenantIdForUser userId with
  | .error response => return response
  | .ok tenantId =>
    let id ← App.host .generateId
    match ← App.role (.assign id userId roleId) with
    | .ok () =>
      ScopeExpander.invalidate userId
      audit tenantId "role.assigned" roleId [("user_id", .str userId)]
      return ⟨201, .created id⟩
    | .error msg =>
      if containsText msg "users_roles__role_type" then
        return validationFailed "Role type mismatch"
      else if containsText msg "users_roles__unique" then
        -- The assignment already exists.
        return .noContent
      else
        return internalError msg

def remove (userId roleId : String) : App Response := do
  match ← tenantIdForUser userId with
  | .error response => return response
  | .ok tenantId =>
    match ← App.role (.remove userId roleId) with
    | .ok 0 => return notFound "User or role not found"
    | .ok _ =>
      ScopeExpander.invalidate userId
      audit tenantId "role.removed" roleId [("user_id", .str userId)]
      return .noContent
    | .error e => return internalError e

structure CreateRoleRequest where
  name : String
  description : Option String
  roleType : String
  scopes : List String

structure UpdateRoleRequest where
  description : Option String
  roleType : String
  scopes : List String

def validateRoleName (name : String) : Option String :=
  if name = "" ∨ 128 < byteLength name then
    some "Role name must be between 1 and 128 characters"
  else if !name.toList.all fun c => c.isAlphanum || c = '_' || c = '-' then
    some "Role name may only contain letters, numbers, underscore, and hyphen"
  else
    none

/--
The first error in the scopes.
-/
def scopeError : List String → Option String
  | [] => none
  | scope :: scopes =>
    match Scope.validate scope with
    | .error e => some e.toString
    | .ok () => scopeError scopes

def validateRoleScopes (scopes : List String) : Option String :=
  if scopes.isEmpty then
    some "Role must contain at least one scope"
  else
    scopeError scopes

def invalidRoleType : String :=
  "Role type must be one of: user, service_account, both"

/--
The id of a scope, which is created if it is not known yet.
-/
def scopeId (scope : String) : App (Result String) := do
  match ← App.role (.findScope scope) with
  | .error e => return .error e
  | .ok (some id) => return .ok id
  | .ok none =>
    let id ← App.host .generateId
    match ← App.role (.insertScope id scope) with
    | .error e => return .error e
    | .ok () => return .ok id

def insertRoleScopes (roleId : String) : List String → App (Result Unit)
  | [] => return .ok ()
  | scope :: scopes => do
    match ← scopeId scope with
    | .error e => return .error e
    | .ok scopeId =>
      let id ← App.host .generateId
      match ← App.role (.addScope id roleId scopeId) with
      | .error e => return .error e
      | .ok () => insertRoleScopes roleId scopes

def invalidateUsers : List String → App Unit
  | [] => return ()
  | userId :: userIds => do
    ScopeExpander.invalidate userId
    invalidateUsers userIds

def invalidateUsersWithRole (roleId : String) : App Unit := do
  invalidateUsers ((← App.role (.selectUsers roleId)).toOption.getD [])

/--
Answer with the role as it is stored, once the event was recorded.
-/
def respond (status : Nat) (id : String) (role : Role) (action : String)
    (metadata : List (String × Json)) : App Response := do
  match ← App.role (.selectRoleScopes id) with
  | .error e => return internalError e
  | .ok scopes =>
    audit "" action id metadata
    return ⟨status, .role (toDetail id role scopes)⟩

def insertRole (req : CreateRoleRequest) (roleType : RoleType) : App Response := do
  let id ← App.host .generateId
  match ← App.role (.insert id req.name req.description roleType) with
  | .error msg =>
    if containsText msg "roles__name" || containsText msg "unique" then
      return validationFailed "Role name already exists"
    else
      return internalError msg
  | .ok role =>
    match ← insertRoleScopes id req.scopes with
    | .error e => return internalError e
    | .ok () =>
      respond 201 id role "role.created" [
        ("name", .str req.name),
        ("scopes", .arr (req.scopes.map Json.str))
      ]

def create (req : CreateRoleRequest) : App Response :=
  match validateRoleName req.name, validateRoleScopes req.scopes, RoleType.parse req.roleType with
  | some msg, _, _ => return validationFailed msg
  | none, some msg, _ => return validationFailed msg
  | none, none, none => return validationFailed invalidRoleType
  | none, none, some roleType => insertRole req roleType

def replaceScopes (id : String) (role : Role) (scopes : List String) : App Response := do
  match ← App.role (.deleteScopes id) with
  | .error e => return internalError e
  | .ok () =>
    match ← insertRoleScopes id scopes with
    | .error e => return internalError e
    | .ok () =>
      invalidateUsersWithRole id
      respond 200 id role "role.updated" [("scopes", .arr (scopes.map Json.str))]

def updateRole (id : String) (req : UpdateRoleRequest) (roleType : RoleType) : App Response := do
  match ← App.role (.getById id) with
  | .error e => return internalError e
  | .ok none => return notFound ("Role " ++ id ++ " not found")
  | .ok (some role) =>
    if role.isSystem then
      return (ProblemDetails.forbidden "System roles cannot be modified").intoResponse
    else
      match ← App.role (.update id req.description roleType) with
      | .error e => return internalError e
      | .ok role => replaceScopes id role req.scopes

def update (id : String) (req : UpdateRoleRequest) : App Response :=
  match validateRoleScopes req.scopes, RoleType.parse req.roleType with
  | some msg, _ => return validationFailed msg
  | none, none => return validationFailed invalidRoleType
  | none, some roleType => updateRole id req roleType

/--
What a statement answers after another one failed in the same transaction.
-/
def transactionAborted : String :=
  "error returned from database: current transaction is aborted, commands ignored until end of "
    ++ "transaction block"

def deleteRole (id : String) (role : Role) : App Response := do
  match ← App.role (.delete id) with
  | .ok true =>
    audit "" "role.deleted" id [("name", .str role.name)]
    return .noContent
  | .ok false => return notFound "Role not found"
  | .error e => return internalError e

/--
The statements run in a transaction, a failure to begin it looks like a failure of the first one.
-/
def delete (id : String) : App Response := do
  match ← App.role (.getById id) with
  | .error e => return internalError e
  | .ok none => return notFound ("Role " ++ id ++ " not found")
  | .ok (some role) =>
    if role.isSystem then
      return (ProblemDetails.forbidden "System roles cannot be deleted").intoResponse
    else
      match ← App.role (.hasUsers id) with
      | .error _ => return internalError transactionAborted
      | .ok true => return validationFailed "Cannot delete role while it is assigned to users"
      | .ok false => deleteRole id role

end roles

/--
The requests that decide about the scopes of users, and the calls that ask for them.
-/
inductive RoleRequest where
  | createRole (req : roles.CreateRoleRequest)
  | updateRole (id : String) (req : roles.UpdateRoleRequest)
  | deleteRole (id : String)
  | assignRole (userId roleId : String)
  | removeRole (userId roleId : String)
  | createUser (req : users.CreateUserRequest)
  | register (forwardedFor : Option String) (reg : RegisterRequest)
  | expand (userId : String)

inductive RoleAnswer where
  | response (r : Response)
  | scopes (text : String)

def RoleRequest.handle (cfg : Config) : RoleRequest → App RoleAnswer
  | .createRole req => return .response (← roles.create req)
  | .updateRole id req => return .response (← roles.update id req)
  | .deleteRole id => return .response (← roles.delete id)
  | .assignRole userId roleId => return .response (← roles.assign userId roleId)
  | .removeRole userId roleId => return .response (← roles.remove userId roleId)
  | .createUser req => return .response (← users.create cfg req)
  | .register forwardedFor reg => return .response (← Aspectus.register cfg forwardedFor reg)
  | .expand userId => return .scopes (← ScopeExpander.expand userId)

/--
The requests that write the scopes of roles, and the calls that cache what they make of them.
-/
inductive ScopeRequest where
  | create (req : roles.CreateRoleRequest)
  | update (id : String) (req : roles.UpdateRoleRequest)
  | expand (userId : String)

def ScopeRequest.handle : ScopeRequest → App RoleAnswer
  | .create req => return .response (← roles.create req)
  | .update id req => return .response (← roles.update id req)
  | .expand userId => return .scopes (← ScopeExpander.expand userId)

end Aspectus
