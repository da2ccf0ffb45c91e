import Aspectus.Store.Op
import Aspectus.Interaction.Machine

/-!
This module contains the meaning of the SQL statements: what they answer, which rows they write,
and which constraints of the schema they are refused by. A statement that is refused or fails
leaves the database as it is. Hashes, generated identifiers, and texts that were compared with a
column of the same width before always fit, for all other texts the width of the column matters.
-/

namespace Aspectus

/--
What an operation does not determine on its own. A `fault` makes a statement or a Redis command
fail, a `hostFault` does the same to a call to the host.
-/
structure Draw where
  fault : Option String
  hostFault : Option String
  /-- The random bytes. -/
  bytes : Vector UInt8 32
  /-- The KSUID. -/
  id : String
  /-- The salt for a password hash. -/
  salt : String
  /-- The row that is returned if a statement may return any of several rows. -/
  pick : Nat

namespace Statement

def dbError (msg : String) : String :=
  "error returned from database: " ++ msg

/--
PostgreSQL refuses texts with a zero byte, wherever they occur in a statement.
-/
def storable (s : String) : Bool :=
  !(utf8 s).contains 0

/--
Execute a statement with the given text parameters.
-/
def run {α : Type} (d : Draw) (params : List String) (f : Server → Result (α × Server))
    (s : Server) : Result α × Server :=
  match d.fault with
  | some e => (.error e, s)
  | none =>
    if params.all storable then
      match f s with
      | .ok (a, s') => (.ok a, s')
      | .error e => (.error e, s)
    else
      (.error (dbError "invalid byte sequence for encoding \"UTF8\": 0x00"), s)

/--
Execute a statement that only reads.
-/
def query {α : Type} (d : Draw) (params : List String) (f : Server → Result α) (s : Server) :
    Result α × Server :=
  run d params (fun s => (f s).map fun a => (a, s)) s

/--
The value a column of type `varchar(n)` stores: excess characters are refused unless they are
spaces, which are cut off.
-/
def varchar (n : Nat) (s : String) : Result String :=
  if s.length ≤ n then
    .ok s
  else if (s.toList.drop n).all (· = ' ') then
    .ok (String.ofList (s.toList.take n))
  else
    .error (dbError ("value too long for type character varying(" ++ toString n ++ ")"))

def duplicateKey (constraint : String) : String :=
  dbError ("duplicate key value violates unique constraint \"" ++ constraint ++ "\"")

def foreignKey (table constraint : String) : String :=
  dbError ("insert or update on table \"" ++ table ++ "\" violates foreign key constraint \""
    ++ constraint ++ "\"")

def unexpectedNull (column : String) : String :=
  "error occurred while decoding column " ++ column
    ++ ": unexpected null; try decoding as an `Option`"

def rowNotFound : String :=
  "no rows returned by a query that expected to return at least one row"

/--
`INSERT` a row under a new primary key.
-/
def insert {ρ : Type} (constraint k : String) (r : ρ) (t : Table String ρ) :
    Result (Table String ρ) :=
  match t.insertNew k r with
  | some t => .ok t
  | none => .error (duplicateKey constraint)

/--
The reference a foreign key makes has to exist.
-/
def references {ρ : Type} (table constraint k : String) (t : Table String ρ) : Result Unit :=
  match t.lookup k with
  | some _ => .ok ()
  | none => .error (foreignKey table constraint)

def require (condition : Bool) (error : String) : Result Unit :=
  if condition then .ok () else .error error

def notNull {α : Type} (column : String) : Option α → Result α
  | some a => .ok a
  | none => .error (unexpectedNull column)

section Users

def byEmail (tenantId email : String) (s : Server) : Option (String × User) :=
  (s.users.select fun _ u => u.tenantId = tenantId ∧ u.email = some email).head?

def selectLogin (tenantId email : String) (s : Server) : Result (Option LoginRow) :=
  match byEmail tenantId email s with
  | none => .ok none
  | some (id, u) => do
    let hash ← notNull "2" u.passwordHash
    return some {
      id := id
      tenantId := u.tenantId
      passwordHash := hash
      lockedUntil := u.lockedUntil
      failedLoginAttempts := u.failedLoginAttempts
      isSuspended := u.isSuspended
    }

/--
`SELECT t.id, t.name, t.logo_url FROM users u JOIN tenants t ON t.id = u.tenant_id WHERE u.email = $1 AND
u.is_suspended = false ORDER BY t.name ASC`
-/
def selectLoginTenants (collation : String → String → Bool) (email : String) (s : Server) :
    Result (List (String × String × Option String)) :=
  let rows := (s.users.select fun _ u => u.email = some email ∧ u.isSuspended = false).filterMap fun row =>
    (s.tenants.lookup row.2.tenantId).map fun t => (row.2.tenantId, t.name, t.logoUrl)
  .ok (rows.mergeSort fun a b => collation a.2.1 b.2.1)

def selectCredentials (tenantId email : String) (s : Server) :
    Result (Option (String × String × String)) :=
  match byEmail tenantId email s with
  | none => .ok none
  | some (id, u) => do
    let hash ← notNull "2" u.passwordHash
    return some (id, u.tenantId, hash)

def selectByEmail (tenantId email : String) (s : Server) : Result (Option (String × String)) :=
  .ok ((byEmail tenantId email s).map fun (id, u) => (id, u.tenantId))

def existsEmail (tenantId email : String) (s : Server) : Result Bool :=
  .ok (byEmail tenantId email s).isSome

def isSuspended (id : String) (s : Server) : Result Bool :=
  match s.users.lookup id with
  | some u => .ok u.isSuspended
  | none => .error rowNotFound

def selectTenant (id : String) (s : Server) : Result (Option String) :=
  .ok ((s.users.lookup id).map fun u => u.tenantId)

def selectTenantAndSuspended (id : String) (s : Server) : Result (Option (String × Bool)) :=
  .ok ((s.users.lookup id).map fun u => (u.tenantId, u.isSuspended))

def selectUserInfo (id : String) (s : Server) : Result (Option (String × Option String)) :=
  match s.users.lookup id with
  | none => .ok none
  | some u => do
    let email ← notNull "0" u.email
    return some (email, u.displayName)

/--
`INSERT INTO users ... RETURNING *`, not all handlers read the new row.
-/
def insertUser (id tenantId email passwordHash : String) (displayName : Option String)
    (s : Server) : Result (User × Server) := do
  let email ← varchar 256 email
  let displayName ← displayName.mapM (varchar 128)
  let user : User := {
    tenantId := tenantId
    email := some email
    passwordHash := some passwordHash
    displayName := displayName
    isSuspended := false
    failedLoginAttempts := 0
    lockedUntil := none
    lastSignInAt := none
    createdAt := s.now
    updatedAt := s.now
  }
  let users ← insert "users_pkey" id user s.users
  require (byEmail tenantId email s).isNone (duplicateKey "users__email")
  references "users" "users_tenant_id_fkey" tenantId s.tenants
  return (user, { s with users := users })

/--
`UPDATE users SET ... WHERE id = $1`, the trigger `set_users_updated_at` runs for every updated
row.
-/
def updateUser (id : String) (f : User → User) (s : Server) : Server :=
  { s with users := s.users.updateAt id fun u => { f u with updatedAt := s.now } }

/--
The number of rows an `UPDATE` by primary key affects is 0 or 1.
-/
def updateUserCounted (id : String) (f : User → User) (s : Server) : Result (Bool × Server) :=
  .ok ((s.users.lookup id).isSome, updateUser id f s)

/--
Whether `NOW()` and an interval can be added: PostgreSQL refuses intervals and timestamps beyond their range.
-/
def lockable (now : Instant) (durationSecs : Int) : Bool :=
  -9223372036854775808 ≤ Instant.seconds durationSecs && Instant.seconds durationSecs ≤ 9223372036854775807
    && -210866803200000000 ≤ now + Instant.seconds durationSecs
    && now + Instant.seconds durationSecs < 9224318016000000000

def recordFailedLogin (id : String) (threshold durationSecs : Int) (s : Server) :
    Result ((Int × Option Instant) × Server) :=
  match s.users.lookup id with
  | none => .error rowNotFound
  | some u =>
    let attempts := u.failedLoginAttempts + 1
    if 2147483647 < attempts then
      .error (dbError "integer out of range")
    else if threshold ≤ attempts ∧ lockable s.now durationSecs = false then
      .error (dbError "timestamp out of range")
    else
      let lockedUntil :=
        if threshold ≤ attempts then some (s.now + Instant.seconds durationSecs) else u.lockedUntil
      .ok ((attempts, lockedUntil), updateUser id (fun u =>
        { u with failedLoginAttempts := attempts, lockedUntil := lockedUntil }) s)

end Users

section Roles

/--
`SELECT ... LIMIT 1` without an order may return any of the rows.
-/
def selectDefaultRole (pick : Nat) (s : Server) : Result (Option String) :=
  let rows := s.roles.select fun _ r => r.isDefault ∧ r.roleType.permitsUsers
  .ok ((rows[pick % rows.length]?).map fun row => row.1)

def selectDefaultRoles (s : Server) : Result (List String) :=
  .ok ((s.roles.select fun _ r => r.isDefault ∧ r.roleType.permitsUsers).map fun row => row.1)

/--
The rows that give the user the role, there is at most one.
-/
def assignments (userId roleId : String) (s : Server) : List (String × UserRole) :=
  s.usersRoles.select fun _ ur => ur.userId = userId ∧ ur.roleId = roleId

/--
The constraint `users_roles__role_type`, which only looks at the type of the role when a row is inserted.
A role that does not exist is left to the foreign key.
-/
def checkRoleType (roleId : String) (s : Server) : Result Unit :=
  require (((s.roles.lookup roleId).map fun r => r.roleType.permitsUsers).getD true)
    (dbError ("new row for relation \"users_roles\" violates check constraint "
      ++ "\"users_roles__role_type\""))

/--
`INSERT INTO users_roles ... ON CONFLICT (user_id, role_id) DO NOTHING`
-/
def assignDefaultRole (id userId roleId : String) (s : Server) : Result (Unit × Server) := do
  checkRoleType roleId s
  if (assignments userId roleId s).isEmpty then
    let usersRoles ← insert "users_roles_pkey" id ⟨userId, roleId⟩ s.usersRoles
    references "users_roles" "users_roles_user_id_fkey" userId s.users
    references "users_roles" "users_roles_role_id_fkey" roleId s.roles
    return ((), { s with usersRoles := usersRoles })
  else
    return ((), s)

/--
`INSERT INTO users_roles ...`
-/
def assignRole (id userId roleId : String) (s : Server) : Result (Unit × Server) := do
  checkRoleType roleId s
  let usersRoles ← insert "users_roles_pkey" id ⟨userId, roleId⟩ s.usersRoles
  require (assignments userId roleId s).isEmpty (duplicateKey "users_roles__unique")
  references "users_roles" "users_roles_user_id_fkey" userId s.users
  references "users_roles" "users_roles_role_id_fkey" roleId s.roles
  return ((), { s with usersRoles := usersRoles })

def removeRole (userId roleId : String) (s : Server) : Result (Nat × Server) :=
  .ok ((assignments userId roleId s).length, { s with
    usersRoles := s.usersRoles.deleteWhere fun _ ur => ur.userId = userId ∧ ur.roleId = roleId })

/--
`INSERT INTO roles ... VALUES ($1, $2, $3, $4, false, false) RETURNING *`
-/
def insertRole (id name : String) (description : Option String) (roleType : RoleType) (s : Server) :
    Result (Role × Server) := do
  let name ← varchar 128 name
  let description ← description.mapM (varchar 256)
  let role : Role := ⟨name, description, roleType, false, false⟩
  let roles ← insert "roles_pkey" id role s.roles
  require (s.roles.select fun _ r => r.name = name).isEmpty (duplicateKey "roles__name")
  return (role, { s with roles := roles })

/--
`UPDATE roles SET description = $1, type = $2 WHERE id = $3 RETURNING *`
-/
def updateRole (id : String) (description : Option String) (roleType : RoleType) (s : Server) :
    Result (Role × Server) :=
  match s.roles.lookup id with
  | none => .error rowNotFound
  | some role => do
    let description ← description.mapM (varchar 256)
    return ({ role with description := description, roleType := roleType }, { s with
      roles := s.roles.updateAt id fun role =>
        { role with description := description, roleType := roleType } })

def roleUsers (id : String) (s : Server) : List String :=
  (s.usersRoles.select fun _ ur => ur.roleId = id).map fun row => row.2.userId

/--
The rows that attach the scope to the role, there is at most one.
-/
def attachments (roleId scopeId : String) (s : Server) : List (String × RoleScope) :=
  s.rolesScopes.select fun _ rs => rs.roleId = roleId ∧ rs.scopeId = scopeId

def deleteRoleScopes (id : String) (s : Server) : Server :=
  { s with rolesScopes := s.rolesScopes.deleteWhere fun _ rs => rs.roleId = id }

/--
`DELETE FROM roles_scopes WHERE role_id = $1`, `DELETE FROM roles WHERE id = $1` and `COMMIT`. Nothing
is visible to others before the commit, and a transaction that affects no row of `roles` is rolled back.
-/
def deleteRole (id : String) (s : Server) : Result (Bool × Server) :=
  match s.roles.lookup id with
  | none => .ok (false, s)
  | some _ => do
    require (roleUsers id s).isEmpty
      (dbError ("update or delete on table \"roles\" violates foreign key constraint "
        ++ "\"users_roles_role_id_fkey\" on table \"users_roles\""))
    return (true, { deleteRoleScopes id s with roles := s.roles.erase id })

/--
`INSERT INTO roles_scopes ... ON CONFLICT (role_id, scope_id) DO NOTHING`
-/
def addRoleScope (id roleId scopeId : String) (s : Server) : Result (Unit × Server) := do
  if (attachments roleId scopeId s).isEmpty then
    let rolesScopes ← insert "roles_scopes_pkey" id ⟨roleId, scopeId⟩ s.rolesScopes
    references "roles_scopes" "roles_scopes_role_id_fkey" roleId s.roles
    references "roles_scopes" "roles_scopes_scope_id_fkey" scopeId s.scopes
    return ((), { s with rolesScopes := rolesScopes })
  else
    return ((), s)

def scopesNamed (name : String) (s : Server) : List (String × Scope) :=
  s.scopes.select fun _ sc => sc.name = name

def findScope (name : String) (s : Server) : Result (Option String) :=
  .ok ((scopesNamed name s).head?.map fun row => row.1)

def insertScope (id name : String) (s : Server) : Result (Unit × Server) := do
  let name ← varchar 256 name
  let scopes ← insert "scopes_pkey" id ⟨name⟩ s.scopes
  require (scopesNamed name s).isEmpty (duplicateKey "scopes__name")
  return ((), { s with scopes := scopes })

/--
The scopes of a role in the order of their names.
-/
def selectRoleScopes (collation : String → String → Bool) (id : String) (s : Server) :
    Result (List String) :=
  let rows := s.scopes.select fun scopeId _ => !(attachments id scopeId s).isEmpty
  .ok ((rows.map fun row => row.2.name).mergeSort collation)

/--
Whether some role of the user contains the scope.
-/
def grants (s : Server) (userId scopeId : String) : Bool :=
  !(s.rolesScopes.select fun _ rs => rs.scopeId = scopeId
    ∧ !(assignments userId rs.roleId s).isEmpty).isEmpty

def selectScopes (collation : String → String → Bool) (userId : String) (s : Server) :
    Result (List String) :=
  let rows := s.scopes.select fun id _ => grants s userId id
  .ok ((rows.map fun row => row.2.name).dedup.mergeSort collation)

/--
`SELECT COUNT(*) = $1 FROM scopes WHERE name = ANY($2)`
-/
def countScopes (count : Nat) (names : List String) (s : Server) : Result Bool :=
  .ok ((s.scopes.select fun _ sc => names.contains sc.name).length = count)

end Roles

section Codes

def createCode (code userId clientId redirectUri : String) (expiresAt : Instant) (s : Server) :
    Result (Unit × Server) := do
  let codes ← insert "authorization_codes_pkey" code {
    userId := userId
    clientId := clientId
    redirectUri := redirectUri
    expiresAt := expiresAt
    used := false
    codeChallenge := none
  } s.authorizationCodes
  references "authorization_codes" "authorization_codes_user_id_fkey" userId s.users
  return ((), { s with authorizationCodes := codes })

def setChallenge (challenge code : String) (s : Server) : Result (Unit × Server) :=
  match s.authorizationCodes.lookup code with
  | none => .ok ((), s)
  | some _ => do
    -- Without a row there is no value to convert.
    let challenge ← varchar 255 challenge
    return ((), { s with
      authorizationCodes :=
        s.authorizationCodes.updateAt code fun c => { c with codeChallenge := some challenge } })

/--
Whether `exchange_code` accepts the code.
-/
def exchangeable (now : Instant) (c : AuthorizationCode) : Bool :=
  !c.used && now < c.expiresAt

def exchangeCode (code : String) (s : Server) :
    Result (Option (String × String × String) × Server) :=
  match s.authorizationCodes.lookup code with
  | some c =>
    if exchangeable s.now c then
      .ok (some (c.userId, c.clientId, c.redirectUri), { s with
        authorizationCodes := s.authorizationCodes.updateAt code fun c => { c with used := true } })
    else
      .ok (none, s)
  | none => .ok (none, s)

def selectChallenge (code : String) (s : Server) : Result (Option (Option String)) :=
  .ok ((s.authorizationCodes.lookup code).map fun c => c.codeChallenge)

end Codes

section RefreshTokens

def createRefreshToken (tokenHash userId clientId : String) (expiresAt : Instant) (s : Server) :
    Result (Unit × Server) := do
  let tokens ← insert "refresh_tokens_pkey" tokenHash {
    userId := userId
    clientId := clientId
    expiresAt := expiresAt
    revokedAt := none
  } s.refreshTokens
  references "refresh_tokens" "refresh_tokens_user_id_fkey" userId s.users
  return ((), { s with refreshTokens := tokens })

/--
Whether `rotate` accepts the token.
-/
def rotatable (now : Instant) (t : RefreshToken) : Bool :=
  t.revokedAt.isNone && now < t.expiresAt

def rotate (tokenHash : String) (s : Server) :
    Result (Option (String × String × String) × Server) :=
  match s.refreshTokens.lookup tokenHash with
  | some t =>
    if rotatable s.now t then
      .ok (some (t.userId, t.clientId, tokenHash), { s with
        refreshTokens :=
          s.refreshTokens.updateAt tokenHash fun t => { t with revokedAt := some s.now } })
    else
      .ok (none, s)
  | none => .ok (none, s)

def revokeAllForUser (userId : String) (s : Server) : Result (Nat × Server) :=
  let p := fun (_ : String) (t : RefreshToken) => decide (t.userId = userId) && t.revokedAt.isNone
  .ok ((s.refreshTokens.select p).length, { s with
    refreshTokens := s.refreshTokens.updateWhere p fun t => { t with revokedAt := some s.now } })

def findByHashAny (tokenHash : String) (s : Server) : Result (Option (String × Bool)) :=
  .ok ((s.refreshTokens.lookup tokenHash).map fun t => (t.userId, t.revokedAt.isSome))

end RefreshTokens

section Clients

def createClient (clientId name : String) (redirectUris : List String) (clientSecretHash : String)
    (s : Server) : Result (Unit × Server) := do
  let name ← varchar 128 name
  let clients ← insert "oauth2_clients_pkey" clientId {
    name := name
    redirectUris := redirectUris
    clientSecretHash := some clientSecretHash
  } s.oauth2Clients
  return ((), { s with oauth2Clients := clients })

def validateRedirectUri (clientId redirectUri : String) (s : Server) : Result Bool :=
  match s.oauth2Clients.lookup clientId with
  | some c => .ok (c.redirectUris.contains redirectUri)
  | none => .ok false

def selectSecretHash (clientId : String) (s : Server) : Result (Option (Option String)) :=
  .ok ((s.oauth2Clients.lookup clientId).map fun c => c.clientSecretHash)

end Clients

section PasswordResetTokens

def insertResetToken (tokenHash userId : String) (expiresAt : Instant) (s : Server) :
    Result (Unit × Server) := do
  let tokens ← insert "password_reset_tokens_pkey" tokenHash {
    userId := userId
    expiresAt := expiresAt
    used := false
  } s.passwordResetTokens
  references "password_reset_tokens" "password_reset_tokens_user_id_fkey" userId s.users
  return ((), { s with passwordResetTokens := tokens })

def claimResetToken (tokenHash : String) (s : Server) : Result (Option String × Server) :=
  match s.passwordResetTokens.lookup tokenHash with
  | some t =>
    if !t.used && s.now < t.expiresAt then
      .ok (some t.userId, { s with
        passwordResetTokens :=
          s.passwordResetTokens.updateAt tokenHash fun t => { t with used := true } })
    else
      .ok (none, s)
  | none => .ok (none, s)

end PasswordResetTokens

section ApiKeys

/--
Read a row of `api_keys`, which fails if the key has no service account.
-/
def decodeApiKey (id : String) (row : ApiKeyRow) : Result ApiKey := do
  let serviceAccountId ← notNull "\"service_account_id\"" row.serviceAccountId
  return {
    id := id
    tenantId := row.tenantId
    serviceAccountId := serviceAccountId
    project := row.project
    keyHash := row.keyHash
    keyPrefix := row.keyPrefix
    scopes := row.scopes
    expiresAt := row.expiresAt
    revokedAt := row.revokedAt
  }

def byHash (keyHash : String) (s : Server) : Option (String × ApiKeyRow) :=
  (s.apiKeys.select fun _ row => row.keyHash = keyHash).head?

/--
The projects in the enumeration type of the database, which has no `aspectus`.
-/
def isDatabaseProject (p : Project) : Bool :=
  p ≠ .aspectus

def insertApiKey (params : InsertApiKeyParams) (s : Server) : Result (ApiKey × Server) := do
  require (isDatabaseProject params.project)
    (dbError "invalid input value for enum project: \"aspectus\"")
  let row : ApiKeyRow := {
    tenantId := params.tenantId
    serviceAccountId := some params.serviceAccountId
    userId := none
    project := params.project
    keyHash := params.keyHash
    keyPrefix := params.keyPrefix
    scopes := params.scopes
    expiresAt := params.expiresAt
    revokedAt := none
  }
  let apiKeys ← insert "api_keys_pkey" params.id row s.apiKeys
  require (byHash params.keyHash s).isNone (duplicateKey "api_keys__key_hash")
  references "api_keys" "api_keys_tenant_id_fkey" params.tenantId s.tenants
  references "api_keys" "api_keys_service_account_id_fkey" params.serviceAccountId
    s.serviceAccounts
  let key ← decodeApiKey params.id row
  return (key, { s with apiKeys := apiKeys })

def findByHash (keyHash : String) (s : Server) : Result (Option ApiKey) :=
  match byHash keyHash s with
  | none => .ok none
  | some (id, row) => (decodeApiKey id row).map some

def findById (id : String) (s : Server) : Result (Option ApiKey) :=
  match s.apiKeys.lookup id with
  | none => .ok none
  | some row => (decodeApiKey id row).map some

def revokeApiKey (id : String) (s : Server) : Result (Bool × Server) :=
  match s.apiKeys.lookup id with
  | some row =>
    if row.revokedAt.isNone then
      .ok (true, { s with
        apiKeys := s.apiKeys.updateAt id fun row => { row with revokedAt := some s.now } })
    else
      .ok (false, s)
  | none => .ok (false, s)

def setUserOwner (userId id : String) (s : Server) : Result (Unit × Server) :=
  match s.apiKeys.lookup id with
  | none => .ok ((), s)
  | some _ => do
    references "api_keys" "api_keys_user_id_fkey" userId s.users
    return ((), { s with
      apiKeys := s.apiKeys.updateAt id fun row =>
        { row with userId := some userId, serviceAccountId := none } })

def getServiceAccount (id : String) (s : Server) : Result (Option ServiceAccount) :=
  .ok (s.serviceAccounts.lookup id)

end ApiKeys

section ServiceTokens

/--
Read a row of `service_tokens`, a row whose project is not known is treated as missing.
-/
def decodeServiceToken (project : String) (row : ServiceTokenRow) : Option StoredServiceToken :=
  (Project.parse project).map fun project => {
    project := project
    tokenHash := row.tokenHash
    tokenPrefix := row.tokenPrefix
    createdAt := row.createdAt
    updatedAt := row.updatedAt
    revokedAt := row.revokedAt
  }

/--
The hashes are not unique, the statement may return any of the rows.
-/
def findServiceTokenByHash (pick : Nat) (tokenHash : String) (s : Server) :
    Result (Option StoredServiceToken) :=
  let rows := s.serviceTokens.select fun _ row => row.tokenHash = tokenHash ∧ row.revokedAt.isNone
  .ok ((rows[pick % rows.length]?).bind fun row => decodeServiceToken row.1 row.2)

def listServiceTokens (collation : String → String → Bool) (s : Server) :
    Result (List StoredServiceToken) :=
  let rows := s.serviceTokens.select fun _ _ => true
  .ok ((rows.mergeSort fun row row' => collation row.1 row'.1).filterMap fun row =>
    decodeServiceToken row.1 row.2)

def getServiceToken (project : Project) (s : Server) : Result (Option StoredServiceToken) :=
  .ok ((s.serviceTokens.lookup project.toString).bind (decodeServiceToken project.toString))

/--
`INSERT INTO service_tokens ... ON CONFLICT (project) DO UPDATE SET ...`, the row it replaces is
locked and read in the same transaction.
-/
def upsertServiceToken (project : Project) (tokenHash tokenPrefix : String) (s : Server) :
    Result (Option String × Server) :=
  let old := s.serviceTokens.lookup project.toString
  .ok (old.map fun row => row.tokenHash, { s with
    serviceTokens := s.serviceTokens.insert project.toString {
      tokenHash := tokenHash
      tokenPrefix := some tokenPrefix
      createdAt := (old.map fun row => row.createdAt).getD s.now
      updatedAt := s.now
      revokedAt := none
    } })

/--
The trigger `set_service_tokens_updated_at` runs for every updated row.
-/
def revokeServiceToken (project : Project) (s : Server) : Result (Bool × Server) :=
  match s.serviceTokens.lookup project.toString with
  | some row =>
    if row.revokedAt.isNone then
      .ok (true, { s with
        serviceTokens := s.serviceTokens.updateAt project.toString fun row =>
          { row with revokedAt := some s.now, updatedAt := s.now } })
    else
      .ok (false, s)
  | none => .ok (false, s)

/--
Unlike `upsert` this neither sets a prefix nor activates a token that was revoked.
-/
def seedAdminToken (tokenHash : String) (s : Server) : Result (Unit × Server) :=
  let old := s.serviceTokens.lookup Project.aspectus.toString
  .ok ((), { s with
    serviceTokens := s.serviceTokens.insert Project.aspectus.toString {
      tokenHash := tokenHash
      tokenPrefix := old.bind fun row => row.tokenPrefix
      createdAt := (old.map fun row => row.createdAt).getD s.now
      updatedAt := s.now
      revokedAt := old.bind fun row => row.revokedAt
    } })

end ServiceTokens

section AuditLogs

def appendAudit (id : String) (entry : AuditLog) (s : Server) : Result (Unit × Server) := do
  let tenantId ← varchar 27 entry.tenantId
  let actorId ← varchar 27 entry.actorId
  let action ← varchar 64 entry.action
  let targetType ← varchar 32 entry.targetType
  let targetId ← varchar 27 entry.targetId
  let auditLogs ← insert "audit_logs_pkey" id { entry with
    tenantId := tenantId
    actorId := actorId
    action := action
    targetType := targetType
    targetId := targetId
  } s.auditLogs
  references "audit_logs" "audit_logs_tenant_id_fkey" tenantId s.tenants
  return ((), { s with auditLogs := auditLogs })

end AuditLogs

end Statement

end Aspectus
