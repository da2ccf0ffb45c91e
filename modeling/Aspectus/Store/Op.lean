import Aspectus.Interaction.Prog
import Aspectus.Store.Config
import Aspectus.Store.Server

/-!
This module contains the atomic operations of the service: one for each SQL statement, for each
Redis command, and for each call to the host that is not determined by its arguments.
-/

namespace Aspectus

open Interaction

/--
The result of a statement or a call, errors carry the text they are displayed with.
-/
abbrev Result (α : Type) : Type := Except String α

/--
The columns `/login` selects.
-/
structure LoginRow where
  id : String
  tenantId : String
  passwordHash : String
  lockedUntil : Option Instant
  failedLoginAttempts : Int
  isSuspended : Bool

inductive UserOp where
  | selectLogin (tenantId email : String)
  | selectCredentials (tenantId email : String)
  | selectByEmail (tenantId email : String)
  | existsEmail (tenantId email : String)
  | isSuspended (id : String)
  | selectTenant (id : String)
  | selectTenantAndSuspended (id : String)
  | selectInfo (id : String)
  | getById (id : String)
  | insert (id tenantId email passwordHash : String) (displayName : Option String)
  | setSuspended (id : String) (suspended : Bool)
  | setPassword (id passwordHash : String)
  | recordFailedLogin (id : String) (threshold durationSecs : Int)
  | clearFailedLogins (id : String)
  | updateLastSignIn (id : String)

@[reducible]
def UserOp.Res : UserOp → Type
  | .selectLogin .. => Result (Option LoginRow)
  | .selectCredentials .. => Result (Option (String × String × String))
  | .selectByEmail .. => Result (Option (String × String))
  | .existsEmail .. => Result Bool
  | .isSuspended .. => Result Bool
  | .selectTenant .. => Result (Option String)
  | .selectTenantAndSuspended .. => Result (Option (String × Bool))
  | .selectInfo .. => Result (Option (String × Option String))
  | .getById .. => Result (Option User)
  | .insert .. => Result User
  | .setSuspended .. => Result Bool
  | .setPassword .. => Result Bool
  | .recordFailedLogin .. => Result (Int × Option Instant)
  | .clearFailedLogins .. => Result Bool
  | .updateLastSignIn .. => Result Unit

inductive TenantOp where
  | exists (id : String)
  | selectInfo (id : String)
  | getById (id : String)

@[reducible]
def TenantOp.Res : TenantOp → Type
  | .exists .. => Result Bool
  | .selectInfo .. => Result (Option (String × Option String))
  | .getById .. => Result (Option Tenant)

inductive RoleOp where
  | selectDefault
  | selectDefaults
  | assignDefault (id userId roleId : String)
  | selectScopes (userId : String)
  | countScopes (count : Nat) (names : List String)
  | assign (id userId roleId : String)
  | remove (userId roleId : String)
  | insert (id name : String) (description : Option String) (roleType : RoleType)
  | getById (id : String)
  | update (id : String) (description : Option String) (roleType : RoleType)
  /-- The statements of a transaction that write. -/
  | delete (id : String)
  | hasUsers (id : String)
  | selectUsers (id : String)
  | selectRoleScopes (id : String)
  | deleteScopes (id : String)
  | addScope (id roleId scopeId : String)
  | findScope (name : String)
  | insertScope (id name : String)

@[reducible]
def RoleOp.Res : RoleOp → Type
  | .selectDefault => Result (Option String)
  | .selectDefaults => Result (List String)
  | .assignDefault .. => Result Unit
  | .selectScopes .. => Result (List String)
  | .countScopes .. => Result Bool
  | .assign .. => Result Unit
  | .remove .. => Result Nat
  | .insert .. => Result Role
  | .getById .. => Result (Option Role)
  | .update .. => Result Role
  | .delete .. => Result Bool
  | .hasUsers .. => Result Bool
  | .selectUsers .. => Result (List String)
  | .selectRoleScopes .. => Result (List String)
  | .deleteScopes .. => Result Unit
  | .addScope .. => Result Unit
  | .findScope .. => Result (Option String)
  | .insertScope .. => Result Unit

inductive CodeOp where
  | createCode (code userId clientId redirectUri : String) (expiresAt : Instant)
  | setChallenge (challenge code : String)
  | exchangeCode (code : String)
  | selectChallenge (code : String)

@[reducible]
def CodeOp.Res : CodeOp → Type
  | .createCode .. => Result Unit
  | .setChallenge .. => Result Unit
  | .exchangeCode .. => Result (Option (String × String × String))
  | .selectChallenge .. => Result (Option (Option String))

inductive RefreshOp where
  | create (tokenHash userId clientId : String) (expiresAt : Instant)
  | rotate (tokenHash : String)
  | revokeAllForUser (userId : String)
  | findByHashAny (tokenHash : String)

@[reducible]
def RefreshOp.Res : RefreshOp → Type
  | .create .. => Result Unit
  | .rotate .. => Result (Option (String × String × String))
  | .revokeAllForUser .. => Result Nat
  | .findByHashAny .. => Result (Option (String × Bool))

inductive ClientOp where
  | create (clientId name : String) (redirectUris : List String) (clientSecretHash : String)
  | validateRedirectUri (clientId redirectUri : String)
  | selectSecretHash (clientId : String)

@[reducible]
def ClientOp.Res : ClientOp → Type
  | .create .. => Result Unit
  | .validateRedirectUri .. => Result Bool
  | .selectSecretHash .. => Result (Option (Option String))

inductive ResetOp where
  | insert (tokenHash userId : String) (expiresAt : Instant)
  | claim (tokenHash : String)

@[reducible]
def ResetOp.Res : ResetOp → Type
  | .insert .. => Result Unit
  | .claim .. => Result (Option String)

structure InsertApiKeyParams where
  id : String
  tenantId : String
  serviceAccountId : String
  project : Project
  keyHash : String
  keyPrefix : String
  scopes : List String
  expiresAt : Option Instant

/--
An API key as it is read from its row, the code expects it to have a service account.
-/
structure ApiKey where
  id : String
  tenantId : String
  serviceAccountId : String
  project : Project
  keyHash : String
  keyPrefix : String
  scopes : List String
  expiresAt : Option Instant
  revokedAt : Option Instant

inductive KeyOp where
  | insert (params : InsertApiKeyParams)
  | findByHash (keyHash : String)
  | findById (id : String)
  | revoke (id : String)
  | setUserOwner (userId id : String)
  | getServiceAccount (id : String)

@[reducible]
def KeyOp.Res : KeyOp → Type
  | .insert .. => Result ApiKey
  | .findByHash .. => Result (Option ApiKey)
  | .findById .. => Result (Option ApiKey)
  | .revoke .. => Result Bool
  | .setUserOwner .. => Result Unit
  | .getServiceAccount .. => Result (Option ServiceAccount)

/--
Stored metadata for a project service token.
-/
structure StoredServiceToken where
  project : Project
  tokenHash : String
  tokenPrefix : Option String
  createdAt : Instant
  updatedAt : Instant
  revokedAt : Option Instant

/--
Whether the token has not been soft-revoked.
-/
def StoredServiceToken.isActive (token : StoredServiceToken) : Bool :=
  token.revokedAt.isNone

inductive ServiceTokenOp where
  | findByHash (tokenHash : String)
  | list
  | getByProject (project : Project)
  | upsert (project : Project) (tokenHash tokenPrefix : String)
  | revoke (project : Project)
  /-- The statement that is executed when the service starts. -/
  | seedAdmin (tokenHash : String)

@[reducible]
def ServiceTokenOp.Res : ServiceTokenOp → Type
  | .findByHash .. => Result (Option StoredServiceToken)
  | .list => Result (List StoredServiceToken)
  | .getByProject .. => Result (Option StoredServiceToken)
  | .upsert .. => Result (Option String)
  | .revoke .. => Result Bool
  | .seedAdmin .. => Result Unit

/--
Redis commands. Their failures are not reported, a failed `GET` looks like a missing key. Only the
script of the rate limiters, which counts a request in a bucket, reports them.
-/
inductive CacheOp where
  | getJson (key : String)
  | setJson (key : String) (value : IntrospectResponse) (ttlSecs : Nat)
  | get (key : String)
  | set (key value : String) (ttlSecs : Nat)
  | del (key : String)
  | checkRate (key : String) (bucket : Nat) (maxRequests windowSecs : Int)

@[reducible]
def CacheOp.Res : CacheOp → Type
  | .getJson .. => Option IntrospectResponse
  | .setJson .. => Unit
  | .get .. => Option String
  | .set .. => Unit
  | .del .. => Unit
  | .checkRate .. => Result Int

/--
The clock, the random number generators, the fallible parts of the cryptography and the mailer.
-/
inductive HostOp where
  | now
  | random
  | generateId
  | hashPassword (password : String)
  | encodeJwt (claims : JwtClaims)
  | sendPasswordReset (email resetUrl : String)

@[reducible]
def HostOp.Res : HostOp → Type
  | .now => Instant
  | .random => Result (List UInt8)
  | .generateId => String
  | .hashPassword .. => Result String
  | .encodeJwt .. => Result String
  | .sendPasswordReset .. => Result Unit

inductive Op where
  | user (o : UserOp)
  | tenant (o : TenantOp)
  | role (o : RoleOp)
  | code (o : CodeOp)
  | refresh (o : RefreshOp)
  | client (o : ClientOp)
  | reset (o : ResetOp)
  | key (o : KeyOp)
  | serviceToken (o : ServiceTokenOp)
  | cache (o : CacheOp)
  | host (o : HostOp)
  | auditAppend (id : String) (entry : AuditLog)

@[reducible]
def Op.Res : Op → Type
  | .user o => o.Res
  | .tenant o => o.Res
  | .role o => o.Res
  | .code o => o.Res
  | .refresh o => o.Res
  | .client o => o.Res
  | .reset o => o.Res
  | .key o => o.Res
  | .serviceToken o => o.Res
  | .cache o => o.Res
  | .host o => o.Res
  | .auditAppend .. => Result Unit

/--
The interface between the handlers and the rest of the world.
-/
abbrev Api : Signature where
  Op := Op
  Res := Op.Res

abbrev App (α : Type) : Type := Prog Api α

namespace App

def user (o : UserOp) : App o.Res := Prog.perform (S := Api) (.user o)

def tenant (o : TenantOp) : App o.Res := Prog.perform (S := Api) (.tenant o)

def role (o : RoleOp) : App o.Res := Prog.perform (S := Api) (.role o)

def code (o : CodeOp) : App o.Res := Prog.perform (S := Api) (.code o)

def refresh (o : RefreshOp) : App o.Res := Prog.perform (S := Api) (.refresh o)

def client (o : ClientOp) : App o.Res := Prog.perform (S := Api) (.client o)

def reset (o : ResetOp) : App o.Res := Prog.perform (S := Api) (.reset o)

def key (o : KeyOp) : App o.Res := Prog.perform (S := Api) (.key o)

def serviceToken (o : ServiceTokenOp) : App o.Res :=
  Prog.perform (S := Api) (.serviceToken o)

def cache (o : CacheOp) : App o.Res := Prog.perform (S := Api) (.cache o)

def host (o : HostOp) : App o.Res := Prog.perform (S := Api) (.host o)

def auditAppend (id : String) (entry : AuditLog) : App (Result Unit) :=
  Prog.perform (S := Api) (.auditAppend id entry)

end App

section Succeeded

/-!
All statements answer with a `Result`, which tells whether they succeeded.
-/

def UserOp.succeeded (o : UserOp) : o.Res → Bool := by
  cases o <;> exact Except.isOk

def TenantOp.succeeded (o : TenantOp) : o.Res → Bool := by
  cases o <;> exact Except.isOk

def RoleOp.succeeded (o : RoleOp) : o.Res → Bool := by
  cases o <;> exact Except.isOk

def CodeOp.succeeded (o : CodeOp) : o.Res → Bool := by
  cases o <;> exact Except.isOk

def RefreshOp.succeeded (o : RefreshOp) : o.Res → Bool := by
  cases o <;> exact Except.isOk

def ClientOp.succeeded (o : ClientOp) : o.Res → Bool := by
  cases o <;> exact Except.isOk

def ResetOp.succeeded (o : ResetOp) : o.Res → Bool := by
  cases o <;> exact Except.isOk

def KeyOp.succeeded (o : KeyOp) : o.Res → Bool := by
  cases o <;> exact Except.isOk

def ServiceTokenOp.succeeded (o : ServiceTokenOp) : o.Res → Bool := by
  cases o <;> exact Except.isOk

/--
Whether a statement succeeded. The handlers do not notice whether an event was recorded, and the failure of
a Redis command does not show in its answer.
-/
def Op.succeeded : (o : Op) → o.Res → Bool
  | .user o, r => o.succeeded r
  | .tenant o, r => o.succeeded r
  | .role o, r => o.succeeded r
  | .code o, r => o.succeeded r
  | .refresh o, r => o.succeeded r
  | .client o, r => o.succeeded r
  | .reset o, r => o.succeeded r
  | .key o, r => o.succeeded r
  | .serviceToken o, r => o.succeeded r
  | .cache _, _ => true
  | .host _, _ => true
  | .auditAppend .., _ => true

end Succeeded

end Aspectus
