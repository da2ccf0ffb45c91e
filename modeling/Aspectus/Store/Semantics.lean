import Aspectus.Data.Binary64
import Aspectus.Store.Statement

/-!
This module contains the semantics of the operations: the SQL statements with their parameters, the
Redis commands, and the calls to the host.
-/

namespace Aspectus

open Interaction Statement

def UserOp.exec (d : Draw) (s : Server) : (o : UserOp) → o.Res × Server
  | .selectLogin tenantId email => query d [tenantId, email] (Statement.selectLogin tenantId email) s
  | .selectCredentials tenantId email =>
    query d [tenantId, email] (Statement.selectCredentials tenantId email) s
  | .selectByEmail tenantId email =>
    query d [tenantId, email] (Statement.selectByEmail tenantId email) s
  | .existsEmail tenantId email => query d [tenantId, email] (Statement.existsEmail tenantId email) s
  | .isSuspended id => query d [id] (Statement.isSuspended id) s
  | .selectTenant id => query d [id] (Statement.selectTenant id) s
  | .selectTenantAndSuspended id => query d [id] (Statement.selectTenantAndSuspended id) s
  | .selectInfo id => query d [id] (selectUserInfo id) s
  | .getById id => query d [id] (fun s => .ok (s.users.lookup id)) s
  | .insert id tenantId email passwordHash displayName =>
    run d ([id, tenantId, email, passwordHash] ++ displayName.toList)
      (insertUser id tenantId email passwordHash displayName) s
  | .setSuspended id suspended =>
    run d [id] (updateUserCounted id fun u => { u with isSuspended := suspended }) s
  | .setPassword id passwordHash =>
    run d [passwordHash, id] (updateUserCounted id fun u => { u with passwordHash := some passwordHash }) s
  | .recordFailedLogin id threshold durationSecs =>
    run d [id] (Statement.recordFailedLogin id threshold durationSecs) s
  | .clearFailedLogins id =>
    run d [id] (updateUserCounted id fun u =>
      { u with failedLoginAttempts := 0, lockedUntil := none }) s
  | .updateLastSignIn id =>
    run d [id] (fun s => .ok ((), updateUser id (fun u => { u with lastSignInAt := some s.now }) s)) s

def TenantOp.exec (d : Draw) (s : Server) : (o : TenantOp) → o.Res × Server
  | .exists id => query d [id] (fun s => .ok (s.tenants.lookup id).isSome) s
  | .selectInfo id =>
    query d [id] (fun s => .ok ((s.tenants.lookup id).map fun t => (t.name, t.logoUrl))) s
  | .getById id => query d [id] (fun s => .ok (s.tenants.lookup id)) s

def RoleOp.exec (cfg : Config) (d : Draw) (s : Server) : (o : RoleOp) → o.Res × Server
  | .selectDefault => query d [] (selectDefaultRole d.pick) s
  | .selectDefaults => query d [] selectDefaultRoles s
  | .assignDefault id userId roleId =>
    run d [id, userId, roleId] (assignDefaultRole id userId roleId) s
  | .selectScopes userId => query d [userId] (Statement.selectScopes cfg.collation userId) s
  | .countScopes count names => query d names (Statement.countScopes count names) s
  | .assign id userId roleId => run d [id, userId, roleId] (assignRole id userId roleId) s
  | .remove userId roleId => run d [userId, roleId] (removeRole userId roleId) s
  | .insert id name description roleType =>
    run d ([id, name] ++ description.toList) (insertRole id name description roleType) s
  | .getById id => query d [id] (fun s => .ok (s.roles.lookup id)) s
  | .update id description roleType =>
    run d (description.toList ++ [id]) (updateRole id description roleType) s
  | .delete id => run d [id] (deleteRole id) s
  | .hasUsers id => query d [id] (fun s => .ok !(roleUsers id s).isEmpty) s
  | .selectUsers id => query d [id] (fun s => .ok (roleUsers id s)) s
  | .selectRoleScopes id => query d [id] (Statement.selectRoleScopes cfg.collation id) s
  | .deleteScopes id => run d [id] (fun s => .ok ((), deleteRoleScopes id s)) s
  | .addScope id roleId scopeId => run d [id, roleId, scopeId] (addRoleScope id roleId scopeId) s
  | .findScope name => query d [name] (Statement.findScope name) s
  | .insertScope id name => run d [id, name] (Statement.insertScope id name) s

def CodeOp.exec (d : Draw) (s : Server) : (o : CodeOp) → o.Res × Server
  | .createCode code userId clientId redirectUri expiresAt =>
    run d [code, userId, clientId, redirectUri]
      (Statement.createCode code userId clientId redirectUri expiresAt) s
  | .setChallenge challenge code => run d [challenge, code] (Statement.setChallenge challenge code) s
  | .exchangeCode code => run d [code] (Statement.exchangeCode code) s
  | .selectChallenge code => query d [code] (Statement.selectChallenge code) s

def RefreshOp.exec (d : Draw) (s : Server) : (o : RefreshOp) → o.Res × Server
  | .create tokenHash userId clientId expiresAt =>
    run d [tokenHash, userId, clientId] (createRefreshToken tokenHash userId clientId expiresAt) s
  | .rotate tokenHash => run d [tokenHash] (Statement.rotate tokenHash) s
  | .revokeAllForUser userId => run d [userId] (Statement.revokeAllForUser userId) s
  | .findByHashAny tokenHash => query d [tokenHash] (Statement.findByHashAny tokenHash) s

def ClientOp.exec (d : Draw) (s : Server) : (o : ClientOp) → o.Res × Server
  | .create clientId name redirectUris clientSecretHash =>
    run d ([clientId, name, clientSecretHash] ++ redirectUris)
      (Statement.createClient clientId name redirectUris clientSecretHash) s
  | .validateRedirectUri clientId redirectUri =>
    query d [clientId, redirectUri] (Statement.validateRedirectUri clientId redirectUri) s
  | .selectSecretHash clientId => query d [clientId] (Statement.selectSecretHash clientId) s

def ResetOp.exec (d : Draw) (s : Server) : (o : ResetOp) → o.Res × Server
  | .insert tokenHash userId expiresAt =>
    run d [tokenHash, userId] (insertResetToken tokenHash userId expiresAt) s
  | .claim tokenHash => run d [tokenHash] (claimResetToken tokenHash) s

def KeyOp.exec (d : Draw) (s : Server) : (o : KeyOp) → o.Res × Server
  | .insert params =>
    run d ([params.id, params.tenantId, params.serviceAccountId, params.keyHash, params.keyPrefix]
      ++ params.scopes) (insertApiKey params) s
  | .findByHash keyHash => query d [keyHash] (Statement.findByHash keyHash) s
  | .findById id => query d [id] (Statement.findById id) s
  | .revoke id => run d [id] (Statement.revokeApiKey id) s
  | .setUserOwner userId id => run d [userId, id] (Statement.setUserOwner userId id) s
  | .getServiceAccount id => query d [id] (Statement.getServiceAccount id) s

def ServiceTokenOp.exec (cfg : Config) (d : Draw) (s : Server) : (o : ServiceTokenOp) → o.Res × Server
  | .findByHash tokenHash => query d [tokenHash] (findServiceTokenByHash d.pick tokenHash) s
  | .list => query d [] (listServiceTokens cfg.collation) s
  | .getByProject project => query d [project.toString] (getServiceToken project) s
  | .upsert project tokenHash tokenPrefix =>
    run d [project.toString, tokenHash, tokenPrefix]
      (upsertServiceToken project tokenHash tokenPrefix) s
  | .revoke project => run d [project.toString] (revokeServiceToken project) s
  | .seedAdmin tokenHash => run d [tokenHash] (seedAdminToken tokenHash) s

/--
`SETEX`, Redis refuses a time to live of 0.
-/
def Server.setEx (s : Server) (key : String) (value : CacheValue) (ttlSecs : Nat) : Server :=
  if ttlSecs = 0 then
    s
  else
    { s with
      redis := Function.update s.redis key (some ⟨value, some (s.now + Instant.seconds ttlSecs)⟩) }

def Server.del (s : Server) (key : String) : Server :=
  { s with redis := Function.update s.redis key none }

/--
The key of a bucket, which is a window of time.
-/
def rateLimitKey (key : String) (bucket : Nat) : String :=
  "aspectus:rate_limit:" ++ key ++ ":" ++ toString bucket

/--
What a command or a script answers, and what it leaves under its key.
-/
abbrev Redis (α : Type) : Type :=
  Result α × Option CacheEntry

namespace Redis

/--
`INCR`, which keeps the deadline of a key and makes a key without one.
-/
def incr (now : Instant) (slot : Option CacheEntry) : Redis Int :=
  match slot.filter fun entry => entry.live now with
  | none => (.ok 1, some ⟨.counter 1, none⟩)
  | some ⟨.counter n, deadline⟩ =>
    if n < 9223372036854775807 then
      (.ok (n + 1), some ⟨.counter (n + 1), deadline⟩)
    else
      (.error "ERR increment or decrement would overflow", slot)
  | some _ => (.error "ERR value is not an integer or out of range", slot)

/--
Whether a key can be given a time to live: in milliseconds, and added to the clock, it must not overflow.
-/
def expirable (now : Instant) (ttlSecs : Int) : Bool :=
  -9223372036854775 ≤ ttlSecs && ttlSecs ≤ 9223372036854775
    && ttlSecs * 1000 ≤ 9223372036854775807 - now / 1000

/--
`EXPIRE`, which deletes a key whose time is over at once.
-/
def expire (now : Instant) (ttlSecs : Int) (slot : Option CacheEntry) : Redis Unit :=
  if !expirable now ttlSecs then
    (.error "ERR invalid expire time in 'expire' command", slot)
  else if ttlSecs ≤ 0 then
    (.ok (), none)
  else
    (.ok (), slot.map fun entry => { entry with deadline := some (now + Instant.seconds ttlSecs) })

/--
The script of the rate limiter. If a command fails the script ends, and what was done before stays.
-/
def rateLimit (now : Instant) (maxRequests windowSecs : Int) (slot : Option CacheEntry) : Redis Int :=
  -- The numbers of a script are doubles.
  let max := Binary64.round maxRequests
  let ttl := Binary64.round windowSecs
  match incr now slot with
  | (.error e, slot) => (.error e, slot)
  | (.ok n, slot) =>
    let current := Binary64.round n
    match if current = 1 then expire now ttl slot else (.ok (), slot) with
    | (.error e, slot) => (.error e, slot)
    | (.ok (), slot) => (.ok (if max < current then 0 else 1), slot)

end Redis

def CacheOp.exec (d : Draw) (s : Server) : (o : CacheOp) → o.Res × Server
  | .getJson key =>
    match d.fault, s.cached key with
    | none, some (.response r) => (some r, s)
    | _, _ => (none, s)
  | .get key =>
    match d.fault, s.cached key with
    | none, some (.text t) => (some t, s)
    | _, _ => (none, s)
  | .setJson key value ttlSecs =>
    match d.fault with
    | some _ => ((), s)
    | none => ((), s.setEx key (.response value) ttlSecs)
  | .set key value ttlSecs =>
    match d.fault with
    | some _ => ((), s)
    | none => ((), s.setEx key (.text value) ttlSecs)
  | .del key =>
    match d.fault with
    | some _ => ((), s)
    | none => ((), s.del key)
  | .checkRate key bucket maxRequests windowSecs =>
    match d.fault with
    | some e => (.error e, s)
    | none =>
      let (answer, slot) := Redis.rateLimit s.now maxRequests windowSecs (s.redis (rateLimitKey key bucket))
      (answer, { s with redis := Function.update s.redis (rateLimitKey key bucket) slot })

def Draw.host {α : Type} (d : Draw) (a : α) : Result α :=
  match d.hostFault with
  | some e => .error e
  | none => .ok a

def HostOp.exec (cfg : Config) (d : Draw) (s : Server) : (o : HostOp) → o.Res × Server
  | .now => (s.now, s)
  | .random => (d.host d.bytes.toList, s)
  | .generateId => (d.id, s)
  | .hashPassword password => (d.host (cfg.hashPassword d.salt password), s)
  | .encodeJwt claims => (d.host (cfg.encodeJwt claims), s)
  | .sendPasswordReset .. => (d.host (), s)

def Op.exec (cfg : Config) (o : Op) (d : Draw) (s : Server) : o.Res × Server :=
  match o with
  | .user o => o.exec d s
  | .tenant o => o.exec d s
  | .role o => o.exec cfg d s
  | .code o => o.exec d s
  | .refresh o => o.exec d s
  | .client o => o.exec d s
  | .reset o => o.exec d s
  | .key o => o.exec d s
  | .serviceToken o => o.exec cfg d s
  | .cache o => o.exec d s
  | .host o => o.exec cfg d s
  | .auditAppend id entry =>
    run d [id, entry.tenantId, entry.actorId, entry.action, entry.targetType, entry.targetId]
      (appendAudit id entry) s

/--
No statement and no Redis command fails.
-/
def Healthy (draws : Nat → Draw) : Prop :=
  ∀ n, (draws n).fault = none

/--
Let `n` microseconds pass.
-/
def Server.advance (n : Nat) (s : Server) : Server :=
  { s with now := s.now + n }

theorem Server.advance_zero (s : Server) : s.advance 0 = s := by
  unfold Server.advance
  rw [Int.ofNat_zero, Int.add_zero]

def semantics (cfg : Config) : Semantics Api Server Draw where
  exec := Op.exec cfg
  advance := Server.advance

end Aspectus
