import Aspectus.Store.Spec

/-!
This module contains what the operations leave alone: every table is only written by the statements
of its own group, and the cache only by Redis commands.
-/

namespace Aspectus

open Interaction Statement

section Run

variable {α : Type} {d : Draw} {params : List String} {s : Server}

/--
What holds of the state before a statement and of every state a successful statement may leave
holds of the state after it.
-/
theorem run_store {P : Server → Prop} {f : Server → Result (α × Server)} (hs : P s)
    (hf : ∀ a s', f s = .ok (a, s') → P s') : P (Statement.run d params f s).2 := by
  rcases run_cases d params f s with ⟨e, hrun⟩ | ⟨a, s', _, _, hok, hrun⟩
  . rw [hrun]
    exact hs
  . rw [hrun]
    exact hf a s' hok

theorem query_keeps {P : Server → Prop} {f : Server → Result α} (hs : P s) :
    P (query d params f s).2 := by
  rw [query_store]
  exact hs

end Run

/--
The state `s'` has the form that `set` describes.
-/
def Only {α : Type} (set : α → Server) (s' : Server) : Prop :=
  ∃ a, s' = set a

section Groups

variable (d : Draw) (s : Server)

theorem UserOp.exec_frame (o : UserOp) : Only (fun users => { s with users := users }) (o.exec d s).2 := by
  have hs : Only (fun users => { s with users := users }) s := ⟨s.users, rfl⟩
  cases o with
  | insert id tenantId email passwordHash displayName =>
    apply run_store hs
    intro _ s' h
    rcases insertUser_ok h with ⟨u, users, husers, rfl, _⟩
    exact ⟨users, rfl⟩
  | recordFailedLogin id threshold durationSecs =>
    apply run_store hs
    intro _ s' h
    rcases recordFailedLogin_ok h with ⟨_, _, rfl⟩
    exact ⟨_, rfl⟩
  | setSuspended id suspended => exact run_store hs fun _ s' h => by cases h; exact ⟨_, rfl⟩
  | setPassword id passwordHash => exact run_store hs fun _ s' h => by cases h; exact ⟨_, rfl⟩
  | clearFailedLogins id => exact run_store hs fun _ s' h => by cases h; exact ⟨_, rfl⟩
  | updateLastSignIn id => exact run_store hs fun _ s' h => by cases h; exact ⟨_, rfl⟩
  | _ => exact ⟨s.users, query_store _⟩

theorem TenantOp.exec_store (o : TenantOp) : (o.exec d s).2 = s := by
  cases o with
  | _ => apply query_store

/--
A state with the tables that say which scopes a user has.
-/
def withRoles (s : Server)
    (tables : Table String Role × Table String Scope × Table String RoleScope × Table String UserRole) :
    Server :=
  { s with
    roles := tables.1
    scopes := tables.2.1
    rolesScopes := tables.2.2.1
    usersRoles := tables.2.2.2 }

theorem RoleOp.exec_frame (cfg : Config) (o : RoleOp) : Only (withRoles s) (o.exec cfg d s).2 := by
  have hs : Only (withRoles s) s := ⟨⟨s.roles, s.scopes, s.rolesScopes, s.usersRoles⟩, rfl⟩
  cases o with
  | assignDefault id userId roleId =>
    apply run_store hs
    intro _ s' h
    rcases assignDefaultRole_ok h with ⟨rfl, _⟩ | ⟨_, _, _, usersRoles, _, rfl⟩
    . exact hs
    . exact ⟨⟨s.roles, s.scopes, s.rolesScopes, usersRoles⟩, rfl⟩
  | assign id userId roleId =>
    apply run_store hs
    intro _ s' h
    rcases assignRole_ok h with ⟨_, _, _, usersRoles, _, rfl⟩
    exact ⟨⟨s.roles, s.scopes, s.rolesScopes, usersRoles⟩, rfl⟩
  | remove userId roleId =>
    apply run_store hs
    intro _ s' h
    cases h
    exact ⟨⟨s.roles, s.scopes, s.rolesScopes, _⟩, rfl⟩
  | insert id name description roleType =>
    apply run_store hs
    intro _ s' h
    rcases insertRole_ok h with ⟨_, roles, _, rfl⟩
    exact ⟨⟨roles, s.scopes, s.rolesScopes, s.usersRoles⟩, rfl⟩
  | update id description roleType =>
    apply run_store hs
    intro _ s' h
    rcases updateRole_ok h with ⟨_, _, _, _, rfl⟩
    exact ⟨⟨_, s.scopes, s.rolesScopes, s.usersRoles⟩, rfl⟩
  | delete id =>
    apply run_store hs
    intro _ s' h
    rcases deleteRole_ok h with ⟨_, rfl, _⟩ | ⟨_, _, rfl⟩
    . exact hs
    . exact ⟨⟨_, s.scopes, _, s.usersRoles⟩, rfl⟩
  | deleteScopes id =>
    apply run_store hs
    intro _ s' h
    cases h
    exact ⟨⟨s.roles, s.scopes, _, s.usersRoles⟩, rfl⟩
  | addScope id roleId scopeId =>
    apply run_store hs
    intro _ s' h
    rcases addRoleScope_ok h with ⟨rfl, _⟩ | ⟨_, _, _, rolesScopes, _, rfl⟩
    . exact hs
    . exact ⟨⟨s.roles, s.scopes, rolesScopes, s.usersRoles⟩, rfl⟩
  | insertScope id name =>
    apply run_store hs
    intro _ s' h
    rcases insertScope_ok h with ⟨_, scopes, _, _, _, rfl⟩
    exact ⟨⟨s.roles, scopes, s.rolesScopes, s.usersRoles⟩, rfl⟩
  | _ => exact ⟨⟨s.roles, s.scopes, s.rolesScopes, s.usersRoles⟩, query_store _⟩

theorem CodeOp.exec_frame (o : CodeOp) :
    Only (fun codes => { s with authorizationCodes := codes }) (o.exec d s).2 := by
  have hs : Only (fun codes => { s with authorizationCodes := codes }) s := ⟨s.authorizationCodes, rfl⟩
  cases o with
  | createCode code userId clientId redirectUri expiresAt =>
    apply run_store hs
    intro _ s' h
    rcases createCode_ok h with ⟨codes, _, rfl⟩
    exact ⟨codes, rfl⟩
  | setChallenge challenge code =>
    apply run_store hs
    intro _ s' h
    rcases setChallenge_ok h with ⟨_, rfl⟩ | ⟨stored, _, rfl⟩
    . exact hs
    . exact ⟨_, rfl⟩
  | exchangeCode code =>
    apply run_store hs
    intro _ s' h
    rcases exchangeCode_ok h with ⟨_, rfl⟩ | ⟨c, _, _, _, rfl⟩
    . exact hs
    . exact ⟨_, rfl⟩
  | selectChallenge code => exact ⟨s.authorizationCodes, query_store _⟩

theorem RefreshOp.exec_frame (o : RefreshOp) :
    Only (fun tokens => { s with refreshTokens := tokens }) (o.exec d s).2 := by
  have hs : Only (fun tokens => { s with refreshTokens := tokens }) s := ⟨s.refreshTokens, rfl⟩
  cases o with
  | create tokenHash userId clientId expiresAt =>
    apply run_store hs
    intro _ s' h
    rcases createRefreshToken_ok h with ⟨tokens, _, rfl⟩
    exact ⟨tokens, rfl⟩
  | rotate tokenHash =>
    apply run_store hs
    intro _ s' h
    rcases rotate_ok h with ⟨_, rfl, _⟩ | ⟨t, _, _, _, rfl⟩
    . exact hs
    . exact ⟨_, rfl⟩
  | revokeAllForUser userId => exact run_store hs fun _ s' h => by cases h; exact ⟨_, rfl⟩
  | findByHashAny tokenHash => exact ⟨s.refreshTokens, query_store _⟩

theorem ClientOp.exec_frame (o : ClientOp) :
    Only (fun clients => { s with oauth2Clients := clients }) (o.exec d s).2 := by
  have hs : Only (fun clients => { s with oauth2Clients := clients }) s := ⟨s.oauth2Clients, rfl⟩
  cases o with
  | create clientId name redirectUris clientSecretHash =>
    apply run_store hs
    intro _ s' h
    rcases createClient_ok h with ⟨c, clients, _, rfl⟩
    exact ⟨clients, rfl⟩
  | _ => exact ⟨s.oauth2Clients, query_store _⟩

theorem ResetOp.exec_frame (o : ResetOp) :
    Only (fun tokens => { s with passwordResetTokens := tokens }) (o.exec d s).2 := by
  have hs : Only (fun tokens => { s with passwordResetTokens := tokens }) s := ⟨s.passwordResetTokens, rfl⟩
  cases o with
  | insert tokenHash userId expiresAt =>
    apply run_store hs
    intro _ s' h
    rcases insertResetToken_ok h with ⟨tokens, _, rfl⟩
    exact ⟨tokens, rfl⟩
  | claim tokenHash =>
    apply run_store hs
    intro _ s' h
    rcases claimResetToken_ok h with ⟨_, rfl⟩ | ⟨t, _, _, rfl⟩
    . exact hs
    . exact ⟨_, rfl⟩

theorem KeyOp.exec_frame (o : KeyOp) :
    Only (fun apiKeys => { s with apiKeys := apiKeys }) (o.exec d s).2 := by
  have hs : Only (fun apiKeys => { s with apiKeys := apiKeys }) s := ⟨s.apiKeys, rfl⟩
  cases o with
  | insert params =>
    apply run_store hs
    intro _ s' h
    rcases insertApiKey_ok h with ⟨row, apiKeys, _, rfl, _⟩
    exact ⟨apiKeys, rfl⟩
  | revoke id =>
    apply run_store hs
    intro _ s' h
    rcases revokeApiKey_ok h with ⟨_, rfl, _⟩ | ⟨_, rfl, _⟩
    . exact hs
    . exact ⟨_, rfl⟩
  | setUserOwner userId id =>
    apply run_store hs
    intro _ s' h
    rcases setUserOwner_ok h with rfl | rfl
    . exact hs
    . exact ⟨_, rfl⟩
  | _ => exact ⟨s.apiKeys, query_store _⟩

theorem ServiceTokenOp.exec_frame (cfg : Config) (o : ServiceTokenOp) :
    Only (fun tokens => { s with serviceTokens := tokens }) (o.exec cfg d s).2 := by
  have hs : Only (fun tokens => { s with serviceTokens := tokens }) s := ⟨s.serviceTokens, rfl⟩
  cases o with
  | upsert project tokenHash tokenPrefix =>
    exact run_store hs fun _ s' h => by cases h; exact ⟨_, rfl⟩
  | revoke project =>
    apply run_store hs
    intro _ s' h
    rcases revokeServiceToken_ok h with ⟨_, rfl, _⟩ | ⟨_, rfl, _⟩
    . exact hs
    . exact ⟨_, rfl⟩
  | seedAdmin tokenHash => exact run_store hs fun _ s' h => by cases h; exact ⟨_, rfl⟩
  | _ => exact ⟨s.serviceTokens, query_store _⟩

theorem CacheOp.exec_frame (o : CacheOp) :
    Only (fun redis => { s with redis := redis }) (o.exec d s).2 := by
  have hset : ∀ key value ttlSecs,
      Only (fun redis => { s with redis := redis }) (s.setEx key value ttlSecs) := by
    intro key value ttlSecs
    unfold Server.setEx
    split
    . exact ⟨s.redis, rfl⟩
    . exact ⟨_, rfl⟩
  cases o with
  | getJson key =>
    unfold CacheOp.exec
    dsimp
    split <;> exact ⟨s.redis, rfl⟩
  | get key =>
    unfold CacheOp.exec
    dsimp
    split <;> exact ⟨s.redis, rfl⟩
  | setJson key value ttlSecs =>
    unfold CacheOp.exec
    dsimp
    split
    . exact ⟨s.redis, rfl⟩
    . apply hset
  | set key value ttlSecs =>
    unfold CacheOp.exec
    dsimp
    split
    . exact ⟨s.redis, rfl⟩
    . apply hset
  | del key =>
    unfold CacheOp.exec
    dsimp
    split
    . exact ⟨s.redis, rfl⟩
    . exact ⟨_, rfl⟩
  | checkRate key bucket maxRequests windowSecs =>
    unfold CacheOp.exec
    dsimp
    split
    . exact ⟨s.redis, rfl⟩
    . exact ⟨_, rfl⟩

theorem HostOp.exec_store (cfg : Config) (o : HostOp) : (o.exec cfg d s).2 = s := by
  cases o with
  | _ => rfl

theorem auditAppend_frame (cfg : Config) (id : String) (entry : AuditLog) :
    Only (fun auditLogs => { s with auditLogs := auditLogs }) ((Op.auditAppend id entry).exec cfg d s).2 := by
  apply run_store (P := Only fun auditLogs => { s with auditLogs := auditLogs }) ⟨s.auditLogs, rfl⟩
  intro _ s' h
  exact appendAudit_ok h

end Groups

/--
Which parts of the state `s` the operation `o` leaves as they are in `s'`.
-/
structure Op.Framed (o : Op) (s s' : Server) : Prop where
  now : s'.now = s.now
  tenants : s'.tenants = s.tenants
  serviceAccounts : s'.serviceAccounts = s.serviceAccounts
  users : (∀ o', o ≠ .user o') → s'.users = s.users
  roles : (∀ o', o ≠ .role o') → s'.roles = s.roles
  scopes : (∀ o', o ≠ .role o') → s'.scopes = s.scopes
  rolesScopes : (∀ o', o ≠ .role o') → s'.rolesScopes = s.rolesScopes
  usersRoles : (∀ o', o ≠ .role o') → s'.usersRoles = s.usersRoles
  clients : (∀ o', o ≠ .client o') → s'.oauth2Clients = s.oauth2Clients
  codes : (∀ o', o ≠ .code o') → s'.authorizationCodes = s.authorizationCodes
  refreshTokens : (∀ o', o ≠ .refresh o') → s'.refreshTokens = s.refreshTokens
  resetTokens : (∀ o', o ≠ .reset o') → s'.passwordResetTokens = s.passwordResetTokens
  apiKeys : (∀ o', o ≠ .key o') → s'.apiKeys = s.apiKeys
  serviceTokens : (∀ o', o ≠ .serviceToken o') → s'.serviceTokens = s.serviceTokens
  redis : (∀ o', o ≠ .cache o') → s'.redis = s.redis

theorem Op.exec_framed (cfg : Config) (d : Draw) (s : Server) (o : Op) :
    Framed o s (o.exec cfg d s).2 := by
  -- The group an operation belongs to decides which table it may write.
  have hgroup : ∃ s', (o.exec cfg d s).2 = s' ∧ Framed o s s' := by
    cases o with
    | user o =>
      rcases UserOp.exec_frame d s o with ⟨_, h⟩
      exact ⟨_, h, by constructor <;> first | rfl | intro ho; first | rfl | exact absurd rfl (ho _)⟩
    | tenant o =>
      refine ⟨s, TenantOp.exec_store d s o, ?_⟩
      constructor <;> first | rfl | intro ho; rfl
    | role o =>
      rcases RoleOp.exec_frame d s cfg o with ⟨_, h⟩
      exact ⟨_, h, by constructor <;> first | rfl | intro ho; first | rfl | exact absurd rfl (ho _)⟩
    | code o =>
      rcases CodeOp.exec_frame d s o with ⟨_, h⟩
      exact ⟨_, h, by constructor <;> first | rfl | intro ho; first | rfl | exact absurd rfl (ho _)⟩
    | refresh o =>
      rcases RefreshOp.exec_frame d s o with ⟨_, h⟩
      exact ⟨_, h, by constructor <;> first | rfl | intro ho; first | rfl | exact absurd rfl (ho _)⟩
    | client o =>
      rcases ClientOp.exec_frame d s o with ⟨_, h⟩
      exact ⟨_, h, by constructor <;> first | rfl | intro ho; first | rfl | exact absurd rfl (ho _)⟩
    | reset o =>
      rcases ResetOp.exec_frame d s o with ⟨_, h⟩
      exact ⟨_, h, by constructor <;> first | rfl | intro ho; first | rfl | exact absurd rfl (ho _)⟩
    | key o =>
      rcases KeyOp.exec_frame d s o with ⟨_, h⟩
      exact ⟨_, h, by constructor <;> first | rfl | intro ho; first | rfl | exact absurd rfl (ho _)⟩
    | serviceToken o =>
      rcases ServiceTokenOp.exec_frame d s cfg o with ⟨_, h⟩
      exact ⟨_, h, by constructor <;> first | rfl | intro ho; first | rfl | exact absurd rfl (ho _)⟩
    | cache o =>
      rcases CacheOp.exec_frame d s o with ⟨_, h⟩
      exact ⟨_, h, by constructor <;> first | rfl | intro ho; first | rfl | exact absurd rfl (ho _)⟩
    | host o =>
      refine ⟨s, HostOp.exec_store d s cfg o, ?_⟩
      constructor <;> first | rfl | intro ho; rfl
    | auditAppend id entry =>
      rcases auditAppend_frame d s cfg id entry with ⟨_, h⟩
      exact ⟨_, h, by constructor <;> first | rfl | intro ho; rfl⟩
  rcases hgroup with ⟨s', hs', hframed⟩
  rw [hs']
  exact hframed

end Aspectus
