import Aspectus.Store.Frame

/-!
This module contains how the state of the service may evolve: no operation ever removes a row of
the tables below, most of their columns never change, used codes stay used, and what was revoked
stays revoked.
-/

namespace Aspectus

open Interaction Statement

structure User.Kept (u u' : User) : Prop where
  tenantId : u'.tenantId = u.tenantId
  email : u'.email = u.email

structure AuthorizationCode.Kept (c c' : AuthorizationCode) : Prop where
  userId : c'.userId = c.userId
  clientId : c'.clientId = c.clientId
  redirectUri : c'.redirectUri = c.redirectUri
  expiresAt : c'.expiresAt = c.expiresAt
  used : c.used = true → c'.used = true

structure RefreshToken.Kept (t t' : RefreshToken) : Prop where
  userId : t'.userId = t.userId
  clientId : t'.clientId = t.clientId
  expiresAt : t'.expiresAt = t.expiresAt
  revokedAt : ∀ at_, t.revokedAt = some at_ → t'.revokedAt = some at_

structure ApiKeyRow.Kept (k k' : ApiKeyRow) : Prop where
  tenantId : k'.tenantId = k.tenantId
  serviceAccountId : k.serviceAccountId = none → k'.serviceAccountId = none
  project : k'.project = k.project
  keyHash : k'.keyHash = k.keyHash
  scopes : k'.scopes = k.scopes
  expiresAt : k'.expiresAt = k.expiresAt
  revokedAt : ∀ at_, k.revokedAt = some at_ → k'.revokedAt = some at_

theorem User.Kept.refl (u : User) : u.Kept u :=
  ⟨rfl, rfl⟩

theorem User.Kept.trans {a b c : User} (h : a.Kept b) (h' : b.Kept c) : a.Kept c :=
  ⟨h'.tenantId.trans h.tenantId, h'.email.trans h.email⟩

theorem AuthorizationCode.Kept.refl (c : AuthorizationCode) : c.Kept c :=
  ⟨rfl, rfl, rfl, rfl, id⟩

theorem AuthorizationCode.Kept.trans {a b c : AuthorizationCode} (h : a.Kept b) (h' : b.Kept c) :
    a.Kept c :=
  ⟨h'.userId.trans h.userId, h'.clientId.trans h.clientId, h'.redirectUri.trans h.redirectUri,
    h'.expiresAt.trans h.expiresAt, h'.used ∘ h.used⟩

theorem RefreshToken.Kept.refl (t : RefreshToken) : t.Kept t :=
  ⟨rfl, rfl, rfl, fun _ => id⟩

theorem RefreshToken.Kept.trans {a b c : RefreshToken} (h : a.Kept b) (h' : b.Kept c) : a.Kept c :=
  ⟨h'.userId.trans h.userId, h'.clientId.trans h.clientId, h'.expiresAt.trans h.expiresAt,
    fun at_ => h'.revokedAt at_ ∘ h.revokedAt at_⟩

theorem ApiKeyRow.Kept.refl (k : ApiKeyRow) : k.Kept k :=
  ⟨rfl, id, rfl, rfl, rfl, rfl, fun _ => id⟩

theorem ApiKeyRow.Kept.trans {a b c : ApiKeyRow} (h : a.Kept b) (h' : b.Kept c) : a.Kept c :=
  ⟨h'.tenantId.trans h.tenantId, h'.serviceAccountId ∘ h.serviceAccountId,
    h'.project.trans h.project, h'.keyHash.trans h.keyHash, h'.scopes.trans h.scopes,
    h'.expiresAt.trans h.expiresAt, fun at_ => h'.revokedAt at_ ∘ h.revokedAt at_⟩

/--
`s'` may be a later state of the service than `s`.
-/
structure Evolves (s s' : Server) : Prop where
  now : s.now ≤ s'.now
  users : Table.Grows User.Kept s.users s'.users
  clients : Table.Grows Eq s.oauth2Clients s'.oauth2Clients
  codes : Table.Grows AuthorizationCode.Kept s.authorizationCodes s'.authorizationCodes
  refreshTokens : Table.Grows RefreshToken.Kept s.refreshTokens s'.refreshTokens
  apiKeys : Table.Grows ApiKeyRow.Kept s.apiKeys s'.apiKeys

namespace Evolves

theorem refl (s : Server) : Evolves s s where
  now := Int.le_refl _
  users := .refl .refl _
  clients := .refl (fun _ => rfl) _
  codes := .refl .refl _
  refreshTokens := .refl .refl _
  apiKeys := .refl .refl _

theorem trans {s s' s'' : Server} (h : Evolves s s') (h' : Evolves s' s'') : Evolves s s'' where
  now := Int.le_trans h.now h'.now
  users := .trans .trans h.users h'.users
  clients := .trans (fun h h' => h.trans h') h.clients h'.clients
  codes := .trans .trans h.codes h'.codes
  refreshTokens := .trans .trans h.refreshTokens h'.refreshTokens
  apiKeys := .trans .trans h.apiKeys h'.apiKeys

variable {s s' : Server}

theorem of_run {α : Type} {d : Draw} {params : List String} {f : Server → Result (α × Server)}
    (hf : ∀ a s', f s = .ok (a, s') → Evolves s s') : Evolves s (Statement.run d params f s).2 := by
  rcases run_cases d params f s with ⟨e, hrun⟩ | ⟨a, s', _, _, hok, hrun⟩
  . rw [hrun]
    apply refl
  . rw [hrun]
    exact hf a s' hok

theorem of_query {α : Type} {d : Draw} {params : List String} {f : Server → Result α} :
    Evolves s (query d params f s).2 := by
  rw [query_store]
  apply refl

theorem of_users {users : Table String User} (h : Table.Grows User.Kept s.users users) :
    Evolves s { s with users := users } :=
  { refl s with users := h }

theorem of_codes {codes : Table String AuthorizationCode}
    (h : Table.Grows AuthorizationCode.Kept s.authorizationCodes codes) :
    Evolves s { s with authorizationCodes := codes } :=
  { refl s with codes := h }

theorem of_refreshTokens {tokens : Table String RefreshToken}
    (h : Table.Grows RefreshToken.Kept s.refreshTokens tokens) :
    Evolves s { s with refreshTokens := tokens } :=
  { refl s with refreshTokens := h }

theorem of_apiKeys {keys : Table String ApiKeyRow}
    (h : Table.Grows ApiKeyRow.Kept s.apiKeys keys) : Evolves s { s with apiKeys := keys } :=
  { refl s with apiKeys := h }

theorem updateUser (id : String) {f : User → User} (hf : ∀ u, User.Kept u (f u)) :
    Evolves s (Statement.updateUser id f s) := by
  apply of_users
  apply Table.Grows.updateAt .refl
  intro u _
  exact ⟨(hf u).tenantId, (hf u).email⟩

theorem updateUserCounted {id : String} {f : User → User} (hf : ∀ u, User.Kept u (f u)) {b : Bool}
    (h : Statement.updateUserCounted id f s = .ok (b, s')) : Evolves s s' := by
  injection h with h
  injection h with _ h
  subst h
  exact updateUser id hf

end Evolves

section Exec

variable (d : Draw) (s : Server)

theorem UserOp.exec_evolves (o : UserOp) : Evolves s (o.exec d s).2 := by
  cases o with
  | insert id tenantId email passwordHash displayName =>
    apply Evolves.of_run
    intro _ s' h
    rcases insertUser_ok h with ⟨u, users, husers, rfl, _⟩
    exact Evolves.of_users (.insertNew .refl husers)
  | setSuspended id suspended =>
    apply Evolves.of_run
    intro _ s' h
    refine Evolves.updateUserCounted ?_ h
    intro u
    exact ⟨rfl, rfl⟩
  | setPassword id passwordHash =>
    apply Evolves.of_run
    intro _ s' h
    refine Evolves.updateUserCounted ?_ h
    intro u
    exact ⟨rfl, rfl⟩
  | clearFailedLogins id =>
    apply Evolves.of_run
    intro _ s' h
    refine Evolves.updateUserCounted ?_ h
    intro u
    exact ⟨rfl, rfl⟩
  | recordFailedLogin id threshold durationSecs =>
    apply Evolves.of_run
    intro _ s' h
    rcases recordFailedLogin_ok h with ⟨_, _, rfl⟩
    exact Evolves.updateUser id (fun u => ⟨rfl, rfl⟩)
  | updateLastSignIn id =>
    apply Evolves.of_run
    intro _ s' h
    injection h with h
    injection h with _ h
    subst h
    exact Evolves.updateUser id (fun u => ⟨rfl, rfl⟩)
  | _ => apply Evolves.of_query

theorem RoleOp.exec_evolves (cfg : Config) (o : RoleOp) : Evolves s (o.exec cfg d s).2 := by
  cases o with
  | assignDefault id userId roleId =>
    apply Evolves.of_run
    intro _ s' h
    rcases assignDefaultRole_ok h with ⟨rfl, _⟩ | ⟨_, _, _, usersRoles, _, rfl⟩
    . apply Evolves.refl
    . exact { Evolves.refl s with }
  | assign id userId roleId =>
    apply Evolves.of_run
    intro _ s' h
    rcases assignRole_ok h with ⟨_, _, _, usersRoles, _, rfl⟩
    exact { Evolves.refl s with }
  | remove userId roleId =>
    apply Evolves.of_run
    intro _ s' h
    cases h
    exact { Evolves.refl s with }
  | insert id name description roleType =>
    apply Evolves.of_run
    intro _ s' h
    rcases insertRole_ok h with ⟨_, roles, _, rfl⟩
    exact { Evolves.refl s with }
  | update id description roleType =>
    apply Evolves.of_run
    intro _ s' h
    rcases updateRole_ok h with ⟨_, _, _, _, rfl⟩
    exact { Evolves.refl s with }
  | delete id =>
    apply Evolves.of_run
    intro _ s' h
    rcases deleteRole_ok h with ⟨_, rfl, _⟩ | ⟨_, _, rfl⟩
    . apply Evolves.refl
    . exact { Evolves.refl s with }
  | deleteScopes id =>
    apply Evolves.of_run
    intro _ s' h
    cases h
    exact { Evolves.refl s with }
  | addScope id roleId scopeId =>
    apply Evolves.of_run
    intro _ s' h
    rcases addRoleScope_ok h with ⟨rfl, _⟩ | ⟨_, _, _, rolesScopes, _, rfl⟩
    . apply Evolves.refl
    . exact { Evolves.refl s with }
  | insertScope id name =>
    apply Evolves.of_run
    intro _ s' h
    rcases insertScope_ok h with ⟨_, scopes, _, _, _, rfl⟩
    exact { Evolves.refl s with }
  | _ => apply Evolves.of_query

theorem CodeOp.exec_evolves (o : CodeOp) : Evolves s (o.exec d s).2 := by
  cases o with
  | createCode code userId clientId redirectUri expiresAt =>
    apply Evolves.of_run
    intro _ s' h
    rcases createCode_ok h with ⟨codes, hcodes, rfl⟩
    exact Evolves.of_codes (.insertNew .refl hcodes)
  | setChallenge challenge code =>
    apply Evolves.of_run
    intro _ s' h
    rcases setChallenge_ok h with ⟨_, rfl⟩ | ⟨stored, _, rfl⟩
    . apply Evolves.refl
    . exact Evolves.of_codes (.updateAt .refl fun c _ => ⟨rfl, rfl, rfl, rfl, id⟩)
  | exchangeCode code =>
    apply Evolves.of_run
    intro _ s' h
    rcases exchangeCode_ok h with ⟨_, rfl⟩ | ⟨c, _, _, _, rfl⟩
    . apply Evolves.refl
    . exact Evolves.of_codes (.updateAt .refl fun c _ => ⟨rfl, rfl, rfl, rfl, fun _ => rfl⟩)
  | selectChallenge code => apply Evolves.of_query

theorem RefreshOp.exec_evolves (o : RefreshOp) : Evolves s (o.exec d s).2 := by
  cases o with
  | create tokenHash userId clientId expiresAt =>
    apply Evolves.of_run
    intro _ s' h
    rcases createRefreshToken_ok h with ⟨tokens, htokens, rfl⟩
    exact Evolves.of_refreshTokens (.insertNew .refl htokens)
  | rotate tokenHash =>
    apply Evolves.of_run
    intro _ s' h
    rcases rotate_ok h with ⟨_, rfl, _⟩ | ⟨t, ht, hrot, _, rfl⟩
    . apply Evolves.refl
    . refine Evolves.of_refreshTokens (.updateAt .refl fun t' ht' => ⟨rfl, rfl, rfl, ?_⟩)
      intro at_ hat
      rw [ht] at ht'
      cases ht'
      simp [rotatable, hat] at hrot
  | revokeAllForUser userId =>
    apply Evolves.of_run
    intro _ s' h
    injection h with h
    injection h with _ h
    subst h
    refine Evolves.of_refreshTokens (.updateWhere .refl fun _ t _ hp => ⟨rfl, rfl, rfl, ?_⟩)
    intro at_ hat
    simp [hat] at hp
  | findByHashAny tokenHash => apply Evolves.of_query

theorem ClientOp.exec_evolves (o : ClientOp) : Evolves s (o.exec d s).2 := by
  cases o with
  | create clientId name redirectUris clientSecretHash =>
    apply Evolves.of_run
    intro _ s' h
    rcases createClient_ok h with ⟨c, clients, hclients, rfl⟩
    exact { Evolves.refl s with clients := .insertNew (fun _ => rfl) hclients }
  | _ => apply Evolves.of_query

theorem ResetOp.exec_evolves (o : ResetOp) : Evolves s (o.exec d s).2 := by
  cases o with
  | insert tokenHash userId expiresAt =>
    apply Evolves.of_run
    intro _ s' h
    rcases insertResetToken_ok h with ⟨tokens, _, rfl⟩
    exact { Evolves.refl s with }
  | claim tokenHash =>
    apply Evolves.of_run
    intro _ s' h
    rcases claimResetToken_ok h with ⟨_, rfl⟩ | ⟨t, _, _, rfl⟩
    . apply Evolves.refl
    . exact { Evolves.refl s with }

theorem KeyOp.exec_evolves (o : KeyOp) : Evolves s (o.exec d s).2 := by
  cases o with
  | insert params =>
    apply Evolves.of_run
    intro _ s' h
    rcases insertApiKey_ok h with ⟨row, apiKeys, hapiKeys, rfl, _⟩
    exact Evolves.of_apiKeys (.insertNew .refl hapiKeys)
  | revoke id =>
    apply Evolves.of_run
    intro _ s' h
    rcases revokeApiKey_ok h with ⟨_, rfl, _⟩ | ⟨_, rfl, row, hrow, hnone⟩
    . apply Evolves.refl
    . refine Evolves.of_apiKeys (.updateAt .refl fun row' hrow' =>
        ⟨rfl, fun h => h, rfl, rfl, rfl, rfl, ?_⟩)
      intro at_ hat
      rw [hrow] at hrow'
      cases hrow'
      rw [hnone] at hat
      contradiction
  | setUserOwner userId id =>
    apply Evolves.of_run
    intro _ s' h
    rcases setUserOwner_ok h with rfl | rfl
    . apply Evolves.refl
    . exact Evolves.of_apiKeys (.updateAt .refl fun row _ =>
        ⟨rfl, fun _ => rfl, rfl, rfl, rfl, rfl, fun _ h => h⟩)
  | _ => apply Evolves.of_query

theorem ServiceTokenOp.exec_evolves (cfg : Config) (o : ServiceTokenOp) :
    Evolves s (o.exec cfg d s).2 := by
  rcases ServiceTokenOp.exec_frame d s cfg o with ⟨_, h⟩
  rw [h]
  exact { Evolves.refl s with }

theorem CacheOp.exec_evolves (o : CacheOp) : Evolves s (o.exec d s).2 := by
  rcases CacheOp.exec_frame d s o with ⟨_, h⟩
  rw [h]
  exact { Evolves.refl s with }

theorem Op.exec_evolves (cfg : Config) (o : Op) : Evolves s (o.exec cfg d s).2 := by
  cases o with
  | user o => apply UserOp.exec_evolves
  | tenant o =>
    unfold Op.exec
    dsimp
    rw [TenantOp.exec_store]
    apply Evolves.refl
  | role o => apply RoleOp.exec_evolves
  | code o => apply CodeOp.exec_evolves
  | refresh o => apply RefreshOp.exec_evolves
  | client o => apply ClientOp.exec_evolves
  | reset o => apply ResetOp.exec_evolves
  | key o => apply KeyOp.exec_evolves
  | serviceToken o => apply ServiceTokenOp.exec_evolves
  | cache o => apply CacheOp.exec_evolves
  | host o =>
    unfold Op.exec
    dsimp
    rw [HostOp.exec_store]
    apply Evolves.refl
  | auditAppend id entry =>
    apply Evolves.of_run
    intro _ s' h
    rcases appendAudit_ok h with ⟨auditLogs, rfl⟩
    exact { Evolves.refl s with }

end Exec

/--
Every operation and the passing of time only let the state evolve.
-/
theorem evolution (cfg : Config) : Machine.Evolution (semantics cfg) Evolves where
  refl := Evolves.refl
  trans := Evolves.trans
  exec o d s := Op.exec_evolves d s cfg o
  advance n s := {
    Evolves.refl s with
    now := by
      change s.now ≤ s.now + n
      exact Int.le_add_of_nonneg_right (Int.natCast_nonneg n)
  }

end Aspectus
