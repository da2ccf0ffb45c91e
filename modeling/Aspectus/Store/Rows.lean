import Aspectus.Store.Evolution

/-!
This module contains what an operation does to a single row: which columns it may change, and which
operation has inserted a row that was not there before.
-/

namespace Aspectus

open Interaction Statement

variable {cfg : Config} {d : Draw} {s : Server}

section Users

/--
What the operation `o` may turn the row `u` of the user `id` into.
-/
structure User.Changed (o : Op) (id : String) (u u' : User) : Prop where
  passwordHash : u'.passwordHash = u.passwordHash
    ∨ ∃ hash, o = .user (.setPassword id hash) ∧ u'.passwordHash = some hash
  isSuspended : u'.isSuspended = u.isSuspended
    ∨ ∃ suspended, o = .user (.setSuspended id suspended) ∧ u'.isSuspended = suspended

theorem User.Changed.refl (o : Op) (id : String) (u : User) : u.Changed o id u :=
  ⟨.inl rfl, .inl rfl⟩

/--
The operation inserts the row `u` of the user `id`.
-/
def User.Inserted (o : Op) (id : String) (u : User) : Prop :=
  ∃ tenantId email hash displayName, o = .user (.insert id tenantId email hash displayName)
    ∧ u.tenantId = tenantId ∧ u.passwordHash = some hash ∧ u.isSuspended = false

/--
The rows of users after an operation: each of them was changed, or has been inserted.
-/
def UsersStep (o : Op) (users users' : Table String User) : Prop :=
  ∀ id u', users'.lookup id = some u' →
    (∃ u, users.lookup id = some u ∧ u.Changed o id u')
      ∨ (users.lookup id = none ∧ u'.Inserted o id)

theorem UsersStep.refl (o : Op) (users : Table String User) : UsersStep o users users := by
  intro id u' hu'
  exact .inl ⟨u', hu', .refl o id u'⟩

theorem UsersStep.updateUser {o : Op} {id : String} {f : User → User}
    (hf : ∀ u, User.Changed o id u { f u with updatedAt := s.now })
    : UsersStep o s.users (updateUser id f s).users := by
  intro id' u' hu'
  unfold Statement.updateUser at hu'
  simp only [Table.lookup_updateAt] at hu'
  split at hu'
  . next hid =>
    subst hid
    rcases Option.map_eq_some_iff.mp hu' with ⟨u, hu, rfl⟩
    exact .inl ⟨u, hu, hf u⟩
  . exact .inl ⟨u', hu', .refl o id' u'⟩

theorem UserOp.exec_step (o : UserOp) : UsersStep (.user o) s.users (o.exec d s).2.users := by
  have hs := UsersStep.refl (.user o) s.users
  cases o with
  | insert id tenantId email passwordHash displayName =>
    apply run_store (P := fun s' => UsersStep _ s.users s'.users) hs
    intro _ s' h
    rcases insertUser_ok h with ⟨u, users, husers, rfl, htenant, hhash, hsuspended⟩
    intro id' u' hu'
    simp only [Table.lookup_insertNew husers] at hu'
    split at hu'
    . next hid =>
      subst hid
      injection hu' with hu'
      subst hu'
      exact .inr ⟨(Table.insertNew_eq_some.mp husers).1, _, _, _, _, rfl, htenant, hhash, hsuspended⟩
    . exact .inl ⟨u', hu', .refl _ id' u'⟩
  | setSuspended id suspended =>
    apply run_store (P := fun s' => UsersStep _ s.users s'.users) hs
    intro _ s' h
    injection h with h
    injection h with _ h
    subst h
    exact .updateUser fun u => ⟨.inl rfl, .inr ⟨suspended, rfl, rfl⟩⟩
  | setPassword id passwordHash =>
    apply run_store (P := fun s' => UsersStep _ s.users s'.users) hs
    intro _ s' h
    injection h with h
    injection h with _ h
    subst h
    exact .updateUser fun u => ⟨.inr ⟨passwordHash, rfl, rfl⟩, .inl rfl⟩
  | recordFailedLogin id threshold durationSecs =>
    apply run_store (P := fun s' => UsersStep _ s.users s'.users) hs
    intro _ s' h
    rcases recordFailedLogin_ok h with ⟨_, _, rfl⟩
    exact .updateUser fun u => ⟨.inl rfl, .inl rfl⟩
  | clearFailedLogins id =>
    apply run_store (P := fun s' => UsersStep _ s.users s'.users) hs
    intro _ s' h
    injection h with h
    injection h with _ h
    subst h
    exact .updateUser fun u => ⟨.inl rfl, .inl rfl⟩
  | updateLastSignIn id =>
    apply run_store (P := fun s' => UsersStep _ s.users s'.users) hs
    intro _ s' h
    injection h with h
    injection h with _ h
    subst h
    exact .updateUser fun u => ⟨.inl rfl, .inl rfl⟩
  | _ => exact query_keeps (P := fun s' => UsersStep _ s.users s'.users) hs

theorem Op.exec_users (cfg : Config) (d : Draw) (s : Server) (o : Op) :
    UsersStep o s.users (o.exec cfg d s).2.users := by
  by_cases hgroup : ∃ o', o = .user o'
  . rcases hgroup with ⟨o', rfl⟩
    apply UserOp.exec_step
  . rw [(exec_framed cfg d s o).users (by simpa using hgroup)]
    apply UsersStep.refl

end Users

section Codes

/--
The rows of codes after an operation: a challenge is only changed by setting it, and a new code has
been created.
-/
structure CodesStep (o : Op) (codes codes' : Table String AuthorizationCode) : Prop where
  challenge : ∀ code c, codes.lookup code = some c → ∃ c', codes'.lookup code = some c'
    ∧ (c'.codeChallenge = c.codeChallenge ∨ ∃ challenge stored,
      o = .code (.setChallenge challenge code) ∧ varchar 255 challenge = .ok stored
        ∧ c'.codeChallenge = some stored)
  created : ∀ code c', codes.lookup code = none → codes'.lookup code = some c' →
    ∃ userId clientId redirectUri expiresAt,
      o = .code (.createCode code userId clientId redirectUri expiresAt)

theorem CodesStep.refl (o : Op) (codes : Table String AuthorizationCode) :
    CodesStep o codes codes := by
  constructor
  . intro code c hc
    exact ⟨c, hc, .inl rfl⟩
  . intro code c' hnone hc'
    rw [hnone] at hc'
    contradiction

theorem CodesStep.updateAt {o : Op} {codes : Table String AuthorizationCode} {code : String}
    {f : AuthorizationCode → AuthorizationCode}
    (hf : ∀ c, (f c).codeChallenge = c.codeChallenge ∨ ∃ challenge stored,
      o = .code (.setChallenge challenge code) ∧ varchar 255 challenge = .ok stored
        ∧ (f c).codeChallenge = some stored)
    : CodesStep o codes (codes.updateAt code f) := by
  constructor
  . intro code' c hc
    by_cases hcode : code' = code
    . subst hcode
      exact ⟨f c, by simp [hc], hf c⟩
    . exact ⟨c, by simp [hcode, hc], .inl rfl⟩
  . intro code' c' hnone hc'
    simp [hnone] at hc'

theorem CodeOp.exec_step (o : CodeOp) :
    CodesStep (.code o) s.authorizationCodes (o.exec d s).2.authorizationCodes := by
  have hs := CodesStep.refl (.code o) s.authorizationCodes
  cases o with
  | createCode code userId clientId redirectUri expiresAt =>
    apply run_store (P := fun s' => CodesStep _ s.authorizationCodes s'.authorizationCodes) hs
    intro _ s' h
    rcases createCode_ok h with ⟨codes, hcodes, rfl⟩
    constructor
    . intro code' c hc
      exact ⟨c, Table.lookup_insertNew_of_some hcodes hc, .inl rfl⟩
    . intro code' c' hnone hc'
      simp only [Table.lookup_insertNew hcodes] at hc'
      split at hc'
      . next hcode =>
        subst hcode
        exact ⟨userId, clientId, redirectUri, expiresAt, rfl⟩
      . rw [hnone] at hc'
        contradiction
  | setChallenge challenge code =>
    apply run_store (P := fun s' => CodesStep _ s.authorizationCodes s'.authorizationCodes) hs
    intro _ s' h
    rcases setChallenge_ok h with ⟨_, rfl⟩ | ⟨stored, hstored, rfl⟩
    . exact hs
    . exact .updateAt fun c => .inr ⟨challenge, stored, rfl, hstored, rfl⟩
  | exchangeCode code =>
    apply run_store (P := fun s' => CodesStep _ s.authorizationCodes s'.authorizationCodes) hs
    intro _ s' h
    rcases exchangeCode_ok h with ⟨_, rfl⟩ | ⟨c, _, _, _, rfl⟩
    . exact hs
    . exact .updateAt fun c => .inl rfl
  | selectChallenge code =>
    exact query_keeps (P := fun s' => CodesStep _ s.authorizationCodes s'.authorizationCodes) hs

theorem Op.exec_codes (cfg : Config) (d : Draw) (s : Server) (o : Op) :
    CodesStep o s.authorizationCodes (o.exec cfg d s).2.authorizationCodes := by
  by_cases hgroup : ∃ o', o = .code o'
  . rcases hgroup with ⟨o', rfl⟩
    apply CodeOp.exec_step
  . rw [(exec_framed cfg d s o).codes (by simpa using hgroup)]
    apply CodesStep.refl

end Codes

section RefreshTokens

/--
The rows of refresh tokens after an operation: a new token has been created.
-/
def TokensStep (o : Op) (tokens tokens' : Table String RefreshToken) : Prop :=
  ∀ tokenHash t', tokens.lookup tokenHash = none → tokens'.lookup tokenHash = some t' →
    ∃ userId clientId expiresAt, o = .refresh (.create tokenHash userId clientId expiresAt)

theorem TokensStep.refl (o : Op) (tokens : Table String RefreshToken) :
    TokensStep o tokens tokens := by
  intro tokenHash t' hnone ht'
  rw [hnone] at ht'
  contradiction

theorem TokensStep.updateWhere {o : Op} {tokens : Table String RefreshToken}
    {p : String → RefreshToken → Bool} {f : RefreshToken → RefreshToken} :
    TokensStep o tokens (tokens.updateWhere p f) := by
  intro tokenHash t' hnone ht'
  simp [hnone] at ht'

theorem RefreshOp.exec_step (o : RefreshOp) :
    TokensStep (.refresh o) s.refreshTokens (o.exec d s).2.refreshTokens := by
  have hs := TokensStep.refl (.refresh o) s.refreshTokens
  cases o with
  | create tokenHash userId clientId expiresAt =>
    apply run_store (P := fun s' => TokensStep _ s.refreshTokens s'.refreshTokens) hs
    intro _ s' h
    rcases createRefreshToken_ok h with ⟨tokens, htokens, rfl⟩
    intro tokenHash' t' hnone ht'
    simp only [Table.lookup_insertNew htokens] at ht'
    split at ht'
    . next hhash =>
      subst hhash
      exact ⟨userId, clientId, expiresAt, rfl⟩
    . rw [hnone] at ht'
      contradiction
  | rotate tokenHash =>
    apply run_store (P := fun s' => TokensStep _ s.refreshTokens s'.refreshTokens) hs
    intro _ s' h
    rcases rotate_ok h with ⟨_, rfl, _⟩ | ⟨_, _, _, _, rfl⟩
    . exact hs
    . exact .updateWhere
  | revokeAllForUser userId =>
    apply run_store (P := fun s' => TokensStep _ s.refreshTokens s'.refreshTokens) hs
    intro _ s' h
    injection h with h
    injection h with _ h
    subst h
    exact .updateWhere
  | findByHashAny tokenHash =>
    exact query_keeps (P := fun s' => TokensStep _ s.refreshTokens s'.refreshTokens) hs

theorem Op.exec_refreshTokens (cfg : Config) (d : Draw) (s : Server) (o : Op) :
    TokensStep o s.refreshTokens (o.exec cfg d s).2.refreshTokens := by
  by_cases hgroup : ∃ o', o = .refresh o'
  . rcases hgroup with ⟨o', rfl⟩
    apply RefreshOp.exec_step
  . rw [(exec_framed cfg d s o).refreshTokens (by simpa using hgroup)]
    apply TokensStep.refl

end RefreshTokens

section ApiKeys

/--
The rows of API keys after an operation: each of them was there before, or has been inserted under a
new hash.
-/
def KeysStep (o : Op) (s : Server) (keys' : Table String ApiKeyRow) : Prop :=
  ∀ id row', keys'.lookup id = some row' →
    (∃ row, s.apiKeys.lookup id = some row ∧ row.Kept row')
      ∨ ∃ params, o = .key (.insert params) ∧ params.id = id ∧ row'.keyHash = params.keyHash
        ∧ byHash params.keyHash s = none ∧ storable id = true ∧ storable row'.keyHash = true

/--
Rows that are only changed in ways that are kept.
-/
theorem KeysStep.of_grows {o : Op} {keys' : Table String ApiKeyRow}
    (hgrows : Table.Grows ApiKeyRow.Kept s.apiKeys keys')
    (hold : ∀ id row', keys'.lookup id = some row' → ∃ row, s.apiKeys.lookup id = some row)
    : KeysStep o s keys' := by
  intro id row' hrow'
  rcases hold id row' hrow' with ⟨row, hrow⟩
  rcases hgrows id row hrow with ⟨row'', hrow'', hkept⟩
  rw [hrow'] at hrow''
  injection hrow'' with hrow''
  subst hrow''
  exact .inl ⟨row, hrow, hkept⟩

theorem lookup_of_updateAt {keys : Table String ApiKeyRow} {id id' : String}
    {f : ApiKeyRow → ApiKeyRow} {row' : ApiKeyRow} (h : (keys.updateAt id f).lookup id' = some row')
    : ∃ row, keys.lookup id' = some row := by
  rw [Table.lookup_updateAt] at h
  split at h
  . rcases Option.map_eq_some_iff.mp h with ⟨row, hrow, _⟩
    exact ⟨row, hrow⟩
  . exact ⟨row', h⟩

theorem KeyOp.exec_step (o : KeyOp) : KeysStep (.key o) s (o.exec d s).2.apiKeys := by
  have hevolves := (KeyOp.exec_evolves d s o).apiKeys
  cases o with
  | insert params =>
    rcases run_cases d _ (insertApiKey params) s with
      ⟨e, hrun⟩ | ⟨key, s', _, hparams, hinsert, hrun⟩
    . unfold KeyOp.exec
      dsimp only
      rw [hrun]
      exact .of_grows (.refl .refl _) fun id row' hrow' => ⟨row', hrow'⟩
    . unfold KeyOp.exec
      dsimp only
      rw [hrun]
      rcases insertApiKey_ok hinsert with ⟨row, apiKeys, hapiKeys, rfl, hhash, _, _, hnone⟩
      intro id row' hrow'
      simp only [Table.lookup_insertNew hapiKeys] at hrow'
      split at hrow'
      . next hid =>
        injection hrow' with hrow'
        subst hid hrow'
        simp only [List.cons_append, List.all_cons, Bool.and_eq_true] at hparams
        refine .inr ⟨params, rfl, rfl, hhash, hnone, hparams.1, ?_⟩
        rw [hhash]
        exact hparams.2.2.2.1
      . exact .inl ⟨row', hrow', .refl row'⟩
  | revoke id =>
    refine .of_grows hevolves ?_
    apply run_store (P := fun s' : Server => ∀ id row', s'.apiKeys.lookup id = some row' →
      ∃ row, s.apiKeys.lookup id = some row) fun id row' hrow' => ⟨row', hrow'⟩
    intro _ s' h id' row' hrow'
    rcases revokeApiKey_ok h with ⟨_, rfl, _⟩ | ⟨_, rfl, _⟩
    . exact ⟨row', hrow'⟩
    . exact lookup_of_updateAt hrow'
  | setUserOwner userId id =>
    refine .of_grows hevolves ?_
    apply run_store (P := fun s' : Server => ∀ id row', s'.apiKeys.lookup id = some row' →
      ∃ row, s.apiKeys.lookup id = some row) fun id row' hrow' => ⟨row', hrow'⟩
    intro _ s' h id' row' hrow'
    rcases setUserOwner_ok h with rfl | rfl
    . exact ⟨row', hrow'⟩
    . exact lookup_of_updateAt hrow'
  | _ =>
    refine .of_grows hevolves fun id row' hrow' => ⟨row', ?_⟩
    simpa only [KeyOp.exec, query_store] using hrow'

theorem Op.exec_apiKeys (cfg : Config) (d : Draw) (s : Server) (o : Op) :
    KeysStep o s (o.exec cfg d s).2.apiKeys := by
  by_cases hgroup : ∃ o', o = .key o'
  . rcases hgroup with ⟨o', rfl⟩
    apply KeyOp.exec_step
  . rw [(exec_framed cfg d s o).apiKeys (by simpa using hgroup)]
    exact .of_grows (.refl .refl _) fun id row' hrow' => ⟨row', hrow'⟩

/--
The key still has its service account, unless the operation gives it to a user.
-/
def AccountKept (o : Op) (id : String) (row : ApiKeyRow) (s' : Server) : Prop :=
  ∃ row', s'.apiKeys.lookup id = some row'
    ∧ (row'.serviceAccountId = row.serviceAccountId
      ∨ ∃ userId, o = .key (.setUserOwner userId id) ∧ row'.serviceAccountId = none)

theorem KeyOp.exec_account (o : KeyOp) {id : String} {row : ApiKeyRow}
    (hrow : s.apiKeys.lookup id = some row) : AccountKept (.key o) id row (o.exec d s).2 := by
  have hsame : AccountKept (.key o) id row s := ⟨row, hrow, .inl rfl⟩
  cases o with
  | insert params =>
    apply run_store hsame
    intro _ s' h
    rcases insertApiKey_ok h with ⟨_, apiKeys, hapiKeys, rfl, _⟩
    exact ⟨row, Table.lookup_insertNew_of_some hapiKeys hrow, .inl rfl⟩
  | revoke id' =>
    apply run_store hsame
    intro _ s' h
    rcases revokeApiKey_ok h with ⟨_, rfl, _⟩ | ⟨_, rfl, _⟩
    . exact hsame
    . unfold AccountKept
      simp only [Table.lookup_updateAt, hrow]
      split
      . exact ⟨_, rfl, .inl rfl⟩
      . exact ⟨_, rfl, .inl rfl⟩
  | setUserOwner userId id' =>
    apply run_store hsame
    intro _ s' h
    rcases setUserOwner_ok h with rfl | rfl
    . exact hsame
    . unfold AccountKept
      simp only [Table.lookup_updateAt, hrow]
      split
      . next hid =>
        subst hid
        exact ⟨_, rfl, .inr ⟨userId, rfl, rfl⟩⟩
      . exact ⟨_, rfl, .inl rfl⟩
  | _ =>
    simp only [KeyOp.exec, query_store]
    exact hsame

theorem Op.exec_account (cfg : Config) (d : Draw) (s : Server) (o : Op) {id : String} {row : ApiKeyRow}
    (hrow : s.apiKeys.lookup id = some row) : AccountKept o id row (o.exec cfg d s).2 := by
  by_cases hgroup : ∃ o', o = .key o'
  . rcases hgroup with ⟨o', rfl⟩
    exact KeyOp.exec_account o' hrow
  . refine ⟨row, ?_, .inl rfl⟩
    rw [(exec_framed cfg d s o).apiKeys (by simpa using hgroup)]
    exact hrow

end ApiKeys

section ServiceTokens

/--
The rows of service tokens after an operation: each of them was there before, has just been revoked, or
has just been given its hash.
-/
def ServiceTokensStep (o : Op) (rows rows' : Table String ServiceTokenRow) : Prop :=
  ∀ project row', rows'.lookup project = some row' → rows.lookup project = some row'
    ∨ (∃ p row, o = .serviceToken (.revoke p) ∧ project = p.toString
      ∧ rows.lookup project = some row ∧ row.revokedAt = none ∧ row'.tokenHash = row.tokenHash
      ∧ row'.revokedAt.isSome)
    ∨ (∃ p tokenPrefix, o = .serviceToken (.upsert p row'.tokenHash tokenPrefix)
      ∧ project = p.toString ∧ row'.revokedAt = none)
    ∨ (o = .serviceToken (.seedAdmin row'.tokenHash) ∧ project = Project.aspectus.toString)

theorem ServiceTokensStep.refl (o : Op) (rows : Table String ServiceTokenRow) :
    ServiceTokensStep o rows rows := by
  intro project row' hrow'
  exact .inl hrow'

theorem lookup_insert_cases {rows : Table String ServiceTokenRow} {project project' : String}
    {row row' : ServiceTokenRow} (h : (AList.insert project row rows).lookup project' = some row')
    : rows.lookup project' = some row' ∨ (project' = project ∧ row' = row) := by
  by_cases hproject : project' = project
  . subst hproject
    rw [AList.lookup_insert] at h
    injection h with h
    exact .inr ⟨rfl, h.symm⟩
  . rw [AList.lookup_insert_ne hproject] at h
    exact .inl h

theorem ServiceTokenOp.exec_step (cfg : Config) (o : ServiceTokenOp) :
    ServiceTokensStep (.serviceToken o) s.serviceTokens (o.exec cfg d s).2.serviceTokens := by
  cases o with
  | upsert p tokenHash tokenPrefix =>
    apply run_store (P := fun s' : Server => ServiceTokensStep _ s.serviceTokens s'.serviceTokens)
      (.refl _ _)
    rintro _ s' h project row' hrow'
    cases h
    rcases lookup_insert_cases hrow' with hold | ⟨rfl, rfl⟩
    . exact .inl hold
    . exact .inr (.inr (.inl ⟨p, tokenPrefix, rfl, rfl, rfl⟩))
  | revoke p =>
    apply run_store (P := fun s' : Server => ServiceTokensStep _ s.serviceTokens s'.serviceTokens)
      (.refl _ _)
    intro _ s' h
    rcases revokeServiceToken_ok h with ⟨_, rfl, _⟩ | ⟨_, rfl, row, hrow, hactive⟩
    . apply ServiceTokensStep.refl
    . intro project row' hrow'
      rw [Table.lookup_updateAt] at hrow'
      split at hrow'
      . next hproject =>
        subst hproject
        rw [hrow] at hrow'
        injection hrow' with hrow'
        subst hrow'
        exact .inr (.inl ⟨p, row, rfl, rfl, hrow, hactive, rfl, rfl⟩)
      . exact .inl hrow'
  | seedAdmin tokenHash =>
    apply run_store (P := fun s' : Server => ServiceTokensStep _ s.serviceTokens s'.serviceTokens)
      (.refl _ _)
    rintro _ s' h project row' hrow'
    cases h
    rcases lookup_insert_cases hrow' with hold | ⟨rfl, rfl⟩
    . exact .inl hold
    . exact .inr (.inr (.inr ⟨rfl, rfl⟩))
  | _ =>
    intro project row' hrow'
    simp only [ServiceTokenOp.exec, query_store] at hrow'
    exact .inl hrow'

theorem Op.exec_serviceTokens (cfg : Config) (d : Draw) (s : Server) (o : Op) :
    ServiceTokensStep o s.serviceTokens (o.exec cfg d s).2.serviceTokens := by
  by_cases hgroup : ∃ o', o = .serviceToken o'
  . rcases hgroup with ⟨o', rfl⟩
    apply ServiceTokenOp.exec_step
  . rw [(exec_framed cfg d s o).serviceTokens (by simpa using hgroup)]
    apply ServiceTokensStep.refl

end ServiceTokens

section Redis

/--
The entries of the cache after an operation: each of them was there before, or has just been stored.
-/
def RedisStep (o : Op) (s s' : Server) : Prop :=
  ∀ key entry, s'.redis key = some entry → s.redis key = some entry
    ∨ (∃ value ttlSecs, o = .cache (.setJson key value ttlSecs) ∧ 0 < ttlSecs
      ∧ entry = ⟨.response value, some (s.now + Instant.seconds ttlSecs)⟩)
    ∨ (∃ value ttlSecs, o = .cache (.set key value ttlSecs) ∧ 0 < ttlSecs
      ∧ entry = ⟨.text value, some (s.now + Instant.seconds ttlSecs)⟩)
    ∨ ∃ name bucket n, key = rateLimitKey name bucket ∧ entry.value = .counter n

theorem RedisStep.refl (o : Op) (s : Server) : RedisStep o s s := by
  intro key entry hentry
  exact .inl hentry

theorem setEx_redis {key key' : String} {value : CacheValue} {ttlSecs : Nat} {entry : CacheEntry}
    (h : (s.setEx key value ttlSecs).redis key' = some entry)
    : s.redis key' = some entry
        ∨ (key' = key ∧ 0 < ttlSecs ∧ entry = ⟨value, some (s.now + Instant.seconds ttlSecs)⟩) := by
  unfold Server.setEx at h
  split at h
  . exact .inl h
  . next httl =>
    dsimp only at h
    by_cases hkey : key' = key
    . subst hkey
      rw [Function.update_self] at h
      injection h with h
      exact .inr ⟨rfl, by omega, h.symm⟩
    . rw [Function.update_of_ne hkey] at h
      exact .inl h

theorem del_redis {key key' : String} {entry : CacheEntry}
    (h : (s.del key).redis key' = some entry) : s.redis key' = some entry := by
  unfold Server.del at h
  dsimp only at h
  by_cases hkey : key' = key
  . subst hkey
    rw [Function.update_self] at h
    contradiction
  . rw [Function.update_of_ne hkey] at h
    exact h

theorem CacheOp.exec_step (o : CacheOp) : RedisStep (.cache o) s (o.exec d s).2 := by
  cases o with
  | getJson key =>
    unfold CacheOp.exec
    dsimp
    split <;> apply RedisStep.refl
  | get key =>
    unfold CacheOp.exec
    dsimp
    split <;> apply RedisStep.refl
  | setJson key value ttlSecs =>
    unfold CacheOp.exec
    dsimp
    split
    . apply RedisStep.refl
    . intro key' entry hentry
      rcases setEx_redis hentry with hold | ⟨rfl, httl, hnew⟩
      . exact .inl hold
      . exact .inr (.inl ⟨value, ttlSecs, rfl, httl, hnew⟩)
  | set key value ttlSecs =>
    unfold CacheOp.exec
    dsimp
    split
    . apply RedisStep.refl
    . intro key' entry hentry
      rcases setEx_redis hentry with hold | ⟨rfl, httl, hnew⟩
      . exact .inl hold
      . exact .inr (.inr (.inl ⟨value, ttlSecs, rfl, httl, hnew⟩))
  | del key =>
    unfold CacheOp.exec
    dsimp
    split
    . apply RedisStep.refl
    . intro key' entry hentry
      exact .inl (del_redis hentry)
  | checkRate name bucket maxRequests windowSecs =>
    unfold CacheOp.exec
    dsimp
    split
    . apply RedisStep.refl
    . intro key entry hentry
      dsimp only at hentry
      by_cases hkey : key = rateLimitKey name bucket
      . subst hkey
        rw [Function.update_self] at hentry
        rcases Redis.rateLimit_slot s.now maxRequests windowSecs (s.redis (rateLimitKey name bucket)) with
          hslot | hslot | ⟨n, deadline, hslot⟩
        . exact .inl (hslot ▸ hentry)
        . rw [hslot] at hentry
          contradiction
        . rw [hslot] at hentry
          injection hentry with hentry
          subst hentry
          exact .inr (.inr (.inr ⟨name, bucket, n, rfl, rfl⟩))
      . rw [Function.update_of_ne hkey] at hentry
        exact .inl hentry

theorem Op.exec_redis (cfg : Config) (d : Draw) (s : Server) (o : Op) :
    RedisStep o s (o.exec cfg d s).2 := by
  by_cases hgroup : ∃ o', o = .cache o'
  . rcases hgroup with ⟨o', rfl⟩
    apply CacheOp.exec_step
  . intro key entry hentry
    rw [(exec_framed cfg d s o).redis (by simpa using hgroup)] at hentry
    exact .inl hentry

/--
A value that is cached after an operation was cached before, or has just been stored.
-/
theorem Op.exec_cached {cfg : Config} {d : Draw} {s : Server} {o : Op} {key : String} {v : CacheValue}
    (h : (o.exec cfg d s).2.cached key = some v)
    : s.cached key = some v
        ∨ (∃ value ttlSecs, o = .cache (.setJson key value ttlSecs))
        ∨ (∃ value ttlSecs, o = .cache (.set key value ttlSecs))
        ∨ ∃ name bucket, key = rateLimitKey name bucket := by
  rcases Server.cached_eq_some.mp h with ⟨entry, hentry, hlive, hv⟩
  rw [(Op.exec_framed cfg d s o).now] at hlive
  rcases Op.exec_redis cfg d s o _ entry hentry with
    hold | ⟨value, ttl, heq, _⟩ | ⟨value, ttl, heq, _⟩ | ⟨name, bucket, _, hkey, _⟩
  . exact .inl (Server.cached_eq_some.mpr ⟨entry, hold, hlive, hv⟩)
  . exact .inr (.inl ⟨value, ttl, heq⟩)
  . exact .inr (.inr (.inl ⟨value, ttl, heq⟩))
  . exact .inr (.inr (.inr ⟨name, bucket, hkey⟩))

/--
What is live after some time was live before.
-/
theorem Server.cached_of_advance {s : Server} {n : Nat} {key : String} {v : CacheValue}
    (h : (s.advance n).cached key = some v) : s.cached key = some v := by
  rcases Server.cached_eq_some.mp h with ⟨entry, hentry, hlive, hv⟩
  refine Server.cached_eq_some.mpr ⟨entry, hentry, ?_, hv⟩
  exact CacheEntry.live_of_le (Int.le_add_of_nonneg_right (Int.natCast_nonneg n)) hlive

end Redis

end Aspectus
