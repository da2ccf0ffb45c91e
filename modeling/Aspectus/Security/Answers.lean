import Aspectus.Security.Deletion
import Aspectus.Security.Verification

/-!
This module contains what the answers to a token are like: an answer that is active was made from the claims
of a JWT or from a row of the database, also if it comes from the cache.
-/

namespace Aspectus

open Interaction Prog Machine Statement ApiKeyVerifier

variable {cfg : Config} {s : Server} {d : Draw} {draws : Nat → Draw} {o : Op} {token keyHash : String}
  {raw : List UInt8} {key : ApiKey} {r : IntrospectResponse}

/--
What a key that was read has in common with its row from then on.
-/
structure Reflects (key : ApiKey) (row : ApiKeyRow) : Prop where
  account : row.serviceAccountId = some key.serviceAccountId ∨ row.serviceAccountId = none
  tenantId : row.tenantId = key.tenantId
  project : row.project = key.project
  keyHash : row.keyHash = key.keyHash
  scopes : row.scopes = key.scopes
  expiresAt : row.expiresAt = key.expiresAt

/--
There is a row for the hash, of which `key` was read at some time.
-/
def Known (s : Server) (keyHash : String) (key : ApiKey) : Prop :=
  ∃ row, s.apiKeys.lookup key.id = some row ∧ row.keyHash = keyHash ∧ Reflects key row

/--
Every answer in the cache was built from a row.
-/
def CacheBuilt (s : Server) : Prop :=
  ∀ keyHash entry, s.redis (cacheKey keyHash) = some entry →
    ∃ key, entry.value = .response (buildResponse key) ∧ Known s keyHash key

theorem reflects_of_decode {id : String} {row : ApiKeyRow} (h : decodeApiKey id row = .ok key) :
    Reflects key row := by
  rcases decodeApiKey_ok h with ⟨haccount, _, htenant, hproject, hkey, hscopes, hexpires, _⟩
  exact ⟨.inl haccount, htenant.symm, hproject.symm, hkey.symm, hscopes.symm, hexpires.symm⟩

theorem known_of_findByHash (h : findByHash keyHash s = .ok (some key)) : Known s keyHash key := by
  rcases findByHash_ok h with ⟨row, hrow, hhash, hdecode⟩
  exact ⟨row, hrow, hhash, reflects_of_decode hdecode⟩

theorem Known.exec (h : Known s keyHash key) : Known (o.exec cfg d s).2 keyHash key := by
  rcases h with ⟨row, hrow, hhash, hreflects⟩
  rcases (Op.exec_evolves d s cfg o).apiKeys _ row hrow with ⟨row', hrow', hkept⟩
  refine ⟨row', hrow', hkept.keyHash.trans hhash, ?_, hkept.tenantId.trans hreflects.tenantId,
    hkept.project.trans hreflects.project, hkept.keyHash.trans hreflects.keyHash,
    hkept.scopes.trans hreflects.scopes, hkept.expiresAt.trans hreflects.expiresAt⟩
  rcases Op.exec_account cfg d s o hrow with ⟨row'', hrow'', hsame | ⟨_, _, hnone⟩⟩
  . rw [hrow'] at hrow''
    injection hrow'' with hrow''
    rw [hrow'', hsame]
    exact hreflects.account
  . rw [hrow'] at hrow''
    injection hrow'' with hrow''
    rw [hrow'']
    exact .inr hnone

/--
The cache stays built from rows, if what is stored in it was read from a row before.
-/
theorem CacheBuilt.exec {q : KeyRequest} {h : List (Event Api)} (hcache : CacheBuilt s)
    (hallowed : KeyAllowed q h o)
    (hfound : ∀ keyHash key, Called h (.key (.findByHash keyHash)) (.ok (some key)) →
      Known s keyHash key)
    : CacheBuilt (o.exec cfg d s).2 := by
  intro keyHash entry hentry
  rcases Op.exec_redis cfg d s o _ entry hentry with
    hold | ⟨value, ttl, rfl, _, rfl⟩ | ⟨value, ttl, rfl, _⟩ | ⟨name, bucket, _, hkey, _⟩
  . rcases hcache keyHash entry hold with ⟨key, hvalue, hknown⟩
    exact ⟨key, hvalue, hknown.exec⟩
  . rcases hallowed with ⟨keyHash', key, heq, hmay⟩
    have hhash : keyHash = keyHash' := append_right_injective heq
    subst hhash
    exact ⟨key, congrArg CacheValue.response hmay.built, (hfound keyHash key hmay.found).exec⟩
  . exact absurd rfl (hallowed keyHash)
  . exact absurd hkey.symm (rateLimitKey_ne name bucket keyHash)

/--
What was found is known after the operation, whether it was found before or by the operation.
-/
theorem known_cons {h : List (Event Api)}
    (hfound : ∀ keyHash key, Called h (.key (.findByHash keyHash)) (.ok (some key)) →
      Known s keyHash key)
    : ∀ keyHash key, Called (⟨o, (o.exec cfg d s).1⟩ :: h) (.key (.findByHash keyHash))
        (.ok (some key)) → Known (o.exec cfg d s).2 keyHash key := by
  intro keyHash key hcalled
  rcases List.mem_cons.mp hcalled with heq | hold
  . injection heq with ho hr
    subst ho
    exact (known_of_findByHash (query_ok (eq_of_heq hr).symm)).exec
  . exact (hfound keyHash key hold).exec

/--
The cache is built from rows in every state of every execution, and every key that was found still has its row.
-/
theorem KeyMachine.Reachable.cacheBuilt {m : KeyMachine} (hs : CacheBuilt s)
    (hm : KeyMachine.Reachable cfg s m)
    : CacheBuilt m.store ∧ ∀ i keyHash key,
        Called (eventsOf i m.log) (.key (.findByHash keyHash)) (.ok (some key)) →
          Known m.store keyHash key := by
  refine Reaches.inv (P := fun m : KeyMachine => CacheBuilt m.store ∧ ∀ i keyHash key,
    Called (eventsOf i m.log) (.key (.findByHash keyHash)) (.ok (some key)) →
      Known m.store keyHash key) hm ⟨hs, ?_⟩ ?_
  . intro i keyHash key hcalled
    cases hcalled
  . rintro m m' hm ⟨hcache, hfound⟩ hchange
    cases hchange with
    | none => exact ⟨hcache, hfound⟩
    | tick n => exact ⟨hcache, hfound⟩
    | start i q hfree =>
      refine ⟨hcache, ?_⟩
      intro j keyHash key hcalled
      rw [eventsOf_cons_silent (by rfl)] at hcalled
      exact hfound j keyHash key hcalled
    | finish i q a hrun =>
      refine ⟨hcache, ?_⟩
      intro j keyHash key hcalled
      rw [eventsOf_cons_silent (by rfl)] at hcalled
      exact hfound j keyHash key hcalled
    | call i d q o k hrun =>
      have hallowed := (Reaches.conforms (KeyRequest.handle_conforms cfg) hm i q _ hrun).1
      refine ⟨hcache.exec hallowed (hfound i), ?_⟩
      intro j keyHash key hcalled
      by_cases hj : i = j
      . subst hj
        rw [eventsOf_cons_call (e := ⟨i, _, _⟩) rfl] at hcalled
        exact known_cons (hfound i) keyHash key hcalled
      . rw [eventsOf_cons_ne hj] at hcalled
        exact (hfound j keyHash key hcalled).exec

theorem KeyMachine.Reachable.keysSound_store {m : KeyMachine} (hs : KeysSound s)
    (hm : KeyMachine.Reachable cfg s m) : KeysSound m.store := by
  refine Reaches.store_inv (P := KeysSound) (fun n _ hs => hs.advance n) hs ?_ hm
  intro _ e _ _ _ hpre
  rcases e.post_cases (semantics cfg) with hsame | ⟨ev, d, _, hexec⟩
  . rw [hsame]
    exact hpre
  . rw [hexec]
    exact hpre.exec

/--
There is something to answer about a row with: an answer in the cache, or the row itself. It does not say
whether the row is expired.
-/
def Served (draws : Nat → Draw) (s : Server) (keyHash : String) (row : ApiKeyRow) : Prop :=
  ((draws 0).fault = none ∧ (s.cached (cacheKey keyHash)).isSome = true)
    ∨ ((draws 1).fault = none ∧ row.revokedAt = none ∧ row.serviceAccountId.isSome = true)

theorem CacheBuilt.hit (hcache : CacheBuilt s) (hhit : ApiKeyVerifier.hit d s keyHash = some r) :
    ∃ key, r = buildResponse key ∧ Known s keyHash key := by
  rcases Server.cached_eq_some.mp (hit_eq_some.mp hhit).2 with ⟨entry, hentry, _, hvalue⟩
  rcases hcache keyHash entry hentry with ⟨key, hbuilt, hknown⟩
  rw [hbuilt] at hvalue
  injection hvalue with hvalue
  exact ⟨key, hvalue.symm, hknown⟩

/--
A live entry is found, unless Redis fails.
-/
theorem CacheBuilt.hit_isSome (hcache : CacheBuilt s) (hfault : d.fault = none)
    (hcached : (s.cached (cacheKey keyHash)).isSome = true)
    : (ApiKeyVerifier.hit d s keyHash).isSome = true := by
  rcases Option.isSome_iff_exists.mp hcached with ⟨value, hvalue⟩
  rcases Server.cached_eq_some.mp hvalue with ⟨entry, hentry, _, rfl⟩
  rcases hcache keyHash entry hentry with ⟨key, hbuilt, _⟩
  rw [hbuilt] at hvalue
  rw [hit_eq_some.mpr ⟨hfault, hvalue⟩]
  rfl

/--
An answer that is active was built from a row, and there was something to answer with.
-/
theorem CacheBuilt.answer_active (hcache : CacheBuilt s)
    (hactive : (answer draws s keyHash).active = true)
    : ∃ key row, answer draws s keyHash = buildResponse key ∧ s.apiKeys.lookup key.id = some row
        ∧ row.keyHash = keyHash ∧ Reflects key row ∧ Served draws s keyHash row := by
  unfold answer at hactive ⊢
  cases hhit : ApiKeyVerifier.hit (draws 0) s keyHash with
  | some r =>
    rw [hhit] at hactive
    rcases hcache.hit hhit with ⟨key, rfl, row, hrow, hhash, hreflects⟩
    refine ⟨key, row, ?_, hrow, hhash, hreflects, .inl ?_⟩
    . dsimp only at hactive ⊢
      unfold cachedAnswer at hactive ⊢
      split at hactive
      . split at hactive
        . contradiction
        . next hlive => exact if_neg hlive
      . rfl
    . rw [(hit_eq_some.mp hhit).2]
      exact ⟨(hit_eq_some.mp hhit).1, rfl⟩
  | none =>
    rw [hhit] at hactive
    cases hfound : found (draws 1) s keyHash with
    | none =>
      rw [hfound] at hactive
      contradiction
    | some key =>
      rw [hfound] at hactive
      dsimp only at hactive ⊢
      by_cases husable : Usable keyHash key s.now
      . rcases found_eq_some.mp hfound with ⟨hfault, _, hread⟩
        rcases findByHash_ok hread with ⟨row, hrow, hhash, hdecode⟩
        rcases decodeApiKey_ok hdecode with ⟨haccount, _, _, _, _, _, _, hrevoked⟩
        refine ⟨key, row, keyAnswer_usable husable, hrow, hhash, reflects_of_decode hdecode, .inr ?_⟩
        rw [← hrevoked, haccount]
        exact ⟨hfault, husable.unrevoked, rfl⟩
      . rw [keyAnswer_unusable husable] at hactive
        contradiction

/--
An answer that is not active says nothing else.
-/
theorem CacheBuilt.answer_inactive (hcache : CacheBuilt s)
    (hinactive : (answer draws s keyHash).active = false)
    : answer draws s keyHash = .inactive := by
  unfold answer at hinactive ⊢
  cases hhit : ApiKeyVerifier.hit (draws 0) s keyHash with
  | some r =>
    rw [hhit] at hinactive
    rcases hcache.hit hhit with ⟨key, rfl, _⟩
    dsimp only at hinactive ⊢
    unfold cachedAnswer at hinactive ⊢
    split at hinactive
    . split at hinactive
      . next hexpired => exact if_pos hexpired
      . contradiction
    . contradiction
  | none =>
    rw [hhit] at hinactive
    cases hfound : found (draws 1) s keyHash with
    | none => rfl
    | some key =>
      rw [hfound] at hinactive
      dsimp only at hinactive ⊢
      by_cases husable : Usable keyHash key s.now
      . rw [keyAnswer_usable husable] at hinactive
        contradiction
      . exact keyAnswer_unusable husable

/--
A key that was read of the hash of a row was read of this row.
-/
theorem KeysSound.known (hkeys : KeysSound s) {id : String} {row : ApiKeyRow}
    (hrow : s.apiKeys.lookup id = some row) (hknown : Known s row.keyHash key)
    : key.id = id ∧ Reflects key row := by
  rcases hknown with ⟨row', hrow', hhash, hreflects⟩
  have hid := hkeys.unique key.id id row' row hrow' hrow hhash
  subst hid
  rw [hrow] at hrow'
  injection hrow' with hrow'
  subst hrow'
  exact ⟨rfl, hreflects⟩

/--
A row that is not expired is answered with whenever there is something to answer with.
-/
theorem CacheBuilt.answer_served (hcache : CacheBuilt s) (hkeys : KeysSound s) {id : String}
    {row : ApiKeyRow} (hrow : s.apiKeys.lookup id = some row)
    (hexpires : ∀ exp, row.expiresAt = some exp → s.now ≤ exp)
    (hserved : Served draws s row.keyHash row)
    : ∃ key, answer draws s row.keyHash = buildResponse key ∧ Reflects key row := by
  unfold answer
  cases hhit : ApiKeyVerifier.hit (draws 0) s row.keyHash with
  | some r =>
    rcases hcache.hit hhit with ⟨key, rfl, hknown⟩
    rcases hkeys.known hrow hknown with ⟨_, hreflects⟩
    exact ⟨key, cachedAnswer_unexpired (hreflects.expiresAt ▸ hexpires), hreflects⟩
  | none =>
    rcases hserved with ⟨hfault, hcached⟩ | ⟨hfault, hrevoked, haccount⟩
    . have hsome := hcache.hit_isSome hfault hcached
      rw [hhit] at hsome
      contradiction
    . rcases Option.isSome_iff_exists.mp haccount with ⟨account, haccount⟩
      have hfound : found (draws 1) s row.keyHash = some {
          id := id
          tenantId := row.tenantId
          serviceAccountId := account
          project := row.project
          keyHash := row.keyHash
          keyPrefix := row.keyPrefix
          scopes := row.scopes
          expiresAt := row.expiresAt
          revokedAt := row.revokedAt } := by
        apply found_eq_some.mpr
        refine ⟨hfault, (hkeys.storable id row hrow).2, ?_⟩
        unfold findByHash
        rw [hkeys.byHash hrow]
        unfold decodeApiKey
        dsimp only
        rw [haccount]
        rfl
      rw [hfound]
      exact ⟨_, keyAnswer_usable ⟨rfl, hrevoked, hexpires⟩, ⟨.inl haccount, rfl, rfl, rfl, rfl, rfl⟩⟩

/--
The contract of the answers: an active one is valid, and one that is not says nothing else.
-/
structure Contract (r : IntrospectResponse) : Prop where
  valid : r.active = true → r.validate = .ok ()
  silent : r.active = false → r = .inactive

theorem contract_inactive : Contract .inactive :=
  ⟨nofun, fun _ => rfl⟩

theorem contract_mkActive {tenantId userId clientId scope tokenFormat : String}
    {identityType : IdentityType} {exp : Int} {quotas : Option (List (String × Json))} :
    Contract (.mkActive tenantId userId identityType clientId scope exp quotas tokenFormat) :=
  ⟨fun _ => rfl, nofun⟩

/--
What is built from a key is valid unless the key has no expiry, whatever format is reported.
-/
theorem contract_buildResponse :
    Contract (TokenVerifier.format token (buildResponse key)) ↔ key.expiresAt ≠ none := by
  have hvalid : ∀ r : IntrospectResponse, r.active = true → r.tenantId.isSome = true →
      r.scope.isSome = true → (r.validate = .ok () ↔ r.exp ≠ none) := by
    intro r hactive htenant hscope
    unfold IntrospectResponse.validate
    cases hexp : r.exp with
    | none => simp [hactive, ← Option.not_isSome, htenant, hscope]
    | some exp => simp [hactive, ← Option.not_isSome, htenant, hscope]
  have hexp : ∀ r : IntrospectResponse, r = TokenVerifier.format token (buildResponse key) →
      r.active = true ∧ r.tenantId.isSome = true ∧ r.scope.isSome = true
        ∧ (r.exp ≠ none ↔ key.expiresAt ≠ none) := by
    rintro r rfl
    unfold TokenVerifier.format buildResponse
    split
    . simp
    . simp
  rcases hexp _ rfl with ⟨hactive, htenant, hscope, hexp⟩
  rw [← hexp, ← hvalid _ hactive htenant hscope]
  constructor
  . intro h
    exact h.valid hactive
  . intro h
    refine ⟨fun _ => h, ?_⟩
    intro hinactive
    rw [hactive] at hinactive
    contradiction

/--
In every state of every execution, the answer to a token fulfils its contract if and only if the token is
not a credential without an expiry that there is something to answer with about.
-/
theorem introspection_contract (cfg : Config) (s : Server) (hkeys : KeysSound s)
    (hcache : CacheBuilt s) (m : KeyMachine) (hm : KeyMachine.Reachable cfg s m) (token : String)
    (draws : Nat → Draw) :
    Contract ((TokenVerifier.verify cfg token).run (semantics cfg) draws m.store).1
      ↔
    (∀ raw id row, extractRawFromKey token = some raw → m.store.apiKeys.lookup id = some row →
      row.keyHash = cfg.sha256 raw → row.expiresAt = none →
        ¬Served draws m.store (cfg.sha256 raw) row) := by
  have hkeys := hm.keysSound_store hkeys
  rcases hm.cacheBuilt hcache with ⟨hcache, _⟩
  cases hraw : extractRawFromKey token with
  | none =>
    refine iff_of_true ?_ fun _ _ _ h => by cases h
    cases hjwt : startsWith token "eyJ" with
    | false =>
      rw [TokenVerifier.run_verify_malformed hraw hjwt]
      exact contract_inactive
    | true =>
      unfold TokenVerifier.verify
      rw [hjwt, if_pos rfl]
      rcases @JwtVerifier.run_verify cfg m.store draws token with
        hinactive | ⟨claims, _, hreport⟩
      . rw [hinactive]
        exact contract_inactive
      . rw [hreport]
        exact contract_mkActive
  | some raw =>
    rw [TokenVerifier.run_verify_key hraw]
    constructor
    . rintro hcontract raw' id row hraw' hrow hhash hexpires hserved
      injection hraw' with hraw'
      subst hraw'
      rw [← hhash] at hcontract hserved
      rcases hcache.answer_served hkeys hrow (by simp [hexpires]) hserved with
        ⟨key, hanswer, hreflects⟩
      rw [hanswer] at hcontract
      exact contract_buildResponse.mp hcontract (hreflects.expiresAt.symm.trans hexpires)
    . intro hcond
      cases hactive : (answer draws m.store (cfg.sha256 raw)).active with
      | false =>
        rw [hcache.answer_inactive hactive]
        exact contract_inactive
      | true =>
        rcases hcache.answer_active hactive with ⟨key, row, hanswer, hrow, hhash, hreflects, hserved⟩
        rw [hanswer]
        apply contract_buildResponse.mpr
        intro hexpires
        exact hcond raw key.id row rfl hrow hhash (hreflects.expiresAt.trans hexpires) hserved

namespace Sample

/--
A key that expires in 35 seconds.
-/
def expiringServer : Server :=
  { keyServer with
    apiKeys := keyServer.apiKeys.updateAt keyId fun row =>
      { row with expiresAt := some (now + Instant.seconds 35) } }

theorem updateAt_sound {id : String} {f : ApiKeyRow → ApiKeyRow} (hkeys : KeysSound s)
    (hf : ∀ row, (f row).keyHash = row.keyHash)
    : KeysSound { s with apiKeys := s.apiKeys.updateAt id f } := by
  have hrows : ∀ id' row, (s.apiKeys.updateAt id f).lookup id' = some row →
      ∃ row', s.apiKeys.lookup id' = some row' ∧ row.keyHash = row'.keyHash := by
    intro id' row hrow
    rw [Table.lookup_updateAt] at hrow
    split at hrow
    . rcases Option.map_eq_some_iff.mp hrow with ⟨row', hrow', rfl⟩
      exact ⟨row', hrow', hf row'⟩
    . exact ⟨row, hrow, rfl⟩
  constructor
  . intro id₁ id₂ row₁ row₂ hrow₁ hrow₂ hhash
    rcases hrows id₁ row₁ hrow₁ with ⟨row₁', hrow₁', hhash₁⟩
    rcases hrows id₂ row₂ hrow₂ with ⟨row₂', hrow₂', hhash₂⟩
    apply hkeys.unique id₁ id₂ row₁' row₂' hrow₁' hrow₂'
    rw [← hhash₁, ← hhash₂, hhash]
  . intro id' row hrow
    rcases hrows id' row hrow with ⟨row', hrow', hhash⟩
    rw [hhash]
    exact hkeys.storable id' row' hrow'

theorem expiringServer_sound : KeysSound expiringServer :=
  updateAt_sound keyServer_sound fun _ => rfl

theorem uncached_built (hempty : ∀ key, s.redis key = none) : CacheBuilt s := by
  intro keyHash entry hentry
  rw [hempty] at hentry
  contradiction

theorem expiringServer_expires :
    (expiringServer.apiKeys.select fun _ row => row.expiresAt = none).isEmpty = true := by
  decide +kernel

end Sample

open Sample in
theorem introspection_contract_expiring :
    Contract ((TokenVerifier.verify config keyToken).run (semantics config) (fun _ => draw 1)
      (init expiringServer : KeyMachine).store).1 := by
  refine (introspection_contract config expiringServer expiringServer_sound (uncached_built fun _ => rfl)
    (init expiringServer) reachable_init keyToken (fun _ => draw 1)).mpr ?_
  intro raw id row _ hrow _ hexpires
  have hsome : (expiringServer.apiKeys.select fun _ row => row.expiresAt = none).isEmpty = false :=
    Table.isEmpty_select.mpr ⟨id, row, hrow, decide_eq_true hexpires⟩
  rw [expiringServer_expires] at hsome
  cases hsome

open Sample in
/--
The answer about a key without an expiry is active but not valid.
-/
theorem introspection_contract_perpetual :
    KeysSound keyServer ∧ CacheBuilt keyServer
      ∧ KeyMachine.Reachable config keyServer (init keyServer)
      ∧ ((TokenVerifier.verify config keyToken).run (semantics config) (fun _ => draw 1)
          keyServer).1.active = true
      ∧ ((TokenVerifier.verify config keyToken).run (semantics config) (fun _ => draw 1)
          keyServer).1.validate.isOk = false := by
  refine ⟨keyServer_sound, uncached_built fun _ => rfl, reachable_init, ?_⟩
  decide +kernel

end Aspectus
