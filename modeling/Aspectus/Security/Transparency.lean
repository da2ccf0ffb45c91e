import Aspectus.Security.Answers

/-!
This module contains that the cache of the introspection does not change any answer, as long as nothing
happens to the keys.
-/

namespace Aspectus

open Interaction Prog Statement ApiKeyVerifier

variable {cfg : Config} {s s' : Server} {draws : Nat → Draw} {d : Draw} {token keyHash : String}

/--
The state after some verifications that run one after the other.
-/
abbrev verified (cfg : Config) (visits : List (Visit String Draw)) (s : Server) : Server :=
  (serveAll (semantics cfg) (ApiKeyVerifier.verify cfg) visits s).2

/--
Everything in the cache was built from the row as it still is, and is gone when the row expires.
-/
def CacheExact (s : Server) : Prop :=
  ∀ keyHash entry, s.redis (ApiKeyVerifier.cacheKey keyHash) = some entry →
    ∃ key, (∀ d : Draw, d.fault = none → found d s keyHash = some key)
      ∧ entry.value = .response (buildResponse key)
      ∧ key.keyHash = keyHash ∧ key.revokedAt = none
      ∧ ∀ exp, key.expiresAt = some exp → entry.EndsBy exp

/--
A verification only looks at the keys.
-/
theorem found_congr (h : s.apiKeys = s'.apiKeys) : found d s keyHash = found d s' keyHash := by
  have hfind : findByHash keyHash s = findByHash keyHash s' := by
    unfold findByHash byHash
    rw [h]
  apply Option.ext
  intro key
  rw [found_eq_some, found_eq_some, hfind]

theorem setEx_apiKeys (key : String) (value : CacheValue) (ttlSecs : Nat) :
    (s.setEx key value ttlSecs).apiKeys = s.apiKeys := by
  unfold Server.setEx
  split
  . rfl
  . rfl

/--
Only what was just read is stored, and for no longer than it is valid.
-/
theorem CacheExact.stores {key : ApiKey} (hcache : CacheExact s)
    (hfound : found d s keyHash = some key) (husable : Usable keyHash key s.now)
    (hstores : Stores s keyHash key s') : CacheExact s' := by
  rcases hstores with rfl | rfl
  . exact hcache
  . intro keyHash' entry hentry
    simp only [found_congr (setEx_apiKeys _ _ _)]
    rcases setEx_redis hentry with hold | ⟨hkey, httl, rfl⟩
    . exact hcache keyHash' entry hold
    . have hhash : keyHash' = keyHash := append_right_injective hkey
      subst hhash
      refine ⟨key, ?_, rfl, husable.keyHash, husable.unrevoked, ?_⟩
      . intro d' hfault
        have hread := found_eq_some.mp hfound
        exact found_eq_some.mpr ⟨hfault, hread.2⟩
      . intro exp hexp
        rw [hexp] at httl ⊢
        exact ⟨_, rfl, computeCacheTtl_le httl⟩

theorem CacheExact.verify (hcache : CacheExact s) :
    CacheExact ((ApiKeyVerifier.verify cfg token).run (semantics cfg) draws s).2.2 := by
  cases hraw : extractRawFromKey token with
  | none =>
    rw [run_verify_malformed hraw]
    exact hcache
  | some raw =>
    rcases (@run_verify cfg s draws token raw hraw).2 with
      hsame | ⟨key, hfound, husable, hstores⟩
    . rw [hsame]
      exact hcache
    . exact hcache.stores hfound husable hstores

theorem CacheExact.advance (hcache : CacheExact s) (n : Nat) : CacheExact (s.advance n) := by
  intro keyHash entry hentry
  simp only [@found_congr (s.advance n) s _ _ rfl]
  exact hcache keyHash entry hentry

theorem CacheExact.verified (hcache : CacheExact s) (visits : List (Visit String Draw)) :
    CacheExact (verified cfg visits s) :=
  serveAll_inv (P := CacheExact) (fun _ _ hs => hs.verify) (fun n _ hs => hs.advance n) visits hcache

/--
The cache gives the answer that the database would give.
-/
theorem CacheExact.answer (hcache : CacheExact s) (hfault : (draws 1).fault = none) :
    ApiKeyVerifier.answer draws s keyHash
      = ApiKeyVerifier.answer draws { s with redis := fun _ => none } keyHash := by
  have huncached : hit (draws 0) { s with redis := fun _ => none } keyHash = none := hit_uncached rfl
  have hfound : found (draws 1) { s with redis := fun _ => none } keyHash = found (draws 1) s keyHash :=
    found_congr rfl
  unfold ApiKeyVerifier.answer
  rw [huncached, hfound]
  cases hhit : hit (draws 0) s keyHash with
  | none => rfl
  | some r =>
    rcases Server.cached_eq_some.mp (hit_eq_some.mp hhit).2 with ⟨entry, hentry, hlive, hvalue⟩
    rcases hcache keyHash entry hentry with ⟨key, hread, hbuilt, hhash, hrevoked, hexpires⟩
    have husable : Usable keyHash key s.now := by
      refine ⟨hhash, hrevoked, ?_⟩
      intro exp hexp
      exact Int.le_of_lt ((hexpires exp hexp).lt hlive)
    rw [hbuilt] at hvalue
    injection hvalue with hvalue
    subst hvalue
    rw [hread _ hfault]
    dsimp only
    rw [keyAnswer_usable husable]
    exact cachedAnswer_unexpired husable.unexpired

/--
Starting with no answer in the cache, after any verifications at any times, every verification answers what
it would answer without the cache, if its statement does not fail. The commands of Redis may fail.
-/
theorem introspection_cache_transparent (cfg : Config) (s : Server)
    (hempty : ∀ keyHash, s.redis (ApiKeyVerifier.cacheKey keyHash) = none)
    (visits : List (Visit String Draw)) (token : String) (draws : Nat → Draw)
    (hfault : (draws 1).fault = none) :
    ((ApiKeyVerifier.verify cfg token).run (semantics cfg) draws (verified cfg visits s)).1
      =
    ((ApiKeyVerifier.verify cfg token).run (semantics cfg) draws
      { verified cfg visits s with redis := fun _ => none }).1 := by
  have hcache : CacheExact (verified cfg visits s) := by
    apply CacheExact.verified
    intro keyHash entry hentry
    rw [hempty] at hentry
    contradiction
  cases hraw : extractRawFromKey token with
  | none => rw [run_verify_malformed hraw, run_verify_malformed hraw]
  | some raw =>
    rw [(run_verify hraw).1, (run_verify hraw).1]
    exact hcache.answer hfault

namespace Sample

/--
The second verification is answered from the cache, which keeps the answer for 3 seconds. After it the key
expires.
-/
def verifications : List (Visit String Draw) :=
  [⟨keyToken, fun _ => draw 1, 2000000⟩, ⟨keyToken, fun _ => draw 2, 33000001⟩]

end Sample

open Sample in
theorem introspection_cache_transparent_expired :
    ((ApiKeyVerifier.verify config keyToken).run (semantics config) (fun _ => draw 3)
        (verified config verifications expiringServer)).1
      =
    ((ApiKeyVerifier.verify config keyToken).run (semantics config) (fun _ => draw 3)
        { verified config verifications expiringServer with redis := fun _ => none }).1 :=
  introspection_cache_transparent config expiringServer (fun _ => rfl) verifications keyToken
    (fun _ => draw 3) rfl

end Aspectus
