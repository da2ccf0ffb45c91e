import Aspectus.Discipline.Keys
import Aspectus.Store.Rows

/-!
This module contains when a credential of a service account cannot be verified any more: its row does
not pass the checks, and there is no answer in the cache. Nothing but a verification that has read the
row before brings such an answer back.
-/

namespace Aspectus

open Interaction Statement

variable {cfg : Config} {d : Draw} {s s' : Server} {o : Op} {keyHash : String}

/--
What the database guarantees about API keys: there is a unique index on the hash, and texts do not
contain a zero byte.
-/
structure KeysSound (s : Server) : Prop where
  unique : ∀ id id' row row', s.apiKeys.lookup id = some row → s.apiKeys.lookup id' = some row' →
    row.keyHash = row'.keyHash → id = id'
  storable : ∀ id row, s.apiKeys.lookup id = some row →
    storable id = true ∧ storable row.keyHash = true

theorem KeysSound.exec (h : KeysSound s) : KeysSound (o.exec cfg d s).2 := by
  have hstep := Op.exec_apiKeys cfg d s o
  constructor
  . intro id id' row row' hrow hrow' hhash
    rcases hstep id row hrow with ⟨r, hr, hkept⟩ | ⟨params, rfl, hid, hkey, hnone, _⟩
    . rcases hstep id' row' hrow' with ⟨r', hr', hkept'⟩ | ⟨params, rfl, _, hkey', hnone, _⟩
      . apply h.unique id id' r r' hr hr'
        rw [← hkept.keyHash, ← hkept'.keyHash, hhash]
      . refine absurd ?_ (byHash_none hnone hr)
        rw [← hkept.keyHash, hhash, hkey']
    . rcases hstep id' row' hrow' with ⟨r', hr', hkept'⟩ | ⟨params', heq, hid', _⟩
      . refine absurd ?_ (byHash_none hnone hr')
        rw [← hkept'.keyHash, ← hhash, hkey]
      . injection heq with heq
        injection heq with heq
        rw [← hid, ← hid', heq]
  . intro id row hrow
    rcases hstep id row hrow with ⟨r, hr, hkept⟩ | ⟨_, _, _, _, _, hid, hhash⟩
    . rw [hkept.keyHash]
      exact h.storable id r hr
    . exact ⟨hid, hhash⟩

theorem KeysSound.advance (h : KeysSound s) (n : Nat) : KeysSound (s.advance n) :=
  ⟨h.unique, h.storable⟩

/--
The row of a unique hash is the one that is found.
-/
theorem KeysSound.byHash (hkeys : KeysSound s) {id : String} {row : ApiKeyRow}
    (hrow : s.apiKeys.lookup id = some row)
    : Statement.byHash row.keyHash s = some (id, row) := by
  cases hfind : Statement.byHash row.keyHash s with
  | none => exact absurd rfl (byHash_none hfind hrow)
  | some entry =>
    rcases entry with ⟨id', row'⟩
    rcases byHash_some hfind with ⟨hrow', hhash'⟩
    have hid := hkeys.unique id' id row' row hrow' hrow hhash'
    subst hid
    rw [hrow] at hrow'
    injection hrow' with hrow'
    rw [hrow']

/--
There is a row for the hash, but none that passes a verification.
-/
structure Dead (keyHash : String) (s : Server) : Prop where
  present : ∃ id row, s.apiKeys.lookup id = some row ∧ row.keyHash = keyHash
  unusable : ∀ id row, s.apiKeys.lookup id = some row → row.keyHash = keyHash →
    row.revokedAt.isSome = true ∨ row.serviceAccountId = none

/--
The row of a unique hash is enough to know that it is dead.
-/
theorem KeysSound.dead (h : KeysSound s) {id : String} {row : ApiKeyRow}
    (hrow : s.apiKeys.lookup id = some row)
    (hunusable : row.revokedAt.isSome = true ∨ row.serviceAccountId = none)
    : Dead row.keyHash s := by
  refine ⟨⟨id, row, hrow, rfl⟩, ?_⟩
  intro id' row' hrow' hhash
  have hid := h.unique id' id row' row hrow' hrow hhash
  subst hid
  rw [hrow] at hrow'
  injection hrow' with hrow'
  rw [← hrow']
  exact hunusable

theorem Dead.exec (h : Dead keyHash s) : Dead keyHash (o.exec cfg d s).2 := by
  rcases h.present with ⟨id, row, hrow, hhash⟩
  constructor
  . rcases (Op.exec_evolves d s cfg o).apiKeys id row hrow with ⟨row', hrow', hkept⟩
    exact ⟨id, row', hrow', hkept.keyHash.trans hhash⟩
  . intro id' row' hrow' hhash'
    rcases Op.exec_apiKeys cfg d s o id' row' hrow' with
      ⟨r, hr, hkept⟩ | ⟨params, _, _, hkey, hnone, _⟩
    . rcases h.unusable id' r hr (hkept.keyHash ▸ hhash') with hrevoked | haccount
      . rcases Option.isSome_iff_exists.mp hrevoked with ⟨at_, hat⟩
        rw [hkept.revokedAt at_ hat]
        exact .inl rfl
      . exact .inr (hkept.serviceAccountId haccount)
    . refine absurd ?_ (byHash_none hnone hrow)
      rw [hhash, ← hhash', hkey]

theorem Dead.advance (h : Dead keyHash s) (n : Nat) : Dead keyHash (s.advance n) :=
  ⟨h.present, h.unusable⟩

/--
A dead row is not found, or found to be revoked.
-/
theorem Dead.found (h : Dead keyHash s) {key : ApiKey}
    (hfound : Statement.findByHash keyHash s = .ok (some key)) : key.revokedAt ≠ none := by
  rcases findByHash_ok hfound with ⟨row, hrow, hhash, hdecode⟩
  rcases decodeApiKey_ok hdecode with ⟨haccount, _, _, _, _, _, _, hrevokedAt⟩
  intro hnone
  rcases h.unusable _ row hrow hhash with hrevoked | hunowned
  . rw [← hrevokedAt, hnone] at hrevoked
    contradiction
  . rw [hunowned] at haccount
    contradiction

/--
Neither the database nor the cache has an answer for the hash.
-/
structure Killed (keyHash : String) (s : Server) : Prop where
  dead : Dead keyHash s
  uncached : s.cached (ApiKeyVerifier.cacheKey keyHash) = none

/--
An answer for the hash is stored in the cache.
-/
def Op.caches (keyHash : String) (o : Op) : Prop :=
  (∃ value ttlSecs, o = .cache (.setJson (ApiKeyVerifier.cacheKey keyHash) value ttlSecs))
    ∨ ∃ value ttlSecs, o = .cache (.set (ApiKeyVerifier.cacheKey keyHash) value ttlSecs)

theorem Killed.exec (h : Killed keyHash s) (ho : ¬o.caches keyHash) :
    Killed keyHash (o.exec cfg d s).2 := by
  refine ⟨h.dead.exec, ?_⟩
  by_contra hcached
  rcases Option.ne_none_iff_exists'.mp hcached with ⟨value, hvalue⟩
  rcases Op.exec_cached hvalue with hold | ⟨v, ttl, heq⟩ | ⟨v, ttl, heq⟩ | ⟨name, bucket, hkey⟩
  . rw [h.uncached] at hold
    contradiction
  . exact ho (.inl ⟨v, ttl, heq⟩)
  . exact ho (.inr ⟨v, ttl, heq⟩)
  . exact rateLimitKey_ne name bucket keyHash hkey.symm

theorem Killed.advance (h : Killed keyHash s) (n : Nat) : Killed keyHash (s.advance n) := by
  refine ⟨h.dead.advance n, ?_⟩
  by_contra hcached
  rcases Option.ne_none_iff_exists'.mp hcached with ⟨value, hvalue⟩
  have hold := Server.cached_of_advance hvalue
  rw [h.uncached] at hold
  contradiction

/--
No operation vouches for the hash.
-/
theorem Killed.silent (h : Killed keyHash s) :
    (∀ cached, (Op.exec cfg (.cache (.getJson (ApiKeyVerifier.cacheKey keyHash))) d s).1 ≠ some cached)
      ∧ ∀ key, (Op.exec cfg (.key (.findByHash keyHash)) d s).1 = .ok (some key) →
        key.revokedAt ≠ none := by
  constructor
  . intro cached
    unfold Op.exec CacheOp.exec
    dsimp only
    rw [h.uncached]
    simp
  . intro key hfound
    exact h.dead.found (query_ok hfound)

/--
Hence events do not vouch for the hash either.
-/
theorem Killed.not_vouched (h : Killed keyHash s) {events : List (Event Api)}
    (hv : Vouched (⟨o, (o.exec cfg d s).1⟩ :: events) keyHash) : Vouched events keyHash := by
  rcases hv with ⟨cached, hcached⟩ | ⟨key, hfound, hrevoked⟩
  . rcases List.mem_cons.mp hcached with heq | hold
    . injection heq with ho hr
      subst ho
      exact absurd (eq_of_heq hr).symm (h.silent.1 cached)
    . exact .inl ⟨cached, hold⟩
  . rcases List.mem_cons.mp hfound with heq | hold
    . injection heq with ho hr
      subst ho
      exact absurd hrevoked (h.silent.2 key (eq_of_heq hr).symm)
    . exact .inr ⟨key, hold, hrevoked⟩

/--
A request that is allowed to cache an answer for the hash was vouched for.
-/
theorem KeyAllowed.caches {q : KeyRequest} {h : List (Event Api)} (hallowed : KeyAllowed q h o)
    (hcaches : o.caches keyHash)
    : ∃ key, Called h (.key (.findByHash keyHash)) (.ok (some key)) ∧ key.revokedAt = none := by
  rcases hcaches with ⟨value, ttl, rfl⟩ | ⟨value, ttl, rfl⟩
  . rcases hallowed with ⟨keyHash', key, heq, hmay⟩
    have : keyHash = keyHash' := append_right_injective heq
    subst this
    exact ⟨key, hmay.found, hmay.unrevoked⟩
  . exact absurd rfl (hallowed keyHash)

end Aspectus
