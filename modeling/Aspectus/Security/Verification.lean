import Aspectus.Discipline.Audit
import Aspectus.Security.Revocation

/-!
This module contains what the verification of a token answers and leaves behind when it runs on its own.
-/

namespace Aspectus

open Interaction Prog Statement

variable {cfg : Config} {s s' : Server} {draws : Nat → Draw} {d d' : Draw} {token keyHash : String}
  {raw : List UInt8} {key : ApiKey} {r : IntrospectResponse}

namespace ApiKeyVerifier

/--
What the cache answers about a credential.
-/
def hit (d : Draw) (s : Server) (keyHash : String) : Option IntrospectResponse :=
  (CacheOp.exec d s (.getJson (cacheKey keyHash))).1

/--
What the database answers about a credential, if that can be read.
-/
def found (d : Draw) (s : Server) (keyHash : String) : Option ApiKey :=
  match (KeyOp.exec d s (.findByHash keyHash)).1 with
  | .ok key => key
  | .error _ => none

theorem hit_eq_some :
    hit d s keyHash = some r ↔ d.fault = none ∧ s.cached (cacheKey keyHash) = some (.response r) := by
  unfold hit CacheOp.exec
  dsimp only
  split
  . next hfault hcached =>
    rw [hfault, hcached]
    simp
  . next hnone =>
    constructor
    . nofun
    . rintro ⟨hfault, hcached⟩
      exact absurd hcached (hnone _ hfault)

theorem hit_uncached (h : s.cached (cacheKey keyHash) = none) : hit d s keyHash = none := by
  rw [Option.eq_none_iff_forall_ne_some]
  intro r hr
  rw [(hit_eq_some.mp hr).2] at h
  contradiction

theorem found_eq_some :
    found d s keyHash = some key
      ↔
    d.fault = none ∧ storable keyHash = true ∧ findByHash keyHash s = .ok (some key) := by
  have hfound : found d s keyHash = some key
      ↔ (query d [keyHash] (findByHash keyHash) s).1 = .ok (some key) := by
    unfold found KeyOp.exec
    dsimp only
    cases (query d [keyHash] (findByHash keyHash) s).1 with
    | error e => simp
    | ok key' => simp
  rw [hfound]
  constructor
  . intro hquery
    rcases run_accepted hquery with ⟨hfault, hstorable⟩
    exact ⟨hfault, by simpa using hstorable, query_ok hquery⟩
  . rintro ⟨hfault, hstorable, hfind⟩
    rw [query_healthy hfault (by simpa using hstorable) hfind]

/--
The answer to a cache hit at `now`.
-/
def cachedAnswer (cached : IntrospectResponse) (now : Instant) : IntrospectResponse :=
  match cached.exp with
  | some exp => if exp < now.timestamp then .inactive else cached
  | none => cached

/--
An answer that was cached is given until the key expires, seconds are rounded the same way on both sides.
-/
theorem cachedAnswer_unexpired {now : Instant} (h : ∀ exp, key.expiresAt = some exp → now ≤ exp) :
    cachedAnswer (buildResponse key) now = buildResponse key := by
  unfold cachedAnswer
  split
  . next exp hexp =>
    rcases Option.map_eq_some_iff.mp hexp with ⟨expiresAt, hexpiresAt, rfl⟩
    have hle : now.timestamp ≤ expiresAt.timestamp :=
      Int.ediv_le_ediv (by decide) (h expiresAt hexpiresAt)
    exact if_neg (Int.not_lt.mpr hle)
  . rfl

/--
Whether a row passes the checks of a verification at `now`.
-/
structure Usable (keyHash : String) (key : ApiKey) (now : Instant) : Prop where
  keyHash : key.keyHash = keyHash
  unrevoked : key.revokedAt = none
  unexpired : ∀ exp, key.expiresAt = some exp → now ≤ exp

theorem run_verifyCached :
    ((verifyCached r).run (semantics cfg) draws s).1 = cachedAnswer r s.now
      ∧ ((verifyCached r).run (semantics cfg) draws s).2.2 = s := by
  unfold verifyCached cachedAnswer
  cases r.exp with
  | none => exact ⟨rfl, rfl⟩
  | some exp =>
    unfold App.host
    dsimp only
    rw [run_clock]
    split
    . exact ⟨rfl, rfl⟩
    . exact ⟨rfl, rfl⟩

/--
The state after an answer was stored in the cache, unless that failed.
-/
def Stores (s : Server) (keyHash : String) (key : ApiKey) (s' : Server) : Prop :=
  s' = s ∨ s' = s.setEx (cacheKey keyHash) (.response (buildResponse key))
    (computeCacheTtl key.expiresAt s.now)

theorem setJson_stores :
    Stores s keyHash key ((semantics cfg).exec (.cache (.setJson (cacheKey keyHash) (buildResponse key)
      (computeCacheTtl key.expiresAt s.now))) d s).2 := by
  change Stores s keyHash key (CacheOp.exec d s (.setJson _ _ _)).2
  unfold CacheOp.exec
  dsimp only
  split
  . exact .inl rfl
  . exact .inr rfl

theorem run_verifyActive :
    ((verifyActive keyHash key).run (semantics cfg) draws s).1 = buildResponse key
      ∧ Stores s keyHash key ((verifyActive keyHash key).run (semantics cfg) draws s).2.2 := by
  unfold verifyActive
  dsimp only
  split
  . next exp hexp =>
    refine ⟨rfl, ?_⟩
    apply setJson_stores
  . next hexp =>
    refine ⟨rfl, ?_⟩
    have hstores := @setJson_stores cfg s (draws 0) keyHash key
    rw [hexp] at hstores
    exact hstores

/--
The answer to a row at `now`.
-/
def keyAnswer (keyHash : String) (key : ApiKey) (now : Instant) : IntrospectResponse :=
  if key.keyHash ≠ keyHash ∨ key.revokedAt.isSome ∨ key.expiresAt.any (· < now) then
    .inactive
  else
    buildResponse key

theorem usable_iff {now : Instant} :
    Usable keyHash key now
      ↔
    ¬(key.keyHash ≠ keyHash ∨ key.revokedAt.isSome ∨ key.expiresAt.any (· < now)) := by
  constructor
  . rintro ⟨hhash, hrevoked, hexp⟩
    rw [hhash, hrevoked]
    cases hexpires : key.expiresAt with
    | none => simp
    | some exp => simpa using hexp exp hexpires
  . intro hchecks
    simp only [not_or, ne_eq, not_not, Option.not_isSome_iff_eq_none] at hchecks
    rcases hchecks with ⟨hhash, hrevoked, hexp⟩
    refine ⟨hhash, hrevoked, ?_⟩
    intro exp hexpires
    rw [hexpires] at hexp
    simpa using hexp

theorem keyAnswer_usable {now : Instant} (h : Usable keyHash key now) :
    keyAnswer keyHash key now = buildResponse key :=
  if_neg (usable_iff.mp h)

theorem keyAnswer_unusable {now : Instant} (h : ¬Usable keyHash key now) :
    keyAnswer keyHash key now = .inactive := by
  rw [usable_iff, not_not] at h
  exact if_pos h

theorem run_verifyKey :
    ((verifyKey keyHash key).run (semantics cfg) draws s).1 = keyAnswer keyHash key s.now
      ∧ (((verifyKey keyHash key).run (semantics cfg) draws s).2.2 = s
        ∨ Usable keyHash key s.now
          ∧ Stores s keyHash key ((verifyKey keyHash key).run (semantics cfg) draws s).2.2) := by
  unfold verifyKey
  split
  . next hhash => exact ⟨(if_pos (.inl hhash)).symm, .inl rfl⟩
  . next hhash =>
    split
    . next hrevoked => exact ⟨(if_pos (.inr (.inl hrevoked))).symm, .inl rfl⟩
    . next hrevoked =>
      rw [ne_eq, not_not] at hhash
      rw [Option.not_isSome_iff_eq_none] at hrevoked
      split
      . next exp hexp =>
        unfold App.host
        rw [run_clock]
        by_cases hexpired : exp < s.now
        . rw [if_pos hexpired]
          refine ⟨(if_pos ?_).symm, .inl rfl⟩
          simp [hexp, hexpired]
        . rw [if_neg hexpired]
          have husable : Usable keyHash key s.now := by
            refine ⟨hhash, hrevoked, ?_⟩
            rintro exp' hexp'
            rw [hexp] at hexp'
            injection hexp' with hexp'
            subst hexp'
            exact Int.not_lt.mp hexpired
          rw [keyAnswer_usable husable, run_verifyActive.1]
          exact ⟨rfl, .inr ⟨husable, run_verifyActive.2⟩⟩
      . next hexp =>
        have husable : Usable keyHash key s.now := ⟨hhash, hrevoked, by simp [hexp]⟩
        rw [keyAnswer_usable husable, run_verifyActive.1]
        exact ⟨rfl, .inr ⟨husable, run_verifyActive.2⟩⟩

/--
What a verification answers, read off the cache and the database.
-/
def answer (draws : Nat → Draw) (s : Server) (keyHash : String) : IntrospectResponse :=
  match hit (draws 0) s keyHash with
  | some cached => cachedAnswer cached s.now
  | none =>
    match found (draws 1) s keyHash with
    | some key => keyAnswer keyHash key s.now
    | none => .inactive

theorem run_verify_malformed (h : extractRawFromKey token = none) :
    (verify cfg token).run (semantics cfg) draws s = (.inactive, draws, s) := by
  unfold verify
  rw [h]
  rfl

/--
A verification on its own. It only changes the state if it found a row that passes the checks.
-/
theorem run_verify (h : extractRawFromKey token = some raw) :
    ((verify cfg token).run (semantics cfg) draws s).1 = answer draws s (cfg.sha256 raw)
      ∧ (((verify cfg token).run (semantics cfg) draws s).2.2 = s
        ∨ ∃ key, found (draws 1) s (cfg.sha256 raw) = some key ∧ Usable (cfg.sha256 raw) key s.now
          ∧ Stores s (cfg.sha256 raw) key ((verify cfg token).run (semantics cfg) draws s).2.2) := by
  have hget : (semantics cfg).exec (.cache (.getJson (cacheKey (cfg.sha256 raw)))) (draws 0) s
      = (hit (draws 0) s (cfg.sha256 raw), s) := by
    change CacheOp.exec (draws 0) s (.getJson _) = _
    unfold hit CacheOp.exec
    dsimp only
    split
    . rfl
    . rfl
  have hfind : (semantics cfg).exec (.key (.findByHash (cfg.sha256 raw))) (draws 1) s
      = ((KeyOp.exec (draws 1) s (.findByHash (cfg.sha256 raw))).1, s) :=
    Prod.ext rfl (query_store _)
  unfold verify answer
  rw [h]
  unfold App.cache
  dsimp only
  rw [run_perform_bind_of hget]
  cases hit (draws 0) s (cfg.sha256 raw) with
  | some cached => exact ⟨run_verifyCached.1, .inl run_verifyCached.2⟩
  | none =>
    unfold App.key
    dsimp only
    rw [run_perform_bind_of hfind]
    unfold found
    cases (KeyOp.exec (draws 1) s (.findByHash (cfg.sha256 raw))).1 with
    | error e => exact ⟨rfl, .inl rfl⟩
    | ok key =>
      cases key with
      | none => exact ⟨rfl, .inl rfl⟩
      | some key =>
        refine ⟨run_verifyKey.1, ?_⟩
        rcases @run_verifyKey cfg s (fun n => draws (n + 1 + 1)) (cfg.sha256 raw) key with ⟨_, hsame | hstores⟩
        . exact .inl hsame
        . exact .inr ⟨key, rfl, hstores⟩

end ApiKeyVerifier

namespace TokenVerifier

/--
The kind of the credential as it is reported.
-/
def format (token : String) (response : IntrospectResponse) : IntrospectResponse :=
  if response.active && startsWith token "ot_" then
    { response with tokenFormat := some "opaque" }
  else
    response

theorem run_verify_key (h : extractRawFromKey token = some raw) :
    ((verify cfg token).run (semantics cfg) draws s).1
      = format token (ApiKeyVerifier.answer draws s (cfg.sha256 raw)) := by
  unfold verify format
  rw [not_jwt h, if_neg (by simp), run_bind, (ApiKeyVerifier.run_verify h).1]
  split
  . rfl
  . rfl

theorem run_verify_malformed (h : extractRawFromKey token = none)
    (hjwt : startsWith token "eyJ" = false) :
    ((verify cfg token).run (semantics cfg) draws s).1 = .inactive := by
  unfold verify
  rw [hjwt, if_neg (by simp), run_bind, ApiKeyVerifier.run_verify_malformed h]
  rfl

end TokenVerifier

/--
The answer to a JWT is inactive or reports its claims.
-/
theorem JwtVerifier.run_verify :
    ((verify cfg token).run (semantics cfg) draws s).1 = .inactive
      ∨ ∃ claims, cfg.decodeJwt (verifyValidation cfg) s.now token = some claims
        ∧ ((verify cfg token).run (semantics cfg) draws s).1
          = .mkActive claims.tenantId claims.sub ((IdentityType.parse claims.identityType).getD .user)
            claims.clientId claims.scope (toI64 claims.exp) none "jwt" := by
  unfold verify App.host App.cache
  rw [run_clock]
  dsimp only
  cases hdecode : cfg.decodeJwt (verifyValidation cfg) s.now token with
  | none => exact .inl rfl
  | some claims =>
    dsimp only
    rw [run_perform_bind]
    split
    . exact .inl rfl
    . exact .inr ⟨claims, rfl, rfl⟩

end Aspectus
