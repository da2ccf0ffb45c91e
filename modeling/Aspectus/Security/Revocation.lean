import Aspectus.Security.Keys
import Aspectus.Security.Sample

/-!
This module contains when the revocation of a credential through `/token/revoke` takes effect: at once
if there is no answer for the credential in the cache, otherwise not before that answer expires.
-/

namespace Aspectus

open Interaction Prog Statement

variable {cfg : Config} {s : Server} {keyHash : String}

/--
What is cached about a credential is active, and is gone when the credential expires.
-/
def CacheSound (s : Server) : Prop :=
  ∀ keyHash entry, s.redis (ApiKeyVerifier.cacheKey keyHash) = some entry →
    ∃ r, entry.value = .response r ∧ r.active = true
      ∧ ∀ exp, r.exp = some exp → entry.EndsBy (Instant.seconds (exp + 1))

/--
The state after some requests that are served one after the other.
-/
abbrev served (cfg : Config) (visits : List (Visit KeyRequest Draw)) (s : Server) : Server :=
  (serveAll (semantics cfg) (KeyRequest.handle cfg) visits s).2

theorem ttl_le {exp now : Int} {ttl : Nat}
    (httl : ttl = min ((max ((exp - now).tdiv 1000000) 0).toNat / 10) 300) (h : 0 < ttl)
    : now + ttl * 1000000 ≤ exp := by
  by_cases hnonneg : 0 ≤ exp - now
  . rw [Int.tdiv_eq_ediv_of_nonneg hnonneg] at httl
    omega
  . have hneg : (exp - now).tdiv 1000000 = -(now - exp).tdiv 1000000 := by
      rw [← Int.neg_tdiv, Int.neg_sub]
    have : 0 ≤ (now - exp).tdiv 1000000 := Int.tdiv_nonneg (by omega) (by decide)
    omega

/--
A cached answer never outlives the credential.
-/
theorem computeCacheTtl_le {exp now : Instant} (h : 0 < computeCacheTtl (some exp) now)
    : now + Instant.seconds (computeCacheTtl (some exp) now) ≤ exp :=
  ttl_le rfl h

/--
Whatever a request does keeps the keys and the cache sound. As nothing happens in between, the clock
still shows the time that was read.
-/
theorem serve_sound (q : KeyRequest) (draws : Nat → Draw) (hkeys : KeysSound s)
    (hcache : CacheSound s)
    : KeysSound ((q.handle cfg).run (semantics cfg) draws s).2.2
        ∧ CacheSound ((q.handle cfg).run (semantics cfg) draws s).2.2 := by
  have hrun := run_inv (I := semantics cfg)
    (P := fun h s => KeysSound s ∧ CacheSound s ∧ ∀ now, Called h (.host .now) now → now = s.now)
    (KeyRequest.handle_conforms cfg q) draws (s := s) ⟨hkeys, hcache, fun now hnow => by cases hnow⟩ ?_
  . rcases hrun with ⟨_, _, hkeys, hcache, _⟩
    exact ⟨hkeys, hcache⟩
  . rintro h o d s hallowed ⟨hkeys, hcache, hnow⟩
    have hframed : (Op.exec cfg o d s).2.now = s.now := (Op.exec_framed cfg d s o).now
    refine ⟨hkeys.exec, ?_, ?_⟩
    . intro keyHash entry hentry
      rcases Op.exec_redis cfg d s o _ entry hentry with
        hold | ⟨value, ttl, rfl, hpos, rfl⟩ | ⟨value, ttl, rfl, _⟩ | ⟨name, bucket, _, hkey, _⟩
      . exact hcache keyHash entry hold
      . rcases hallowed with ⟨_, key, _, hmay⟩
        refine ⟨value, rfl, by rw [hmay.built]; rfl, ?_⟩
        intro exp hexp
        rw [hmay.built] at hexp
        rcases Option.map_eq_some_iff.mp hexp with ⟨expiresAt, hexpires, rfl⟩
        rcases hmay.ttl expiresAt hexpires with ⟨now, hcalled, rfl⟩
        have hle := computeCacheTtl_le hpos
        rw [hnow now hcalled] at hle ⊢
        have hlt : expiresAt < (expiresAt / 1000000 + 1) * 1000000 :=
          Int.lt_mul_of_ediv_lt (by decide) (Int.lt_succ _)
        exact ⟨_, rfl, Int.le_trans hle (Int.le_of_lt hlt)⟩
      . exact absurd rfl (hallowed keyHash)
      . exact absurd hkey.symm (rateLimitKey_ne name bucket keyHash)
    . intro now hcalled
      change now = (Op.exec cfg o d s).2.now
      rw [hframed]
      rcases List.mem_cons.mp hcalled with heq | hold
      . injection heq with ho hr
        subst ho
        exact eq_of_heq hr
      . exact hnow now hold

theorem served_sound (cfg : Config) (visits : List (Visit KeyRequest Draw)) (hkeys : KeysSound s)
    (hcache : CacheSound s)
    : KeysSound (served cfg visits s) ∧ CacheSound (served cfg visits s) := by
  refine serveAll_inv (P := fun s => KeysSound s ∧ CacheSound s)
    (fun v s hs => serve_sound v.request v.draws hs.1 hs.2) ?_ visits ⟨hkeys, hcache⟩
  intro n s hs
  exact ⟨hs.1.advance n, hs.2⟩

/--
No request brings a killed credential back, or vouches for it.
-/
theorem run_killed {α : Type} {q : KeyRequest} {p : App α} {post : List (Event Api) → α → Prop}
    (hp : p.Conforms (KeyAllowed q) post []) (draws : Nat → Draw) (hs : Killed keyHash s)
    : ∃ h, post h (p.run (semantics cfg) draws s).1 ∧ ¬Vouched h keyHash
        ∧ Killed keyHash (p.run (semantics cfg) draws s).2.2 := by
  have hrun := run_inv (I := semantics cfg) (P := fun h s => ¬Vouched h keyHash ∧ Killed keyHash s)
    hp draws (s := s) ⟨?_, hs⟩ ?_
  . exact hrun
  . rintro (⟨_, hcached⟩ | ⟨_, hfound, _⟩)
    . cases hcached
    . cases hfound
  . rintro h o d s hallowed ⟨hsilent, hkilled⟩
    refine ⟨fun hv => hsilent (hkilled.not_vouched hv), hkilled.exec fun hcaches => ?_⟩
    rcases hallowed.caches hcaches with ⟨key, hfound, hunrevoked⟩
    exact hsilent (.inr ⟨key, hfound, hunrevoked⟩)

theorem served_killed (visits : List (Visit KeyRequest Draw)) (hs : Killed keyHash s) :
    Killed keyHash (served cfg visits s) := by
  refine serveAll_inv (P := Killed keyHash) ?_ (fun n s hs => hs.advance n) visits hs
  intro v s hs
  rcases run_killed (KeyRequest.handle_conforms cfg v.request) v.draws hs with ⟨_, _, _, hkilled⟩
  exact hkilled

/--
The revocation of a key leaves its row revoked.
-/
theorem revoke_exec {d : Draw} (hkeys : KeysSound s) (hfault : d.fault = none) {id : String}
    {row : ApiKeyRow} (hrow : s.apiKeys.lookup id = some row)
    : Dead row.keyHash (Op.exec cfg (.key (.revoke id)) d s).2 := by
  have hstorable : [id].all storable = true := by
    simpa using (hkeys.storable id row hrow).1
  have hexec : Op.exec cfg (.key (.revoke id)) d s
      = Statement.run d [id] (Statement.revokeApiKey id) s := by
    rfl
  cases hrevoked : row.revokedAt with
  | some at_ =>
    have hrevoke : Statement.revokeApiKey id s = .ok (false, s) := by
      unfold Statement.revokeApiKey
      rw [hrow]
      simp [hrevoked]
    rw [hexec, run_healthy hfault hstorable hrevoke]
    exact hkeys.dead hrow (.inl (by rw [hrevoked]; rfl))
  | none =>
    have hrevoke : Statement.revokeApiKey id s = .ok (true, { s with
        apiKeys := s.apiKeys.updateAt id fun row => { row with revokedAt := some s.now } }) := by
      unfold Statement.revokeApiKey
      rw [hrow]
      simp [hrevoked]
    have hpost : KeysSound (Op.exec cfg (.key (.revoke id)) d s).2 := hkeys.exec
    rw [hexec, run_healthy hfault hstorable hrevoke] at hpost ⊢
    have hrow' : (s.apiKeys.updateAt id fun row => { row with revokedAt := some s.now }).lookup id
        = some { row with revokedAt := some s.now } := by
      simp [hrow]
    have hdead := hpost.dead hrow' (.inl rfl)
    exact hdead

section Token

variable {token : String} {raw : List UInt8} (hraw : extractRawFromKey token = some raw)
  {draws : Nat → Draw}
include hraw

/--
A killed credential is found to be inactive.
-/
theorem verify_killed (hs : Killed (cfg.sha256 raw) s) :
    ((TokenVerifier.verify cfg token).run (semantics cfg) draws s).1.active = false := by
  rcases run_killed (TokenVerifier.verify_conforms (q := .introspect token) token) draws hs with
    ⟨h, hverified, hsilent, _⟩
  cases hactive : ((TokenVerifier.verify cfg token).run (semantics cfg) draws s).1.active with
  | false => rfl
  | true => exact absurd (hverified raw hraw hactive) hsilent

/--
A credential with a live answer in the cache is found to be active.
-/
theorem verify_cached (hcache : CacheSound s) (hhealthy : Healthy draws) {value : CacheValue}
    (hcached : s.cached (ApiKeyVerifier.cacheKey (cfg.sha256 raw)) = some value)
    : ((TokenVerifier.verify cfg token).run (semantics cfg) draws s).1.active = true := by
  rcases Server.cached_eq_some.mp hcached with ⟨entry, hentry, hlive, rfl⟩
  rcases hcache _ entry hentry with ⟨r, hvalue, hactive, hexp⟩
  have hget : (semantics cfg).exec (.cache (.getJson (ApiKeyVerifier.cacheKey (cfg.sha256 raw))))
      (draws 0) s = ((some r : Option IntrospectResponse), s) := by
    change CacheOp.exec (draws 0) s (.getJson (ApiKeyVerifier.cacheKey (cfg.sha256 raw))) = _
    unfold CacheOp.exec
    dsimp only
    rw [hhealthy 0, hcached, hvalue]
  have hverify : ((ApiKeyVerifier.verify cfg token).run (semantics cfg) draws s).1 = r := by
    unfold ApiKeyVerifier.verify
    rw [hraw]
    unfold App.cache
    dsimp only
    rw [run_perform_bind, hget]
    unfold ApiKeyVerifier.verifyCached
    dsimp only
    split
    . next exp hrexp =>
      -- The entry would be gone if the credential had expired.
      have hnow : s.now < Instant.seconds (exp + 1) := (hexp exp hrexp).lt hlive
      have hunexpired : ¬exp < s.now / 1000000 := by
        have : s.now / 1000000 < exp + 1 := Int.ediv_lt_of_lt_mul (by decide) hnow
        exact Int.not_lt.mpr (Int.le_of_lt_add_one this)
      unfold App.host
      rw [run_perform_bind]
      change (run (semantics cfg) (if exp < s.now / 1000000 then _ else _) _ _).1 = r
      rw [if_neg hunexpired]
      rfl
    . rfl
  unfold TokenVerifier.verify
  rw [not_jwt hraw]
  simp only [Bool.false_eq_true, if_false]
  rw [run_bind, hverify]
  split
  . exact hactive
  . exact hactive

/--
The revocation of a credential that was issued is confirmed, kills the row, and leaves the cache alone.
-/
theorem revokeToken_run (hkeys : KeysSound s) (hhealthy : Healthy draws) {id : String}
    {row : ApiKeyRow} (hrow : s.apiKeys.lookup id = some row) (hhash : row.keyHash = cfg.sha256 raw)
    : ((revokeToken cfg (some token)).run (semantics cfg) draws s).1 = .noContent
        ∧ Dead (cfg.sha256 raw) ((revokeToken cfg (some token)).run (semantics cfg) draws s).2.2
        ∧ ∀ key, ((revokeToken cfg (some token)).run (semantics cfg) draws s).2.2.cached key
          = s.cached key := by
  have hne : token ≠ "" := by
    rintro rfl
    have : extractRawFromKey "" = none := by decide
    rw [this] at hraw
    contradiction
  have hbyHash : byHash (cfg.sha256 raw) s = some (id, row) := by
    rw [← hhash]
    exact hkeys.byHash hrow
  have hfind : (semantics cfg).exec (.key (.findByHash (cfg.sha256 raw))) (draws 0) s
      = (((decodeApiKey id row).map some : Result (Option ApiKey)), s) := by
    change query (draws 0) [cfg.sha256 raw] (Statement.findByHash (cfg.sha256 raw)) s = _
    rw [query_answers (hhealthy 0)]
    . unfold Statement.findByHash
      rw [hbyHash]
    . simpa [hhash] using (hkeys.storable id row hrow).2
  unfold revokeToken
  dsimp only [Option.getD_some]
  rw [if_neg hne, not_jwt hraw, hraw]
  simp only [Bool.false_eq_true, if_false]
  unfold App.key
  rw [run_perform_bind, hfind, ← hhash]
  cases hdecode : decodeApiKey id row with
  | error e =>
    -- A key without a service account cannot be read, neither here nor by a verification.
    refine ⟨rfl, hkeys.dead hrow (.inr ?_), fun _ => rfl⟩
    unfold decodeApiKey at hdecode
    cases haccount : row.serviceAccountId with
    | none => rfl
    | some serviceAccountId =>
      rw [haccount] at hdecode
      contradiction
  | ok key =>
    have hid := (decodeApiKey_ok hdecode).2.1
    subst hid
    have hframed := Op.exec_framed cfg (draws 1) s (.key (.revoke key.id))
    refine ⟨rfl, revoke_exec hkeys (hhealthy 1) hrow, ?_⟩
    intro k
    change (Op.exec cfg (.key (.revoke key.id)) (draws 1) s).2.cached k = s.cached k
    unfold Server.cached
    rw [hframed.now, hframed.redis (by simp)]

end Token

/--
The revocation of a credential through `/token/revoke` takes effect at once, whatever was verified
before it and however much time passes, if and only if there is no live answer for the credential in
the cache when it is served.
-/
theorem token_revocation_at_once (cfg : Config) (s : Server) (hkeys : KeysSound s)
    (hcache : CacheSound s) (visits : List (Visit KeyRequest Draw)) (token : String)
    (raw : List UInt8) (hraw : extractRawFromKey token = some raw)
    (hissued : ∃ id row, (served cfg visits s).apiKeys.lookup id = some row
      ∧ row.keyHash = cfg.sha256 raw) (draws : Nat → Draw) (hhealthy : Healthy draws) :
    ((revokeToken cfg (some token)).run (semantics cfg) draws (served cfg visits s)).1.status = 204
    ∧ ((∀ wait later draws', Healthy draws' →
      ((TokenVerifier.verify cfg token).run (semantics cfg) draws' (served cfg later
        (((revokeToken cfg (some token)).run (semantics cfg) draws (served cfg visits s)).2.2.advance
          wait))).1.active = false)
        ↔
      (served cfg visits s).cached (ApiKeyVerifier.cacheKey (cfg.sha256 raw)) = none) := by
  rcases served_sound cfg visits hkeys hcache with ⟨hkeys, hcache⟩
  rcases hissued with ⟨id, row, hrow, hhash⟩
  rcases revokeToken_run hraw hkeys hhealthy hrow hhash with ⟨hanswer, hdead, hcached⟩
  refine ⟨by rw [hanswer]; rfl, ?_, ?_⟩
  . intro hinactive
    by_contra hlive
    rcases Option.ne_none_iff_exists'.mp hlive with ⟨value, hvalue⟩
    have hactive := verify_cached hraw (serve_sound (.revoke (some token)) draws hkeys hcache).2
      hhealthy ((hcached _).trans hvalue)
    have hinactive := hinactive 0 [] draws hhealthy
    rw [Server.advance_zero] at hinactive
    exact Bool.false_ne_true (hinactive.symm.trans hactive)
  . intro huncached wait later draws' _
    have hkilled : Killed (cfg.sha256 raw)
        ((revokeToken cfg (some token)).run (semantics cfg) draws (served cfg visits s)).2.2 :=
      ⟨hdead, (hcached _).trans huncached⟩
    exact verify_killed hraw (served_killed later (hkilled.advance wait))

namespace Sample

def createKeyRequest : CreateApiKeyRequest where
  ownerType := none
  ownerId := some serviceAccountId
  serviceAccountId := none
  project := "pandaria"
  scopes := []
  expiresAt := none

/--
The service account before it has an API key.
-/
def keylessServer : Server :=
  { keyServer with apiKeys := ∅ }

def create : Visit KeyRequest Draw :=
  ⟨.create createKeyRequest, fun _ => draw 4, 0⟩

def introspected : Visit KeyRequest Draw :=
  ⟨.introspect keyToken, fun _ => draw 5, 0⟩

theorem keylessServer_sound : KeysSound keylessServer ∧ CacheSound keylessServer := by
  refine ⟨⟨?_, ?_⟩, ?_⟩
  . intro id id' row row' hrow
    cases hrow
  . intro id row hrow
    cases hrow
  . intro keyHash entry hentry
    cases hentry

def issuedKey (row : ApiKeyRow) : Bool :=
  row.keyHash = config.sha256 (raw 4)

theorem created_issued
    (h : ((served config [create] keylessServer).apiKeys.lookup (draw 4).id).any issuedKey = true)
    : ∃ id row, (served config [create] keylessServer).apiKeys.lookup id = some row
      ∧ row.keyHash = config.sha256 (raw 4) := by
  rcases (Option.any_eq_true _ _).mp h with ⟨row, hrow, hhash⟩
  exact ⟨_, row, hrow, by simpa [issuedKey] using hhash⟩

end Sample

open Sample in
/--
A key that is revoked before it was ever introspected is inactive from then on, even after a day.
-/
theorem token_revocation_at_once_uncached :
    ((TokenVerifier.verify config keyToken).run (semantics config) (fun _ => draw 7) (served config
      [introspected] (((revokeToken config (some keyToken)).run (semantics config) (fun _ => draw 6)
        (served config [create] keylessServer)).2.2.advance 86400000000))).1.active = false := by
  have hchecks : ((served config [create] keylessServer).apiKeys.lookup (draw 4).id).any issuedKey
        = true
      ∧ ((served config [create] keylessServer).cached
        (ApiKeyVerifier.cacheKey (config.sha256 (raw 4)))).isNone = true := by
    decide +kernel
  rcases hchecks with ⟨hissued, huncached⟩
  exact (token_revocation_at_once config keylessServer keylessServer_sound.1 keylessServer_sound.2
    [create] keyToken (raw 4) keyToken_raw (created_issued hissued) (fun _ => draw 6) (fun _ => rfl)).2.mpr
    (Option.isNone_iff_eq_none.mp huncached) 86400000000 [introspected] (fun _ => draw 7) (fun _ => rfl)

open Sample in
/--
A key that is introspected and then revoked is still active although the revocation was confirmed.
-/
theorem token_revocation_delayed :
    KeysSound keylessServer ∧ CacheSound keylessServer
      ∧ ((revokeToken config (some keyToken)).run (semantics config) (fun _ => draw 6)
          (served config [create, introspected] keylessServer)).1.status = 204
      ∧ ((TokenVerifier.verify config keyToken).run (semantics config) (fun _ => draw 7)
          ((revokeToken config (some keyToken)).run (semantics config) (fun _ => draw 6)
            (served config [create, introspected] keylessServer)).2.2).1.active = true := by
  refine ⟨keylessServer_sound.1, keylessServer_sound.2, ?_⟩
  decide +kernel

end Aspectus
