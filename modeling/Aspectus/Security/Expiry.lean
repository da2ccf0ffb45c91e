import Aspectus.Security.Ownership
import Aspectus.Security.Spelling

/-!
This module contains when the expiry that is requested for a key is honoured: if and only if it is well-formed,
because a text that is not is taken for no expiry.
-/

namespace Aspectus

open Interaction Prog Machine Statement ApiKeyVerifier

variable {cfg : Config} {s : Server} {draws : Nat → Draw} {d : Draw} {o : Op} {h : List (Event Api)}

/--
Every answer in the cache was built from a row, and is gone when the row expires.
-/
def CacheTimely (s : Server) : Prop :=
  ∀ keyHash entry, s.redis (cacheKey keyHash) = some entry →
    ∃ key, Known s keyHash key ∧ ∀ exp, key.expiresAt = some exp → entry.EndsBy exp

/--
The rows of the keys that were inserted have the hash and the expiry they were inserted with.
-/
def Inserted (h : List (Event Api)) (s : Server) : Prop :=
  ∀ params k, Called h (.key (.insert params)) (.ok k) → ∃ row, s.apiKeys.lookup params.id = some row
    ∧ row.keyHash = params.keyHash ∧ row.expiresAt = params.expiresAt

/--
If the request was answered with a key, then its row has the expiry that the text denotes, and the key is not
active once `Over` is true of it.
-/
def ExpiryKept (cfg : Config) (text : String) (s : Server) (a : Response) (Over : Instant → Prop) : Prop :=
  a.status = 201 → ∃ key row exp, a.body = .createdKey key ∧ s.apiKeys.lookup key.id = some row
    ∧ cfg.parseRfc3339 text = some exp ∧ row.expiresAt = some exp
    ∧ (Over exp → ∀ draws, ((TokenVerifier.verify cfg key.key).run (semantics cfg) draws s).1.active = false)

/--
What is promised to requests for keys that expire at `text`. In an interleaved execution an answer can be cached
a while after the row was read, it is then given until the second of the expiry is over.
-/
structure ExpiryHonoured (cfg : Config) (text : String) : Prop where
  sequential : ∀ s, KeysSound s → CacheBuilt s → CacheTimely s → ∀ req draws wait visits,
    req.expiresAt = some text →
      ExpiryKept cfg text (served cfg (⟨.create req, draws, wait⟩ :: visits) s)
        ((createApiKey cfg req).run (semantics cfg) draws s).1
        fun exp => exp < (served cfg (⟨.create req, draws, wait⟩ :: visits) s).now
  interleaved : ∀ s, KeysSound s → CacheBuilt s → ∀ m, KeyMachine.Reachable cfg s m →
    ∀ e ∈ m.log, ∀ a req, e.what = .finish a → Started m.log e.thread (.create req) →
      req.expiresAt = some text →
        ExpiryKept cfg text m.store a fun exp => exp.timestamp < m.store.now.timestamp
  rejected : cfg.parseRfc3339 text = none → ∀ s, KeysSound s → ∀ m, KeyMachine.Reachable cfg s m →
    ∀ e ∈ m.log, ∀ a req, e.what = .finish a → Started m.log e.thread (.create req) →
      req.expiresAt = some text → 400 ≤ a.status
        ∧ ∀ params k, ¬Called (eventsOf e.thread m.log) (.key (.insert params)) (.ok k)

section Inserted

theorem Inserted.exec (hinserted : Inserted h s) : Inserted h (o.exec cfg d s).2 := by
  intro params k hcalled
  rcases hinserted params k hcalled with ⟨row, hrow, hhash, hexpires⟩
  rcases (Op.exec_evolves d s cfg o).apiKeys _ row hrow with ⟨row', hrow', hkept⟩
  exact ⟨row', hrow', hkept.keyHash.trans hhash, hkept.expiresAt.trans hexpires⟩

theorem Inserted.cons (hinserted : Inserted h s) :
    Inserted (⟨o, (o.exec cfg d s).1⟩ :: h) (o.exec cfg d s).2 := by
  intro params k hcalled
  rcases List.mem_cons.mp hcalled with heq | hold
  . injection heq with ho hr
    subst ho
    have hinsert := run_ok (eq_of_heq hr).symm
    rcases insertApiKey_ok hinsert with ⟨row, apiKeys, hnew, hstore, hhash, hexpires, _⟩
    refine ⟨row, ?_, hhash, hexpires⟩
    change (KeyOp.exec d s (.insert params)).2.apiKeys.lookup params.id = some row
    unfold KeyOp.exec
    dsimp only
    rw [hstore]
    dsimp only
    rw [Table.lookup_insertNew hnew, if_pos rfl]
  . exact hinserted.exec params k hold

theorem KeyMachine.Reachable.inserted {m : KeyMachine} (hm : KeyMachine.Reachable cfg s m) (i : Nat) :
    Inserted (eventsOf i m.log) m.store :=
  Reaches.events_inv (P := Inserted) (fun _ _ _ hs => hs) (fun _ _ _ _ hs => hs.cons)
    (fun _ _ _ _ hs => hs.exec) (fun _ _ hcalled => by cases hcalled) hm i

/--
The row of a key that was created.
-/
theorem Inserted.created (hinserted : Inserted h s) {params : InsertApiKeyParams} {key : CreatedApiKey}
    (hcreated : Created cfg "pk_live_" h params key)
    : ∃ row raw, s.apiKeys.lookup key.id = some row ∧ row.expiresAt = params.expiresAt
        ∧ extractRawFromKey key.key = some raw ∧ row.keyHash = cfg.sha256 raw := by
  rcases hcreated.stored with ⟨k, hcalled⟩
  rcases hcreated.token with ⟨raw, htoken, hsha⟩
  rcases hinserted params k hcalled with ⟨row, hrow, hhash, hexpires⟩
  rw [hcreated.id] at hrow
  refine ⟨row, raw, hrow, hexpires, ?_, hhash.trans hsha⟩
  rw [htoken]
  exact extractRaw_key raw

end Inserted

section Time

/--
An entry is only added to the cache after its row was read, and its time is counted from then.
-/
theorem CacheTimely.exec {q : KeyRequest} (hcache : CacheTimely s) (hallowed : KeyAllowed q h o)
    (hfound : ∀ keyHash key, Called h (.key (.findByHash keyHash)) (.ok (some key)) → Known s keyHash key)
    (hnow : ∀ now, Called h (.host .now) now → now = s.now) : CacheTimely (o.exec cfg d s).2 := by
  intro keyHash entry hentry
  rcases Op.exec_redis cfg d s o _ entry hentry with
    hold | ⟨value, ttl, rfl, hpos, rfl⟩ | ⟨value, ttl, rfl, _⟩ | ⟨name, bucket, _, hkey, _⟩
  . rcases hcache keyHash entry hold with ⟨key, hknown, hdeadline⟩
    exact ⟨key, hknown.exec, hdeadline⟩
  . rcases hallowed with ⟨keyHash', key, heq, hmay⟩
    have hhash : keyHash = keyHash' := append_right_injective heq
    subst hhash
    refine ⟨key, (hfound keyHash key hmay.found).exec, ?_⟩
    intro exp hexp
    rcases hmay.ttl exp hexp with ⟨now, hcalled, rfl⟩
    have hle := computeCacheTtl_le hpos
    rw [hnow now hcalled] at hle ⊢
    exact ⟨_, rfl, hle⟩
  . exact absurd rfl (hallowed keyHash)
  . exact absurd hkey.symm (rateLimitKey_ne name bucket keyHash)

/--
The clock still shows the time that was read.
-/
theorem now_cons (hnow : ∀ now, Called h (.host .now) now → now = s.now) :
    ∀ now, Called (⟨o, (o.exec cfg d s).1⟩ :: h) (.host .now) now → now = (o.exec cfg d s).2.now := by
  intro now hcalled
  rw [(Op.exec_framed cfg d s o).now]
  rcases List.mem_cons.mp hcalled with heq | hold
  . injection heq with ho hr
    subst ho
    exact eq_of_heq hr
  . exact hnow now hold

theorem CacheTimely.serve (hcache : CacheTimely s) (q : KeyRequest) :
    CacheTimely ((q.handle cfg).run (semantics cfg) draws s).2.2 := by
  have hrun := run_inv (I := semantics cfg)
    (P := fun h s => CacheTimely s
      ∧ (∀ keyHash key, Called h (.key (.findByHash keyHash)) (.ok (some key)) → Known s keyHash key)
      ∧ ∀ now, Called h (.host .now) now → now = s.now)
    (KeyRequest.handle_conforms cfg q) draws (s := s) ⟨hcache, ?_, ?_⟩ ?_
  . rcases hrun with ⟨_, _, hcache, _⟩
    exact hcache
  . intro keyHash key hcalled
    cases hcalled
  . intro now hcalled
    cases hcalled
  . rintro h o d s hallowed ⟨hcache, hfound, hnow⟩
    exact ⟨hcache.exec hallowed hfound hnow, known_cons hfound, now_cons hnow⟩

/--
Requests that run one after the other keep the invariants.
-/
theorem served_timely (visits : List (Visit KeyRequest Draw)) (hkeys : KeysSound s) (hbuilt : CacheBuilt s)
    (hcache : CacheTimely s)
    : KeysSound (served cfg visits s) ∧ CacheBuilt (served cfg visits s)
        ∧ CacheTimely (served cfg visits s) := by
  refine serveAll_inv (P := fun s => KeysSound s ∧ CacheBuilt s ∧ CacheTimely s) ?_ ?_ visits
    ⟨hkeys, hbuilt, hcache⟩
  . rintro v s ⟨hkeys, hbuilt, hcache⟩
    exact ⟨hkeys.serve _, hbuilt.serve _, hcache.serve _⟩
  . rintro n s ⟨hkeys, hbuilt, hcache⟩
    exact ⟨hkeys.advance n, hbuilt, hcache⟩

theorem served_evolves (visits : List (Visit KeyRequest Draw)) : Evolves s (served cfg visits s) := by
  refine serveAll_inv (P := fun s' => Evolves s s') ?_ ?_ visits (.refl s)
  . intro v s' hs'
    exact (uses_of_forall (U := fun _ => True) (fun _ => trivial) _).run_keeps (P := fun s' => Evolves s s')
      (fun o d s'' _ hs'' => hs''.trans (Op.exec_evolves d s'' cfg o)) hs'
  . intro n s' hs'
    exact hs'.trans ((evolution cfg).advance n s')

/--
A row that can be answered with is not expired, up to the second.
-/
theorem Live.timestamp {row : ApiKeyRow} (hlive : Live s row) {exp : Instant} (hexp : row.expiresAt = some exp) :
    s.now.timestamp ≤ exp.timestamp := by
  rcases hlive with ⟨_, hsecond⟩ | ⟨_, _, hexpires⟩
  . exact hsecond exp hexp
  . exact Int.ediv_le_ediv (by decide) (hexpires exp hexp)

/--
A row that can be answered with is not expired, if its answer in the cache is gone in time.
-/
theorem CacheTimely.live {id : String} {row : ApiKeyRow} (hcache : CacheTimely s) (hkeys : KeysSound s)
    (hrow : s.apiKeys.lookup id = some row) (hlive : Live s row) {exp : Instant}
    (hexp : row.expiresAt = some exp) : s.now ≤ exp := by
  rcases hlive with ⟨hcached, _⟩ | ⟨_, _, hexpires⟩
  . rcases Option.isSome_iff_exists.mp hcached with ⟨value, hvalue⟩
    rcases Server.cached_eq_some.mp hvalue with ⟨entry, hentry, hearly, _⟩
    rcases hcache row.keyHash entry hentry with ⟨key, hknown, hdeadline⟩
    have hexpires := (hkeys.known hrow hknown).2.expiresAt
    exact Int.le_of_lt ((hdeadline exp (hexpires.symm.trans hexp)).lt hearly)
  . exact hexpires exp hexp

theorem verify_dead {id token : String} {row : ApiKeyRow} {raw : List UInt8} (hkeys : KeysSound s)
    (hbuilt : CacheBuilt s) (hrow : s.apiKeys.lookup id = some row) (hraw : extractRawFromKey token = some raw)
    (hhash : row.keyHash = cfg.sha256 raw) (hdead : ¬Live s row)
    : ((TokenVerifier.verify cfg token).run (semantics cfg) draws s).1.active = false := by
  rw [Bool.eq_false_iff]
  intro hactive
  rw [TokenVerifier.run_verify_key hraw, format_active, ← hhash] at hactive
  exact hdead ((live_iff hkeys hbuilt hrow).mp ⟨draws, hactive⟩)

end Time

section Honoured

variable {text : String} {exp : Instant}

/--
The expiry of a key that was created is kept, if nothing answers about its row once it is over.
-/
theorem expiryKept_of_answers {req : CreateApiKeyRequest} {a : Response} {Over : Instant → Prop}
    (hparse : cfg.parseRfc3339 text = some exp) (hreq : req.expiresAt = some text) (hkeys : KeysSound s)
    (hbuilt : CacheBuilt s) (hinserted : Inserted h s) (hanswers : createApiKey.Answers cfg req h a)
    (hover : ∀ id row, s.apiKeys.lookup id = some row → row.expiresAt = some exp → Over exp → ¬Live s row)
    : ExpiryKept cfg text s a Over := by
  intro hstatus
  rcases hanswers hstatus with ⟨key, params, hbody, hcreated, hexpires⟩
  rcases hinserted.created hcreated with ⟨row, raw, hrow, hsame, hraw, hhash⟩
  have hexp : row.expiresAt = some exp := by
    rw [hsame, hexpires, hreq]
    exact hparse
  refine ⟨key, row, exp, hbody, hrow, hparse, hexp, ?_⟩
  intro hlate draws
  exact verify_dead hkeys hbuilt hrow hraw hhash (hover key.id row hrow hexp hlate)

theorem expiryKept_interleaved (hparse : cfg.parseRfc3339 text = some exp) (hkeys : KeysSound s)
    (hbuilt : CacheBuilt s) {m : KeyMachine} (hm : KeyMachine.Reachable cfg s m) {e : KeyEntry} (he : e ∈ m.log)
    {a : Response} {req : CreateApiKeyRequest} (hw : e.what = .finish a)
    (hstarted : Started m.log e.thread (.create req)) (hreq : req.expiresAt = some text)
    : ExpiryKept cfg text m.store a fun exp => exp.timestamp < m.store.now.timestamp := by
  rcases suffix_of_mem he with ⟨rest, hsuffix⟩
  rcases hm.finished (KeyRequest.handle_gives cfg) hsuffix hw with ⟨q, hq, hanswers⟩
  have hrest := (List.suffix_cons e rest).trans hsuffix
  cases hm.started_unique (hq.of_suffix hrest) hstarted
  have hinserted : Inserted (eventsOf e.thread rest) m.store := by
    intro params k hcalled
    apply hm.inserted e.thread params k
    rcases mem_eventsOf.mp hcalled with ⟨e', he', hcall⟩
    exact mem_eventsOf.mpr ⟨e', hrest.mem he', hcall⟩
  apply expiryKept_of_answers hparse hreq (hm.keysSound_store hkeys) (hm.cacheBuilt hbuilt).1 hinserted
    (hanswers req rfl)
  intro id row _ hexp hlate hlive
  exact absurd hlate (Int.not_lt.mpr (hlive.timestamp hexp))

theorem expiryKept_sequential (hparse : cfg.parseRfc3339 text = some exp) (hkeys : KeysSound s)
    (hbuilt : CacheBuilt s) (hcache : CacheTimely s) {req : CreateApiKeyRequest}
    (hreq : req.expiresAt = some text) (wait : Nat) (visits : List (Visit KeyRequest Draw))
    : ExpiryKept cfg text (served cfg (⟨.create req, draws, wait⟩ :: visits) s)
        ((createApiKey cfg req).run (semantics cfg) draws s).1
        fun exp => exp < (served cfg (⟨.create req, draws, wait⟩ :: visits) s).now := by
  have hrun := run_inv (I := semantics cfg) (P := Inserted) (@createApiKey_conforms cfg _ req) draws
    (s := s) (h := []) (fun _ _ hcalled => absurd hcalled List.not_mem_nil) fun _ _ _ _ _ hs => hs.cons
  rcases hrun with ⟨h, hanswers, hinserted⟩
  have hinserted : Inserted h (served cfg (⟨.create req, draws, wait⟩ :: visits) s) := by
    intro params k hcalled
    rcases hinserted params k hcalled with ⟨row, hrow, hhash, hexpires⟩
    have hevolves := @served_evolves cfg (Server.advance wait
      ((createApiKey cfg req).run (semantics cfg) draws s).2.2) visits
    rcases hevolves.apiKeys _ row hrow with ⟨row', hrow', hkept⟩
    exact ⟨row', hrow', hkept.keyHash.trans hhash, hkept.expiresAt.trans hexpires⟩
  rcases @served_timely cfg s (⟨.create req, draws, wait⟩ :: visits) hkeys hbuilt hcache with
    ⟨hkeys', hbuilt', hcache'⟩
  apply expiryKept_of_answers hparse hreq hkeys' hbuilt' hinserted hanswers
  intro id row hrow hexp hlate hlive
  exact absurd hlate (Int.not_lt.mpr (hcache'.live hkeys' hrow hlive hexp))

end Honoured

namespace Sample

/--
A request for a key of the service account that expires at a given time.
-/
def expiringRequest (text : String) : CreateApiKeyRequest :=
  { keyRequest "service_account" serviceAccountId with expiresAt := some text }

theorem expiringRequest_acceptable (text : String) :
    Acceptable ownerServer (expiringRequest text) .pandaria "service_account" serviceAccountId "default" := by
  have howner : OwnerExists ownerServer "service_account" serviceAccountId "default" :=
    .inr ⟨rfl, _, AList.lookup_insert _, rfl⟩
  rcases keyRequest_acceptable howner with ⟨hparsed, hconsumer, hkind, hnamed, howner, hdistinct, hknown⟩
  exact ⟨hparsed, hconsumer, hkind, hnamed, howner, hdistinct, hknown⟩

/--
The request is answered with a key, whatever the text is.
-/
theorem expiringRequest_created (hsha : ∀ raw, storable (cfg.sha256 raw) = true) (text : String) :
    ((createApiKey cfg (expiringRequest text)).run (semantics cfg) (fun _ => draw 4) ownerServer).1.status
      = 201 := by
  have hacceptable := expiringRequest_acceptable text
  have hfresh : FreshDraw cfg ownerServer (draw 4) := by
    refine ⟨rfl, rfl, storable_ofList (by decide), rfl, hsha _, ?_⟩
    intro id row hrow
    cases hrow
  have hlength : (expiringRequest text).scopes.length ≤ Scope.maxScopesPerKey := by
    simp [expiringRequest, keyRequest, Scope.maxScopesPerKey]
  have hhealthy : Healthy fun _ => draw 4 := fun _ => rfl
  rcases @run_createApiKey cfg _ _ _ _ _ _ _ hacceptable ownerServer_tables hlength hhealthy with ⟨k, hrun⟩
  rcases run_createKey_account hacceptable ownerServer_tables (fun _ => hfresh) ⟨_, AList.lookup_insert _⟩ with
    ⟨rest, auditLogs, hcreated⟩
  rw [hrun, hcreated]

end Sample

/--
The expiry that is requested for a key is honoured if and only if it denotes an instant.
-/
theorem requested_expiry (cfg : Config) (hsha : ∀ raw, storable (cfg.sha256 raw) = true) (text : String) :
    ExpiryHonoured cfg text ↔ (cfg.parseRfc3339 text).isSome = true := by
  constructor
  . intro hhonoured
    have hkept := hhonoured.sequential Sample.ownerServer Sample.ownerServer_sound
      (Sample.uncached_built fun _ => rfl) (fun _ _ hentry => by cases hentry) (Sample.expiringRequest text)
      (fun _ => Sample.draw 4) 0 [] rfl
    rcases hkept (Sample.expiringRequest_created hsha text) with ⟨_, _, exp, _, _, hparse, _⟩
    rw [hparse]
    rfl
  . intro hsome
    rcases Option.isSome_iff_exists.mp hsome with ⟨exp, hparse⟩
    constructor
    . intro s hkeys hbuilt hcache req draws wait visits hreq
      exact expiryKept_sequential hparse hkeys hbuilt hcache hreq wait visits
    . intro s hkeys hbuilt m hm e he a req hw hstarted hreq
      exact expiryKept_interleaved hparse hkeys hbuilt hm he hw hstarted hreq
    . intro hnone
      rw [hparse] at hnone
      contradiction

namespace Sample

def zonedText : String :=
  "2025-06-15T18:00:00+02:00"

/--
The instant that is denoted is known for one text.
-/
def zonedConfig : Config :=
  { config with parseRfc3339 := fun text => if text = zonedText then some (Instant.seconds 1750003200) else none }

end Sample

open Sample in
theorem requested_expiry_zoned : ExpiryHonoured zonedConfig zonedText :=
  (requested_expiry zonedConfig sha256_storable zonedText).mpr (by decide +kernel)

open Sample in
/--
A key that should expire tomorrow is created without an expiry.
-/
theorem requested_expiry_malformed :
    zonedConfig.parseRfc3339 "tomorrow" = none
      ∧ ((createApiKey zonedConfig (expiringRequest "tomorrow")).run (semantics zonedConfig) (fun _ => draw 4)
          ownerServer).1.status = 201
      ∧ (((createApiKey zonedConfig (expiringRequest "tomorrow")).run (semantics zonedConfig)
          (fun _ => draw 4) ownerServer).2.2.apiKeys.select fun _ row => row.expiresAt = none).isEmpty = false
      ∧ ¬ExpiryHonoured zonedConfig "tomorrow" := by
  have hcreated := @expiringRequest_created zonedConfig sha256_storable "tomorrow"
  have hnone : zonedConfig.parseRfc3339 "tomorrow" = none := by
    decide +kernel
  refine ⟨hnone, hcreated, by decide +kernel, ?_⟩
  intro hhonoured
  have hkept := hhonoured.sequential ownerServer ownerServer_sound (uncached_built fun _ => rfl)
    (fun _ _ hentry => by cases hentry) (expiringRequest "tomorrow") (fun _ => draw 4) 0 [] rfl
  rcases hkept hcreated with ⟨_, _, exp, _, _, hparse, _⟩
  rw [hnone] at hparse
  cases hparse

end Aspectus
