import Aspectus.Security.Keys
import Aspectus.Security.Sample

/-!
This module contains when the deletion of an API key takes effect although verifications of the key
are going on at the same time.
-/

namespace Aspectus

open Interaction Machine Statement

variable {cfg : Config} {s : Server} {m : KeyMachine}

/--
A verification has read the key before the point `before` of the log, and stores its answer after the
entry `v`.
-/
def Overtakes (log : List KeyEntry) (before : List KeyEntry) (v : KeyEntry) (keyHash : String) :
    Prop :=
  ∃ y ∈ before, ∃ z restz, z :: restz <:+ log ∧ v ∈ restz ∧ z.thread = y.thread
    ∧ (∃ key, Did y (.key (.findByHash keyHash)) (.ok (some key)))
    ∧ ∃ value ttlSecs, Did z (.cache (.setJson (ApiKeyVerifier.cacheKey keyHash) value ttlSecs)) ()

section Reachable

variable (h : KeyMachine.Reachable cfg s m) {e : KeyEntry} {rest : List KeyEntry}
include h

theorem KeyMachine.Reachable.sound (he : e ∈ m.log) : Entry.Sound (semantics cfg) e :=
  Reaches.sound h e he

theorem KeyMachine.Reachable.allowed (he : e :: rest <:+ m.log) {o : Op} {r : o.Res}
    (hdid : Did e o r)
    : ∃ q, Started rest e.thread q ∧ KeyAllowed q (eventsOf e.thread rest) o := by
  rcases hdid with ⟨d, hw⟩
  exact Reaches.called (KeyRequest.handle_conforms cfg) h he hw

theorem KeyMachine.Reachable.answered (he : e :: rest <:+ m.log) {a : Response}
    (hw : e.what = .finish a)
    : ∃ q, Started rest e.thread q ∧ KeyAnswered cfg q (eventsOf e.thread rest) a :=
  Reaches.finished (KeyRequest.handle_conforms cfg) h he hw

theorem KeyMachine.Reachable.evolves (he : e :: rest <:+ m.log) {e' : KeyEntry}
    (he' : e' ∈ rest) : Evolves (e'.post (semantics cfg)) e.pre :=
  (evolution cfg).between h he he'

theorem KeyMachine.Reachable.keysSound (hs : KeysSound s) (he : e ∈ m.log) : KeysSound e.pre := by
  refine Reaches.pre_inv (P := KeysSound) (fun n s hs => hs.advance n) hs ?_ h he
  intro _ e _ _ _ hpre
  rcases e.post_cases (semantics cfg) with hsame | ⟨ev, d, _, hexec⟩
  . rw [hsame]
    exact hpre
  . rw [hexec]
    exact hpre.exec

/--
A key that was revoked is dead from then on.
-/
theorem KeyMachine.Reachable.dead (hs : KeysSound s) {u : KeyEntry} {restu : List KeyEntry}
    (hu : u :: restu <:+ m.log) {id : String} (hdid : Did u (.key (.revoke id)) (.ok true))
    {keyHash : String}
    (hhash : ∃ row, (u.post (semantics cfg)).apiKeys.lookup id = some row ∧ row.keyHash = keyHash)
    : ∀ e rest, e :: rest <:+ m.log → u :: restu <:+ rest → Dead keyHash e.pre := by
  have hus := h.sound (hu.mem List.mem_cons_self)
  have hrun := hdid.run hus fun d hres => ⟨hres.symm, rfl⟩
  rcases hhash with ⟨row, hrow, hhash⟩
  have hpost : Dead keyHash (u.post (semantics cfg)) := by
    have hsound : KeysSound (u.post (semantics cfg)) := by
      rcases hdid.exec hus with ⟨d, _, hexec⟩
      rw [hexec]
      exact (h.keysSound hs (hu.mem List.mem_cons_self)).exec
    rw [← hhash]
    apply hsound.dead hrow
    rcases revokeApiKey_ok hrun with ⟨hfalse, _⟩ | ⟨_, hpost, row', hrow', _⟩
    . contradiction
    . rw [hpost] at hrow
      simp only [Table.lookup_updateAt, if_true] at hrow
      rcases Option.map_eq_some_iff.mp hrow with ⟨_, _, rfl⟩
      exact .inl rfl
  refine (Reaches.persists (P := Dead keyHash) (B := fun _ => False) ?_
    (fun n s hs => hs.advance n) h hu hpost fun _ _ _ _ hbad => hbad).2
  intro e _ hdead
  rcases e.post_cases (semantics cfg) with hsame | ⟨ev, d, _, hexec⟩
  . rw [hsame]
    exact hdead
  . rw [hexec]
    exact hdead.exec

/--
A key that was revoked and whose answer was removed from the cache is killed from then on, if nobody
overtakes the revocation.
-/
theorem KeyMachine.Reachable.killed (hs : KeysSound s) {u v : KeyEntry} {restu restv : List KeyEntry}
    (hu : u :: restu <:+ restv) (hv : v :: restv <:+ m.log) {id keyHash : String}
    (hrevoked : Did u (.key (.revoke id)) (.ok true))
    (hhash : ∃ row, (u.post (semantics cfg)).apiKeys.lookup id = some row ∧ row.keyHash = keyHash)
    (hcleared : ∃ d, v.what
      = .call ⟨.cache (.del (ApiKeyVerifier.cacheKey keyHash)), ()⟩ d ∧ d.fault = none)
    (hovertakes : ¬Overtakes m.log restu v keyHash)
    : ∀ e rest, e :: rest <:+ m.log → v :: restv <:+ rest → Killed keyHash e.pre := by
  have hulog := hu.trans (suffix_tail hv)
  have hdead := h.dead hs hulog hrevoked hhash
  have hpost : Killed keyHash (v.post (semantics cfg)) := by
    rcases hcleared with ⟨d, hw, hfault⟩
    have hexec : v.post (semantics cfg) = v.pre.del (ApiKeyVerifier.cacheKey keyHash) := by
      unfold Entry.post
      rw [hw]
      change (CacheOp.exec d v.pre (.del (ApiKeyVerifier.cacheKey keyHash))).2 = _
      unfold CacheOp.exec
      dsimp only
      rw [hfault]
    rw [hexec]
    refine ⟨⟨(hdead v restv hv hu).present, (hdead v restv hv hu).unusable⟩, ?_⟩
    simp [Server.cached, Server.del]
  refine (Reaches.persists (P := Killed keyHash)
    (B := fun e => ∃ o r, Did e o r ∧ o.caches keyHash) ?_
    (fun n s hs => hs.advance n) h hv hpost ?_).2
  . intro e he hkilled
    rcases e.post_cases (semantics cfg) with hsame | ⟨ev, d, hw, hexec⟩
    . rw [hsame]
      exact hkilled
    . rw [hexec]
      exact hkilled.exec fun hcaches => he ⟨ev.op, ev.res, ⟨d, hw⟩, hcaches⟩
  . rintro z restz hz hvz ⟨o, r, hdid, hcaches⟩
    -- Whoever caches an answer has read the row before it was revoked.
    rcases h.allowed hz hdid with ⟨q, _, hallowed⟩
    rcases hallowed.caches hcaches with ⟨key, hfound, hunrevoked⟩
    rcases hfound.located with ⟨y, resty, hy, hyi, hydid⟩
    have hylog := hy.trans (suffix_tail hz)
    have hread := (hydid.query (h.sound (hylog.mem List.mem_cons_self)) fun d hres => hres.symm)
    rcases suffix_trichotomy hulog hylog with ⟨heq, _⟩ | hold | hold
    . subst heq
      cases hrevoked.unique hydid
    . apply hovertakes
      refine ⟨y, hold.mem List.mem_cons_self, z, restz, hz, hvz, hyi.symm, ⟨key, hydid⟩, ?_⟩
      rcases hcaches with ⟨value, ttl, rfl⟩ | ⟨value, ttl, rfl⟩
      . exact ⟨value, ttl, hdid⟩
      . exact absurd rfl (hallowed keyHash)
    . exact absurd hunrevoked ((hdead y resty hylog hold).found hread)

/--
A deletion that was confirmed has revoked the key, has cleared the cache after that, and both are about
the hash of the row.
-/
theorem KeyMachine.Reachable.deleted {f : KeyEntry} {restf : List KeyEntry}
    (hf : f :: restf <:+ m.log) {id : String} (hreq : Started m.log f.thread (.delete id))
    {a : Response} (hfw : f.what = .finish a) (hstatus : a.status = 204) {row : ApiKeyRow}
    (hrow : f.pre.apiKeys.lookup id = some row)
    : ∃ v restv u restu, v :: restv <:+ restf ∧ v.thread = f.thread
        ∧ Did v (.cache (.del (ApiKeyVerifier.cacheKey row.keyHash))) () ∧ u :: restu <:+ restv
        ∧ u.thread = f.thread ∧ Did u (.key (.revoke id)) (.ok true)
        ∧ ∃ row', (u.post (semantics cfg)).apiKeys.lookup id = some row'
          ∧ row'.keyHash = row.keyHash := by
  rcases h.answered hf hfw with ⟨q', hq', hanswered⟩
  have := Reaches.started_unique h hreq (hq'.of_suffix (suffix_tail hf))
  subst this
  rcases hanswered hstatus with ⟨key, hfind, hcleared⟩
  rcases hcleared.located with ⟨v, restv, hv, hvi, hvdid⟩
  have hvlog := hv.trans (suffix_tail hf)
  rcases h.allowed hvlog hvdid with ⟨q'', hq'', id', key', rfl, _, _, hrevoke⟩
  have := Reaches.started_unique h hreq (hvi ▸ hq''.of_suffix (suffix_tail hvlog))
  injection this with this
  subst this
  rcases hrevoke.located with ⟨u, restu, hu, hui, hudid⟩
  have hkeyHash : key.keyHash = row.keyHash := by
    rcases hfind.located with ⟨e, rest, he, _, hdid⟩
    have hemem := (he.trans (suffix_tail hf)).mem List.mem_cons_self
    rcases findById_ok (hdid.query (h.sound hemem) fun d hres => hres.symm) with
      ⟨row₀, hrow₀, hdecode⟩
    rcases ((evolution cfg).post e).apiKeys _ _ hrow₀ with ⟨row₁, hrow₁, hkept₁⟩
    rcases (h.evolves hf (he.mem List.mem_cons_self)).apiKeys _ _ hrow₁ with ⟨row₂, hrow₂, hkept₂⟩
    rw [hrow] at hrow₂
    injection hrow₂ with hrow₂
    rw [hrow₂, hkept₂.keyHash, hkept₁.keyHash]
    exact (decodeApiKey_ok hdecode).2.2.2.2.1
  rw [hkeyHash] at hvdid
  refine ⟨v, restv, u, restu, hv, hvi, hvdid, hu, hui.trans hvi, hudid, ?_⟩
  have hulog := hu.trans (suffix_tail hvlog)
  have hrun := hudid.run (h.sound (hulog.mem List.mem_cons_self)) fun d hres => ⟨hres.symm, rfl⟩
  rcases revokeApiKey_ok hrun with ⟨hfalse, _⟩ | ⟨_, hpost, row', hrow', _⟩
  . contradiction
  . have hpost' : (u.post (semantics cfg)).apiKeys.lookup id
        = some { row' with revokedAt := some u.pre.now } := by
      rw [hpost]
      simp [hrow']
    rcases (h.evolves hf ((hu.trans (suffix_tail hv)).mem List.mem_cons_self)).apiKeys _ _ hpost' with
      ⟨row'', hrow'', hkept⟩
    rw [hrow] at hrow''
    injection hrow'' with hrow''
    exact ⟨_, hpost', hrow'' ▸ hkept.keyHash.symm⟩

/--
A verification during which the key is killed all along finds it inactive.
-/
theorem KeyMachine.Reachable.verified_killed {g : KeyEntry} {restg : List KeyEntry}
    (hg : g :: restg <:+ m.log) {token : String} {raw : List UInt8}
    (hreq : Started m.log g.thread (.verify token) ∨ Started m.log g.thread (.introspect token))
    (hraw : extractRawFromKey token = some raw)
    (hkilled : ∀ e rest, e :: rest <:+ restg → e.thread = g.thread → (∃ ev d, e.what = .call ev d) →
      Killed (cfg.sha256 raw) e.pre) {b : Response} {r : IntrospectResponse}
    (hw : g.what = .finish b) (hbody : b.body = .introspection r) : r.active = false := by
  have hsilent : ¬Vouched (eventsOf g.thread restg) (cfg.sha256 raw) := by
    have hexec : ∀ {o : Op} {x : o.Res}, Called (eventsOf g.thread restg) o x →
        ∃ s' d, Killed (cfg.sha256 raw) s' ∧ x = (o.exec cfg d s').1 := by
      intro o x hcalled
      rcases hcalled.located with ⟨e, rest, he, hei, hdid⟩
      have hemem := (he.trans (suffix_tail hg)).mem List.mem_cons_self
      rcases hdid.exec (h.sound hemem) with ⟨d, hres, _⟩
      rcases hdid with ⟨d', hew⟩
      exact ⟨e.pre, d, hkilled e rest he hei ⟨_, d', hew⟩, hres⟩
    rintro (⟨cached, hcached⟩ | ⟨key, hfound, hunrevoked⟩)
    . rcases hexec hcached with ⟨s', d, hkilled, hres⟩
      exact hkilled.silent.1 cached hres.symm
    . rcases hexec hfound with ⟨s', d, hkilled, hres⟩
      exact hkilled.silent.2 key hres.symm hunrevoked
  have hverified : Verified cfg token (eventsOf g.thread restg) r := by
    rcases h.answered hg hw with ⟨p, hp, hanswered⟩
    have hp := hp.of_suffix (suffix_tail hg)
    rcases hreq with hreq | hreq
    . have := Reaches.started_unique h hreq hp
      subst this
      exact hanswered r hbody
    . have := Reaches.started_unique h hreq hp
      subst this
      exact hanswered r hbody
  cases hactive : r.active with
  | false => rfl
  | true => exact absurd (hverified raw hraw hactive) hsilent

end Reachable

/--
The deletion of an API key takes effect at once, also for verifications that are made at the same
time: whatever starts after the deletion was confirmed finds the key inactive. This holds if no
verification that has read the key before it was revoked stores its answer after the cache was cleared.
-/
theorem deletion_survives_introspection (cfg : Config) (s : Server) (hs : KeysSound s)
    (m : KeyMachine) (h : KeyMachine.Reachable cfg s m)
    (id : String) (f : KeyEntry) (restf : List KeyEntry) (hf : f :: restf <:+ m.log)
    (hhealthy : ∀ e ∈ m.log, e.thread = f.thread → ∀ ev d, e.what = .call ev d → d.fault = none)
    (hreq : Started m.log f.thread (.delete id)) (a : Response) (hfw : f.what = .finish a)
    (hstatus : a.status = 204) (row : ApiKeyRow) (hrow : f.pre.apiKeys.lookup id = some row)
    (hovertakes : ∀ u restu v, u :: restu <:+ m.log → u.thread = f.thread →
      Did u (.key (.revoke id)) (.ok true) → v ∈ m.log → v.thread = f.thread →
      Did v (.cache (.del (ApiKeyVerifier.cacheKey row.keyHash))) () →
      ¬Overtakes m.log restu v row.keyHash) :
    ∀ st rest₀, st :: rest₀ <:+ m.log → f :: restf <:+ rest₀ → ∀ token raw q, st.what = .start q →
      q = .verify token ∨ q = .introspect token → extractRawFromKey token = some raw →
      cfg.sha256 raw = row.keyHash →
      ∀ g ∈ m.log, g.thread = st.thread → ∀ b r, g.what = .finish b → b.body = .introspection r →
        r.active = false := by
  intro st rest₀ hst hfst token raw q hstw hq hraw hhash g hg hgi b r hgw hbody
  rcases h.deleted hf hreq hfw hstatus hrow with
    ⟨v, restv, u, restu, hv, hvi, hvdid, hu, hui, hudid, hhash'⟩
  have hvlog := hv.trans (suffix_tail hf)
  have hvmem := hvlog.mem List.mem_cons_self
  have hkilled := h.killed hs hu hvlog hudid hhash'
    (by
      rcases hvdid with ⟨d, hw⟩
      exact ⟨d, hw, hhealthy v hvmem hvi _ d hw⟩)
    (hovertakes u restu v (hu.trans (suffix_tail hvlog)) hui hudid hvmem hvi hvdid)
  rcases suffix_of_mem hg with ⟨restg, hrestg⟩
  have hstarted : Started m.log g.thread q := ⟨st, hst.mem List.mem_cons_self, hgi.symm, hstw⟩
  refine h.verified_killed hrestg (hq.imp (· ▸ hstarted) (· ▸ hstarted)) hraw ?_ hgw hbody
  -- Everything the verification does happens after the cache was cleared.
  rw [hhash]
  rintro e rest he hei ⟨ev, d, hew⟩
  have helog := he.trans (suffix_tail hrestg)
  apply hkilled e rest helog
  rcases Reaches.after_start h hst hstw helog (hei.trans hgi) with ⟨rfl, _⟩ | hold
  . rw [hstw] at hew
    contradiction
  . exact hv.trans ((suffix_tail hfst).trans (suffix_tail hold))

namespace Sample

def answersActivity (i : Nat) (active : Bool) (e : KeyEntry) : Bool :=
  e.thread = i && match e.what with
    | .finish ⟨_, .introspection r⟩ => r.active = active
    | _ => false

theorem of_answersActivity {i : Nat} {active : Bool} {e : KeyEntry}
    (h : answersActivity i active e = true)
    : e.thread = i ∧ ∃ a r, e.what = .finish a ∧ a.body = .introspection r ∧ r.active = active := by
  unfold answersActivity at h
  simp only [Bool.and_eq_true, decide_eq_true_eq] at h
  rcases h with ⟨hi, h⟩
  split at h
  . next status r hw => exact ⟨hi, _, r, hw, rfl, by simpa using h⟩
  . contradiction

def isSetJson (e : KeyEntry) : Bool :=
  match e.what with
  | .call ⟨.cache (.setJson ..), _⟩ _ => true
  | _ => false

/--
The key is verified.
-/
def verified : KeyMachine :=
  serve KeyRequest.handle (init keyServer) 1 (.verify keyToken) 1 4

/--
The key is deleted after that.
-/
def deleted : KeyMachine :=
  serve KeyRequest.handle verified 2 (.delete keyId) 2 8

/--
A verification has read the key, but not yet stored its answer.
-/
def verifying : KeyMachine :=
  serve KeyRequest.handle (init keyServer) 1 (.verify keyToken) 1 2

/--
The key is deleted meanwhile.
-/
def overtaken : KeyMachine :=
  let deleting := serve KeyRequest.handle verifying 2 (.delete keyId) 2 8
  resume KeyRequest.handle deleting 1 1 2

/--
The key is verified once more.
-/
def verifiedAgain (m : KeyMachine) : KeyMachine :=
  serve KeyRequest.handle m 3 (.verify keyToken) 3 3

theorem keyServer_sound : KeysSound keyServer := by
  have hkeys : ∀ id row, keyServer.apiKeys.lookup id = some row →
      id = keyId ∧ row.keyHash = sha256 (raw 4) := by
    intro id row hrow
    unfold keyServer at hrow
    dsimp only at hrow
    by_cases hid : id = keyId
    . subst hid
      rw [AList.lookup_insert] at hrow
      injection hrow with hrow
      subst hrow
      exact ⟨rfl, rfl⟩
    . rw [AList.lookup_insert_ne hid] at hrow
      contradiction
  constructor
  . intro id id' row row' hrow hrow' _
    rw [(hkeys id row hrow).1, (hkeys id' row' hrow').1]
  . intro id row hrow
    rcases hkeys id row hrow with ⟨rfl, hhash⟩
    rw [hhash]
    exact ⟨storable_ofList (by decide), sha256_storable _⟩

theorem deleted_reachable : KeyMachine.Reachable config keyServer (verifiedAgain deleted) :=
  reachable_serve (reachable_serve (reachable_serve reachable_init))

theorem overtaken_reachable : KeyMachine.Reachable config keyServer (verifiedAgain overtaken) :=
  reachable_serve (reachable_resume (reachable_serve (reachable_serve reachable_init)))

theorem deleted_start :
    ⟨2, verified.store, .start (.delete keyId)⟩ :: verified.log <:+ deleted.log :=
  serve_start (by rw [verified, serve_threads (by decide)]; rfl)

theorem overtaken_start :
    ⟨2, verifying.store, .start (.delete keyId)⟩ :: verifying.log <:+ overtaken.log :=
  (serve_start (by rw [verifying, serve_threads (by decide)]; rfl)).trans (reaches_runs _ _).suffix

theorem deleted_free : (deleted.threads 3).isNone = true := by
  rw [deleted, serve_threads (by decide), verified, serve_threads (by decide)]
  rfl

theorem overtaken_free : (overtaken.threads 3).isNone = true := by
  rw [overtaken, resume_threads (by decide), serve_threads (by decide), verifying, serve_threads (by decide)]
  rfl

theorem verifiedAgain_start {m : KeyMachine} (hfree : (m.threads 3).isNone = true) :
    ⟨3, m.store, .start (.verify keyToken)⟩ :: m.log <:+ (verifiedAgain m).log :=
  serve_start hfree

/--
The only verification that stores its answer was answered before the deletion.
-/
theorem deleted_not_overtakes (hanswered : verified.log.any (answers 1 200) = true)
    (hstores : (verifiedAgain deleted).log.all (fun e => !isSetJson e || e.thread == 1) = true)
    {before : List KeyEntry} {v : KeyEntry} {keyHash : String} (hi : v.thread = 2)
    : ¬Overtakes (verifiedAgain deleted).log before v keyHash := by
  rintro ⟨_, _, z, restz, hz, hvz, _, _, value, ttl, d, hw⟩
  have hstart := deleted_start.trans (suffix_tail (verifiedAgain_start deleted_free))
  rcases suffix_of_mem hvz with ⟨restv, hrestv⟩
  have hafter : verified.log <:+ restz := by
    rcases Reaches.after_start deleted_reachable hstart rfl (hrestv.trans (suffix_tail hz)) hi with
      ⟨_, rfl⟩ | hold
    . exact suffix_tail hrestv
    . exact (suffix_tail hold).trans (suffix_tail hrestv)
  rcases List.any_eq_true.mp hanswered with ⟨f, hf, hfinish⟩
  rcases of_answers hfinish with ⟨hfi, a, hfw, _⟩
  have hlast := Reaches.finish_last deleted_reachable hz (hafter.mem hf) hfw
  have := List.all_eq_true.mp hstores z (hz.mem List.mem_cons_self)
  simp only [isSetJson, hw, Bool.not_true, Bool.false_or, beq_iff_eq] at this
  exact hlast (this.trans hfi.symm)

end Sample

open Sample in
theorem deletion_survives_introspection_deleted :
    ∃ g ∈ (verifiedAgain deleted).log, g.thread = 3 ∧ ∃ b r, g.what = .finish b
      ∧ b.body = .introspection r ∧ r.active = false := by
  have hchecks : verified.log.any (answers 1 200) = true
      ∧ (verifiedAgain deleted).log.all (fun e => !isSetJson e || e.thread == 1) = true
      ∧ deleted.log.any (answers 2 204) = true
      ∧ (verifiedAgain deleted).log.any (answersActivity 3 false) = true
      ∧ (verifiedAgain deleted).log.all healthy = true
      ∧ (keyServer.apiKeys.lookup keyId).any (fun row => row.keyHash = sha256 (raw 4)) = true := by
    decide +kernel
  rcases hchecks with ⟨hverified, hstores, hconfirmed, hanswered, hhealthy, hrow⟩
  rcases List.any_eq_true.mp hconfirmed with ⟨f, hf, hfinish⟩
  rcases of_answers hfinish with ⟨hfi, a, hfw, hstatus⟩
  rcases suffix_of_mem hf with ⟨restf, hrestf⟩
  rcases List.any_eq_true.mp hanswered with ⟨g, hg, hactivity⟩
  rcases of_answersActivity hactivity with ⟨hgi, b, r, hgw, hbody, _⟩
  have hstart := verifiedAgain_start deleted_free
  have hflog := hrestf.trans (suffix_tail hstart)
  rcases (Option.any_eq_true _ _).mp hrow with ⟨row₀, hrow₀, hhash⟩
  have hhash : row₀.keyHash = config.sha256 (raw 4) := of_decide_eq_true hhash
  rcases ((evolution config).log deleted_reachable (hflog.mem List.mem_cons_self)).1.apiKeys _ _ hrow₀
    with ⟨row, hrow, hkept⟩
  have hinactive := deletion_survives_introspection config keyServer keyServer_sound
    (verifiedAgain deleted) deleted_reachable keyId f restf hflog
    (fun e he _ ev d hw => of_healthy (List.all_eq_true.mp hhealthy e he) hw)
    ⟨_, (suffix_tail hstart).mem (deleted_start.mem List.mem_cons_self), hfi.symm, rfl⟩ a hfw hstatus
    row hrow (fun u restu v _ _ _ _ hvi _ => deleted_not_overtakes hverified hstores (hvi.trans hfi))
    _ _ hstart hrestf keyToken (raw 4) _ rfl (.inl rfl) keyToken_raw
    (hkept.keyHash.trans hhash).symm g hg hgi b r hgw hbody
  exact ⟨g, hg, hgi, b, r, hgw, hbody, hinactive⟩

open Sample in
/--
An answer that was read before the deletion and is stored after it brings the key back.
-/
theorem deletion_overtaken :
    ¬∀ m, KeyMachine.Reachable config keyServer m →
      (∀ e ∈ m.log, ∀ ev d, e.what = .call ev d → d.fault = none) →
      ∀ f restf, f :: restf <:+ m.log → Started m.log f.thread (.delete keyId) →
      ∀ a, f.what = .finish a → a.status = 204 →
      ∀ st rest₀, st :: rest₀ <:+ m.log → f :: restf <:+ rest₀ →
      ∀ token bytes, st.what = .start (.verify token) → extractRawFromKey token = some bytes →
      config.sha256 bytes = sha256 (raw 4) →
      ∀ g ∈ m.log, g.thread = st.thread → ∀ b r, g.what = .finish b → b.body = .introspection r →
        r.active = false := by
  intro hclaim
  have hchecks : overtaken.log.any (answers 2 204) = true
      ∧ (verifiedAgain overtaken).log.any (answersActivity 3 true) = true
      ∧ (verifiedAgain overtaken).log.all healthy = true := by
    decide +kernel
  rcases hchecks with ⟨hconfirmed, hanswered, hhealthy⟩
  rcases List.any_eq_true.mp hconfirmed with ⟨f, hf, hfinish⟩
  rcases of_answers hfinish with ⟨hfi, a, hfw, hstatus⟩
  rcases suffix_of_mem hf with ⟨restf, hrestf⟩
  rcases List.any_eq_true.mp hanswered with ⟨g, hg, hactivity⟩
  rcases of_answersActivity hactivity with ⟨hgi, b, r, hgw, hbody, hactive⟩
  have hstart := verifiedAgain_start overtaken_free
  have hinactive := hclaim (verifiedAgain overtaken) overtaken_reachable
    (fun e he ev d hw => of_healthy (List.all_eq_true.mp hhealthy e he) hw)
    f restf (hrestf.trans (suffix_tail hstart))
    ⟨_, (suffix_tail hstart).mem (overtaken_start.mem List.mem_cons_self), hfi.symm, rfl⟩ a hfw hstatus
    _ _ hstart hrestf keyToken (raw 4) rfl keyToken_raw rfl g hg hgi b r hgw hbody
  exact Bool.false_ne_true (hinactive.symm.trans hactive)

end Aspectus
