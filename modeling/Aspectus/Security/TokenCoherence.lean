import Aspectus.Security.TokenEffects

/-!
This module contains what the cache tells about the service token of a project while it is replaced.
-/

namespace Aspectus

open Interaction Prog Machine Statement

/--
The hash of the active token, if there is one.
-/
def RowState.current (row : RowState) : Option String :=
  row.bind fun row => if row.2 then some row.1 else none

theorem RowState.current_eq_some {row : RowState} {tokenHash : String} :
    row.current = some tokenHash ↔ row = some (tokenHash, true) := by
  unfold RowState.current
  rcases row with _ | ⟨hash, active⟩
  . simp
  . cases active with
    | _ => simp

/--
The token with this hash belongs to the project from the start, or was stored for it.
-/
def Stored (s : Server) (log : List TokenEntry) (p : Project) (tokenHash : String) : Prop :=
  (∃ active, s.rowState p = some (tokenHash, active))
    ∨ ∃ e ∈ log, ∃ tokenPrefix old, Did e (.serviceToken (.upsert p tokenHash tokenPrefix)) (.ok old)

/--
No two tokens have the same hash.
-/
structure TokensDiffer (s : Server) (log : List TokenEntry) : Prop where
  rows : ∀ p p' tokenHash active active', s.rowState p = some (tokenHash, active) →
    s.rowState p' = some (tokenHash, active') → p = p'
  stored : ∀ e rest, e :: rest <:+ log → ∀ p tokenHash tokenPrefix old,
    Did e (.serviceToken (.upsert p tokenHash tokenPrefix)) (.ok old) →
    ∀ p', ¬Stored s rest p' tokenHash

/--
The entry replaces or revokes the token of the project.
-/
def Replaces (p : Project) (e : TokenEntry) : Prop :=
  (∃ tokenHash tokenPrefix old, Did e (.serviceToken (.upsert p tokenHash tokenPrefix)) (.ok old))
    ∨ Did e (.serviceToken (.revoke p)) (.ok true)

/--
Whenever a request replaces or revokes the token of the project, the active token is the one that the
request has read.
-/
def Undisturbed (p : Project) (log : List TokenEntry) : Prop :=
  ∀ e rest, e :: rest <:+ log → Replaces p e → ∀ r ∈ rest, r.thread = e.thread → ReadRow p r →
    (r.pre.rowState p).current = (e.pre.rowState p).current

/--
A verification takes place at once: each of its entries directly follows the one before.
-/
def VerifiesAtOnce (log : List TokenEntry) : Prop :=
  ∀ e rest, e :: rest <:+ log → (∃ token, Started log e.thread (.verify token)) →
    (∀ q, e.what ≠ .start q) → ∃ e' rest', rest = e' :: rest' ∧ e'.thread = e.thread

/--
Nothing fails to be removed from the cache.
-/
def Invalidates (log : List TokenEntry) : Prop :=
  ∀ e ∈ log, ∀ key d, e.what = .call ⟨.cache (.del key), ()⟩ d → d.fault = none

/--
Thread `i` has replaced or revoked the active token with this hash, but not yet removed it from the cache.
-/
def Pending (p : Project) (log : List TokenEntry) (i : Nat) (tokenHash : String) : Prop :=
  (∃ w ∈ log, w.thread = i ∧ Replaces p w ∧ w.pre.rowState p = some (tokenHash, true))
    ∧ ∀ e ∈ log, e.thread = i → ∀ key, ¬Did e (.cache (.del key)) ()

/--
Only active tokens are cached.
-/
def CacheCoherent (s : Server) : Prop :=
  ∀ tokenHash, (s.cached (ServiceTokenVerifier.cacheKey tokenHash)).isSome →
    ∃ p, s.rowState p = some (tokenHash, true)

section Conditions

variable {s : Server} {log rest : List TokenEntry} {p : Project} {tokenHash : String}

theorem Stored.of_suffix (h : Stored s rest p tokenHash) (hsuffix : rest <:+ log) :
    Stored s log p tokenHash := by
  rcases h with hrow | ⟨e, he, hdid⟩
  . exact .inl hrow
  . exact .inr ⟨e, hsuffix.mem he, hdid⟩

theorem TokensDiffer.of_suffix (h : TokensDiffer s log) (hsuffix : rest <:+ log) : TokensDiffer s rest where
  rows := h.rows
  stored e rest' he := h.stored e rest' (he.trans hsuffix)

/--
A hash belongs to a single project.
-/
theorem TokensDiffer.unique (h : TokensDiffer s log) {p' : Project} (hp : Stored s log p tokenHash)
    (hp' : Stored s log p' tokenHash) : p = p' := by
  rcases hp with ⟨_, hrow⟩ | ⟨e, he, _, _, hdid⟩
  . rcases hp' with ⟨_, hrow'⟩ | ⟨e', he', _, _, hdid'⟩
    . exact h.rows _ _ _ _ _ hrow hrow'
    . rcases suffix_of_mem he' with ⟨rest', hrest'⟩
      exact absurd (.inl ⟨_, hrow⟩) (h.stored e' rest' hrest' _ _ _ _ hdid' p)
  . rcases suffix_of_mem he with ⟨rest, hrest⟩
    rcases hp' with ⟨_, hrow'⟩ | ⟨e', he', _, _, hdid'⟩
    . exact absurd (.inl ⟨_, hrow'⟩) (h.stored e rest hrest _ _ _ _ hdid p')
    . rcases suffix_of_mem he' with ⟨rest', hrest'⟩
      rcases suffix_trichotomy hrest hrest' with ⟨rfl, _⟩ | hold | hold
      . injection hdid.unique hdid' with heq
        injection heq
      . exact absurd (.inr ⟨e', hold.mem List.mem_cons_self, _, _, hdid'⟩)
          (h.stored e rest hrest _ _ _ _ hdid p')
      . exact absurd (.inr ⟨e, hold.mem List.mem_cons_self, _, _, hdid⟩)
          (h.stored e' rest' hrest' _ _ _ _ hdid' p)

theorem Undisturbed.of_suffix (h : Undisturbed p log) (hsuffix : rest <:+ log) : Undisturbed p rest :=
  fun e rest' he => h e rest' (he.trans hsuffix)

theorem VerifiesAtOnce.of_suffix (h : VerifiesAtOnce log) (hsuffix : rest <:+ log) :
    VerifiesAtOnce rest := by
  rintro e rest' he ⟨token, htoken⟩
  exact h e rest' (he.trans hsuffix) ⟨token, htoken.of_suffix hsuffix⟩

theorem Invalidates.of_suffix (h : Invalidates log) (hsuffix : rest <:+ log) : Invalidates rest :=
  fun e he => h e (hsuffix.mem he)

theorem Replaces.wrote {e : TokenEntry} (h : Replaces p e) : Wrote p e :=
  h.imp_right fun h => ⟨_, h⟩

theorem Pending.of_suffix {i : Nat} (h : Pending p rest i tokenHash) {e : TokenEntry}
    (he : e.thread = i → ∀ key, ¬Did e (.cache (.del key)) ()) : Pending p (e :: rest) i tokenHash := by
  rcases h with ⟨⟨w, hw, hreplaces⟩, hnone⟩
  refine ⟨⟨w, List.mem_cons_of_mem _ hw, hreplaces⟩, ?_⟩
  exact List.forall_mem_cons.mpr ⟨he, hnone⟩

end Conditions

theorem tokenKey_injective {tokenHash tokenHash' : String}
    (h : ServiceTokenVerifier.cacheKey tokenHash = ServiceTokenVerifier.cacheKey tokenHash') :
    tokenHash = tokenHash' :=
  append_right_injective h

theorem rateLimitKey_ne_tokenKey (name : String) (bucket : Nat) (tokenHash : String) :
    rateLimitKey name bucket ≠ ServiceTokenVerifier.cacheKey tokenHash := by
  unfold rateLimitKey
  rw [String.append_assoc, String.append_assoc]
  exact append_ne_append (by decide) (by decide) _ _

/--
A request that has replaced or revoked the token it has read also removes it from the cache.
-/
theorem Course.forgotten {cfg : Config} {q : ProjectTokenRequest} {p : Project} {h : List (Event Api)}
    {status : Nat} (hcourse : Course cfg q p h status) {token : StoredServiceToken}
    (hread : Called h (.serviceToken (.getByProject p)) (.ok (some token))) (hactive : token.isActive = true)
    (hreplaced : (∃ tokenHash tokenPrefix old,
        Called h (.serviceToken (.upsert p tokenHash tokenPrefix)) (.ok old))
      ∨ Called h (.serviceToken (.revoke p)) (.ok true))
    : Called h (.cache (.del (ServiceTokenVerifier.cacheKey token.tokenHash))) () := by
  unfold Called at hread hreplaced
  cases hcourse with
  | stored token' raw old tokenHash tokenPrefix tail htail hforgotten =>
    rcases List.mem_append.mp hread with hmem | hmem
    . exact absurd hmem (not_mem_of_elsewhere htail)
    . have htoken : token' = some token := by simpa [readRow, drewBytes, eq_comm] using hmem
      exact (hforgotten token htoken hactive).append_left _
  | revoked token' tail htail hforgotten =>
    rcases List.mem_append.mp hread with hmem | hmem
    . exact absurd hmem (not_mem_of_elsewhere htail)
    . have htoken : token' = token := by simpa [readRow, eq_comm] using hmem
      rw [← htoken]
      exact hforgotten.append_left _
  | _ => simp [readRow, drewBytes] at hreplaced

namespace TokenMachine

variable {cfg : Config} {s : Server} {p : Project} {m : TokenMachine}
  (hm : TokenMachine.Reachable cfg s m)
include hm

/--
The hash of a row belongs to its project.
-/
theorem stored_of_row {tokenHash : String} {active : Bool}
    (hrow : m.store.rowState p = some (tokenHash, active)) : Stored s m.log p tokenHash := by
  induction hm generalizing active with
  | refl => exact .inl ⟨active, hrow⟩
  | @act m' h a ih =>
    have hchange := act_change (semantics cfg) (ProjectTokenRequest.handle cfg) m' a
    have hm' := h.act a
    rcases hchange.log with hlog | ⟨e, hlog, hpre, hpost⟩
    . rw [hlog]
      refine ih (?_ : m'.store.rowState p = some (tokenHash, active))
      generalize act (semantics cfg) (ProjectTokenRequest.handle cfg) m' a = m'' at hchange hlog hrow
      cases hchange with
      | none => exact hrow
      | tick n => exact hrow
      | _ => simp at hlog
    . rw [hlog]
      rw [hpost] at hrow
      have he : e :: m'.log <:+ (act (semantics cfg) (ProjectTokenRequest.handle cfg) m' a).log := by
        simp only [hlog, List.suffix_refl]
      rcases row_cases hm' he p with ⟨hkept, _⟩ | ⟨_, _, _, hdid, hnew⟩ | ⟨_, hrevoked⟩
      . exact (ih (hpre ▸ hkept ▸ hrow)).of_suffix (List.suffix_cons _ _)
      . rw [hnew] at hrow
        injection hrow with hrow
        injection hrow with hhash _
        exact .inr ⟨e, List.mem_cons_self, _, _, hhash ▸ hdid⟩
      . rw [hrevoked] at hrow
        rcases Option.map_eq_some_iff.mp hrow with ⟨⟨hash, active'⟩, hold, heq⟩
        injection heq with hhash _
        subst hhash
        exact (ih (hpre ▸ hold)).of_suffix (List.suffix_cons _ _)

theorem stored_of_pre {e : TokenEntry} {rest : List TokenEntry} (he : e :: rest <:+ m.log)
    {tokenHash : String} {active : Bool} (hrow : e.pre.rowState p = some (tokenHash, active))
    : Stored s rest p tokenHash := by
  rcases hm.split he with ⟨m₁, _, hm₁, rfl, hstore, _⟩
  exact stored_of_row hm₁ (hstore ▸ hrow)

/--
A token is only cached while it is active.
-/
theorem active_of_set (hatonce : VerifiesAtOnce m.log) {e : TokenEntry} {rest : List TokenEntry}
    (he : e :: rest <:+ m.log) {key value : String} {ttlSecs : Nat}
    (hdid : Did e (.cache (.set key value ttlSecs)) ())
    : ∃ p tokenHash, key = ServiceTokenVerifier.cacheKey tokenHash
        ∧ e.pre.rowState p = some (tokenHash, true) := by
  rcases hdid with ⟨d, hw⟩
  rcases hm.called (ProjectTokenRequest.handle_conforms cfg) he hw with
    ⟨q, hq, text, tokenHash, token, rfl, rfl, _, _, _, hevents⟩
  have hfind : (⟨.serviceToken (.findByHash tokenHash), .ok (some token)⟩ : Event Api)
      ∈ eventsOf e.thread rest := by simp [hevents]
  rcases mem_eventsOf.mp hfind with ⟨f, hf, hthread, d', hfw⟩
  rcases hatonce e rest he ⟨text, hq.of_suffix (suffix_tail he)⟩ (by rw [hw]; nofun) with
    ⟨f', rest', rfl, hthread'⟩
  -- The token was found right before, by the newest call of the thread.
  have hflog := suffix_tail he
  have hcall : ∀ ev d, f'.what = .call ev d → f ∉ rest' := by
    intro ev d hfw' hmem
    rw [← hthread', eventsOf_cons_call hfw'] at hevents
    injection hevents with _ hevents
    have hfind' := mem_eventsOf.mpr ⟨f, hmem, hthread, d', hfw⟩
    rw [← hthread', hevents] at hfind'
    simp at hfind'
  have hnewest : f' = f := by
    rcases List.mem_cons.mp hf with rfl | hold
    . rfl
    . cases hfw' : f'.what with
      | start q' => exact absurd (hthread.trans hthread'.symm) (hm.start_first hflog hfw' hold)
      | call ev d => exact absurd hold (hcall ev d hfw')
      | finish a => exact absurd hthread'.symm (hm.finish_last he List.mem_cons_self hfw')
  subst hnewest
  have hfound := hm.sound f' (hflog.mem List.mem_cons_self) _ d' hfw
  rcases findServiceTokenByHash_ok (query_ok hfound.symm) with ⟨row, hrow, hhash, hactive, _⟩
  refine ⟨token.project, tokenHash, rfl, ?_⟩
  rcases hm.split he with ⟨m₁, _, hm₁, hlog, hstore, _⟩
  have hnewest : f' :: rest' <:+ m₁.log := by
    simp only [hlog, List.suffix_refl]
  have hkept := hm₁.persists (P := fun s => s.rowState token.project = some (tokenHash, true))
    (B := fun _ => True) (fun _ hnot _ => absurd trivial hnot) (fun _ _ h => h)
    hnewest ?_ ?_
  . exact hstore ▸ hkept.1
  . rw [post_call hfw]
    change (Op.exec cfg (.serviceToken (.findByHash tokenHash)) d' f'.pre).2.rowState token.project = _
    have hunchanged : (Op.exec cfg (.serviceToken (.findByHash tokenHash)) d' f'.pre).2 = f'.pre := by
      simp only [Op.exec, ServiceTokenOp.exec, query_store]
    rw [hunchanged]
    unfold Server.rowState
    rw [hrow]
    simp [hhash, hactive]
  . rw [hlog]
    intro x restx hx hmem
    rcases List.suffix_cons_iff.mp hx with heq | hold
    . injection heq with _ hrest
      exact absurd (hrest ▸ hmem) (hcall _ _ hfw)
    . exact absurd ((suffix_tail hold).mem hmem) (hcall _ _ hfw)

/--
What is cached after an entry was cached before, or belongs to an active token.
-/
theorem cached_cases (hatonce : VerifiesAtOnce m.log) {e : TokenEntry} {rest : List TokenEntry}
    (he : e :: rest <:+ m.log) {tokenHash : String}
    (hcached : ((e.post (semantics cfg)).cached (ServiceTokenVerifier.cacheKey tokenHash)).isSome)
    : (e.pre.cached (ServiceTokenVerifier.cacheKey tokenHash)).isSome
        ∨ ∃ p, (e.post (semantics cfg)).rowState p = some (tokenHash, true) := by
  rcases e.post_cases (semantics cfg) with hpost | ⟨⟨o, r⟩, d, hw, hpost⟩
  . rw [hpost] at hcached
    exact .inl hcached
  . rcases Option.isSome_iff_exists.mp hcached with ⟨v, hv⟩
    rw [hpost] at hv
    rcases Op.exec_cached hv with hold | ⟨_, _, rfl⟩ | ⟨value, ttl, rfl⟩ | ⟨name, bucket, hkey⟩
    . exact .inl (Option.isSome_iff_exists.mpr ⟨v, hold⟩)
    . rcases hm.called (ProjectTokenRequest.handle_conforms cfg) he hw with ⟨q, _, hallowed⟩
      contradiction
    . rcases active_of_set hm hatonce he ⟨d, hw⟩ with ⟨p, tokenHash', hkey, hrow⟩
      cases tokenKey_injective hkey
      have helsewhere : ServiceTokens.elsewhere
          (.cache (.set (ServiceTokenVerifier.cacheKey tokenHash) value ttl)) := nofun
      have hkept : (Op.exec cfg _ d e.pre).2.rowState p = e.pre.rowState p :=
        ServiceTokens.rowState_elsewhere helsewhere d e.pre p
      refine .inr ⟨p, ?_⟩
      rw [hpost]
      exact hkept.trans hrow
    . exact absurd hkey.symm (rateLimitKey_ne_tokenKey name bucket tokenHash)

section Replaced

variable {w : TokenEntry} {restw : List TokenEntry} (hw : w :: restw <:+ m.log)
include hw

/--
A request that replaces or revokes an active token has read this token.
-/
theorem read_of_replaces (hundisturbed : Undisturbed p m.log) (hreplaces : Replaces p w)
    {tokenHash : String} (hrow : w.pre.rowState p = some (tokenHash, true))
    : ∃ token r, r ∈ restw ∧ r.thread = w.thread ∧ token.isActive = true
        ∧ token.tokenHash = tokenHash ∧ Did r (.serviceToken (.getByProject p)) (.ok (some token)) := by
  have hread : ∃ token, readRow p token ∈ eventsOf w.thread restw := by
    rcases hreplaces with ⟨_, _, _, hdid⟩ | hdid
    . rcases before_upsert hm hw hdid with ⟨q, _, token, raw, _, _, _, _, hevents⟩
      exact ⟨token, by simp [hevents]⟩
    . rcases before_revoke hm hw hdid with ⟨q, _, name, token, _, _, _, hevents⟩
      exact ⟨some token, by simp [hevents]⟩
  rcases hread with ⟨token, htoken⟩
  rcases mem_eventsOf.mp htoken with ⟨r, hr, hthread, d, hrw⟩
  have hx : (⟨readRow p token, d, r.pre⟩ : Executed Api Server Draw) ∈ executedBy w.thread m.log :=
    mem_executedBy.mpr ⟨r, (suffix_tail hw).mem hr, hthread, hrw, rfl⟩
  have hview := (executed_read hm hx rfl).2
  have hsame := hundisturbed w restw hw hreplaces r hr hthread ⟨_, d, hrw⟩
  rw [← hview, hrow, RowState.current_eq_some.mpr rfl] at hsame
  have hstored := RowState.current_eq_some.mp hsame
  cases token with
  | none => contradiction
  | some token =>
    injection hstored with hstored
    injection hstored with hhash hactive
    exact ⟨token, r, hr, hthread, hactive, hhash, d, hrw⟩

/--
Right after it has replaced or revoked a token a request has not removed anything from the cache.
-/
theorem pending_of_replaces (hreplaces : Replaces p w) {tokenHash : String}
    (hrow : w.pre.rowState p = some (tokenHash, true))
    : Pending p (w :: restw) w.thread tokenHash := by
  refine ⟨⟨w, List.mem_cons_self, rfl, hreplaces, hrow⟩, List.forall_mem_cons.mpr ⟨?_, ?_⟩⟩
  . intro _ key hdid
    rcases hreplaces with ⟨_, _, _, hdid'⟩ | hdid'
    . cases hdid.unique hdid'
    . cases hdid.unique hdid'
  . rintro e he hthread key ⟨d, hew⟩
    have hmem := mem_eventsOf.mpr ⟨e, he, hthread, d, hew⟩
    rcases hreplaces with ⟨_, _, _, hdid⟩ | hdid
    . rcases before_upsert hm hw hdid with ⟨q, _, token, raw, _, _, _, _, hevents⟩
      rw [hevents] at hmem
      simp [readRow, drewBytes] at hmem
    . rcases before_revoke hm hw hdid with ⟨q, _, name, token, _, _, _, hevents⟩
      rw [hevents] at hmem
      simp [readRow] at hmem

end Replaced

/--
A request removes the token from the cache that it has replaced or revoked.
-/
theorem key_of_pending (hundisturbed : Undisturbed p m.log) {e : TokenEntry} {rest : List TokenEntry}
    (he : e :: rest <:+ m.log) {key : String} (hdid : Did e (.cache (.del key)) ()) {tokenHash : String}
    (hpending : Pending p rest e.thread tokenHash)
    : key = ServiceTokenVerifier.cacheKey tokenHash := by
  rcases hdid with ⟨d, hew⟩
  rcases hm.called (ProjectTokenRequest.handle_conforms cfg) he hew with
    ⟨q, hq, p', token, _, _, rfl, hevents⟩
  rcases hpending with ⟨⟨w, hw, hthread, hreplaces, hrow⟩, _⟩
  rcases suffix_of_mem hw with ⟨restw, hrestw⟩
  rcases read_of_replaces hm (hrestw.trans (suffix_tail he)) hundisturbed hreplaces hrow with
    ⟨token', r, hr, hrthread, _, rfl, d', hrw⟩
  have hmem := mem_eventsOf.mpr
    ⟨r, (suffix_tail hrestw).mem hr, hrthread.trans hthread, d', hrw⟩
  have hsame : readRow p (some token') = readRow p' (some token) := by
    rcases hevents with ⟨_, _, _, _, hevents⟩ | hevents
    . rw [hevents] at hmem
      simpa [readRow, drewBytes] using hmem
    . rw [hevents] at hmem
      simpa [readRow] using hmem
  simp only [readRow, Event.mk.injEq] at hsame
  rcases hsame with ⟨hop, hres⟩
  injection hop with hop
  injection hop with hop
  subst hop
  have hres := eq_of_heq hres
  injection hres with hres
  injection hres with hres
  rw [hres]

/--
A cached token of the project is active, unless the request that has replaced or revoked it is about to
remove it.
-/
theorem active_or_pending (hstart : CacheCoherent s) (hdiffer : TokensDiffer s m.log)
    (hatonce : VerifiesAtOnce m.log) (hinvalidates : Invalidates m.log)
    (hundisturbed : Undisturbed p m.log) {tokenHash : String} (hstored : Stored s m.log p tokenHash)
    (hcached : (m.store.cached (ServiceTokenVerifier.cacheKey tokenHash)).isSome)
    : m.store.rowState p = some (tokenHash, true) ∨ ∃ i, Pending p m.log i tokenHash := by
  induction hm with
  | refl =>
    rcases hstored with ⟨active, hrow⟩ | ⟨e, he, _⟩
    . rcases hstart tokenHash hcached with ⟨p', hrow'⟩
      cases hdiffer.rows _ _ _ _ _ hrow hrow'
      exact .inl hrow'
    . contradiction
  | @act m' h a ih =>
    have hchange := act_change (semantics cfg) (ProjectTokenRequest.handle cfg) m' a
    have hm' := h.act a
    rcases hchange.log with hlog | ⟨e, hlog, hpre, hpost⟩
    . rw [hlog] at hstored hdiffer hatonce hinvalidates hundisturbed ⊢
      have hsame : (act (semantics cfg) (ProjectTokenRequest.handle cfg) m' a).store.rowState p
          = m'.store.rowState p
          ∧ (m'.store.cached (ServiceTokenVerifier.cacheKey tokenHash)).isSome := by
        generalize act (semantics cfg) (ProjectTokenRequest.handle cfg) m' a = m''
          at hchange hlog hcached
        cases hchange with
        | none => exact ⟨rfl, hcached⟩
        | tick n =>
          rcases Option.isSome_iff_exists.mp hcached with ⟨v, hv⟩
          exact ⟨rfl, Option.isSome_iff_exists.mpr ⟨v, Server.cached_of_advance hv⟩⟩
        | _ => simp at hlog
      rw [hsame.1]
      exact ih hdiffer hatonce hinvalidates hundisturbed hstored hsame.2
    . have hrest : m'.log <:+ e :: m'.log := List.suffix_cons _ _
      have he : e :: m'.log <:+ (act (semantics cfg) (ProjectTokenRequest.handle cfg) m' a).log := by
        simp only [hlog, List.suffix_refl]
      rcases cached_cases hm' hatonce he (hpost ▸ hcached) with hcached' | ⟨p', hrow'⟩
      . have hcases := row_cases hm' he p
        have hpending : Replaces p e → e.pre.rowState p = some (tokenHash, true) →
            Pending p (e :: m'.log) e.thread tokenHash :=
          fun hreplaces hrow => pending_of_replaces hm' he hreplaces hrow
        have hkey : ∀ key, Did e (.cache (.del key)) () → Pending p m'.log e.thread tokenHash →
            key = ServiceTokenVerifier.cacheKey tokenHash :=
          fun _ hdid hpending => key_of_pending hm' hundisturbed he hdid hpending
        rw [hlog] at hstored hdiffer hatonce hinvalidates hundisturbed ⊢
        rw [hpost] at hcached ⊢
        by_cases hold : Stored s m'.log p tokenHash
        . rw [← hpre] at hcached'
          rcases ih (hdiffer.of_suffix hrest) (hatonce.of_suffix hrest) (hinvalidates.of_suffix hrest)
            (hundisturbed.of_suffix hrest) hold hcached' with hrow | ⟨i, hi⟩
          . rw [hpre] at hrow
            rcases hcases with ⟨hkept, _⟩ | ⟨_, _, _, hdid, _⟩ | ⟨hdid, _⟩
            . exact .inl (hkept.trans hrow)
            . exact .inr ⟨_, hpending (.inl ⟨_, _, _, hdid⟩) hrow⟩
            . rw [hrow] at hdid
              exact .inr ⟨_, hpending (.inr hdid) hrow⟩
          . refine .inr ⟨i, hi.of_suffix ?_⟩
            rintro rfl key hdid
            -- What has been removed is not cached.
            cases hkey key hdid hi
            rcases hdid with ⟨d, hw⟩
            have hhealthy := hinvalidates e List.mem_cons_self _ d hw
            rw [post_call hw] at hcached
            simp [Op.exec, CacheOp.exec, hhealthy, Server.del, Server.cached] at hcached
        . have hnew : ∃ tokenPrefix old,
              Did e (.serviceToken (.upsert p tokenHash tokenPrefix)) (.ok old) := by
            rcases hstored with hrow | ⟨e', he', _, _, hdid⟩
            . exact absurd (.inl hrow) hold
            . rcases List.mem_cons.mp he' with rfl | he'
              . exact ⟨_, _, hdid⟩
              . exact absurd (.inr ⟨e', he', _, _, hdid⟩) hold
          rcases hnew with ⟨_, _, hdid⟩
          rcases hcases with ⟨_, hnot⟩ | ⟨_, _, _, hdid', hrow⟩ | ⟨hdid', _⟩
          . exact absurd (.inl ⟨_, _, _, hdid⟩) hnot
          . injection hdid.unique hdid' with heq
            injection heq with _ hhash _
            subst hhash
            exact .inl hrow
          . cases hdid.unique hdid'
      . have hstored' := stored_of_row hm' (hpost ▸ hrow')
        cases hdiffer.unique hstored hstored'
        exact .inl (hpost ▸ hrow')

section Answered

variable {e w : TokenEntry} {rest restw : List TokenEntry} (he : e :: rest <:+ m.log)
  (hw : w :: restw <:+ rest) (hthread : w.thread = e.thread)
include he hw hthread

/--
A request that was answered has removed the token that it has replaced or revoked from the cache.
-/
theorem removed_of_answered (hundisturbed : Undisturbed p m.log) {q : ProjectTokenRequest}
    (hq : Started m.log e.thread q) (hproject : q.project = some p) {a : Response}
    (hew : e.what = .finish a) (hreplaces : Replaces p w) {tokenHash : String}
    (hrow : w.pre.rowState p = some (tokenHash, true))
    : ∃ v restv, v :: restv <:+ rest ∧ w :: restw <:+ restv ∧ v.thread = e.thread
        ∧ Did v (.cache (.del (ServiceTokenVerifier.cacheKey tokenHash))) () := by
  have hwlog := hw.trans (suffix_tail he)
  rcases read_of_replaces hm hwlog hundisturbed hreplaces hrow with
    ⟨token, r, hr, hrthread, hactive, rfl, hdid⟩
  rcases suffix_of_mem hr with ⟨restr, hrestr⟩
  have hrlog := hrestr.trans (suffix_tail hwlog)
  have hrmem := (suffix_tail hw).mem hr
  have hri := hrthread.trans hthread
  have hp := (before_read hm hrlog (hri ▸ hq) hproject ⟨_, hdid⟩).1
  have hcourse := ((answered hm he hq hew).concluded p hproject hp).1
  have hread : Called (eventsOf e.thread rest) (.serviceToken (.getByProject p)) (.ok (some token)) :=
    called_eventsOf.mpr ⟨r, hrmem, hri, hdid⟩
  have hwmem := hw.mem List.mem_cons_self
  have hreplaced : (∃ tokenHash tokenPrefix old, Called (eventsOf e.thread rest)
        (.serviceToken (.upsert p tokenHash tokenPrefix)) (.ok old))
      ∨ Called (eventsOf e.thread rest) (.serviceToken (.revoke p)) (.ok true) := by
    rcases hreplaces with ⟨tokenHash, tokenPrefix, old, hdid⟩ | hdid
    . exact .inl ⟨tokenHash, tokenPrefix, old, called_eventsOf.mpr ⟨w, hwmem, hthread, hdid⟩⟩
    . exact .inr (called_eventsOf.mpr ⟨w, hwmem, hthread, hdid⟩)
  rcases (hcourse.forgotten hread hactive hreplaced).located with ⟨v, restv, hv, hvthread, hvdid⟩
  refine ⟨v, restv, hv, ?_, hvthread, hvdid⟩
  -- It is removed after it was replaced.
  have hpending := (pending_of_replaces hm hwlog hreplaces hrow).2
  have hafter : v ∉ w :: restw := fun hmem => hpending v hmem (hvthread.trans hthread.symm) _ hvdid
  rcases suffix_trichotomy hv hw with ⟨rfl, _⟩ | hold | hold
  . exact absurd List.mem_cons_self hafter
  . exact hold
  . exact absurd (List.mem_cons_of_mem _ (hold.mem List.mem_cons_self)) hafter

end Answered

theorem not_pending_of_answered (hundisturbed : Undisturbed p m.log) {e : TokenEntry}
    {rest : List TokenEntry} (he : e :: rest <:+ m.log) {q : ProjectTokenRequest}
    (hq : Started m.log e.thread q) (hproject : q.project = some p) {a : Response}
    (hew : e.what = .finish a) (tokenHash : String) : ¬Pending p rest e.thread tokenHash := by
  rintro ⟨⟨w, hw, hthread, hreplaces, hrow⟩, hnone⟩
  rcases suffix_of_mem hw with ⟨restw, hrestw⟩
  rcases removed_of_answered hm he hrestw hthread hundisturbed hq hproject hew hreplaces hrow with
    ⟨v, restv, hv, _, hvthread, hvdid⟩
  exact hnone v (hv.mem List.mem_cons_self) hvthread _ hvdid

section Replaced

variable (hdiffer : TokensDiffer s m.log) {w : TokenEntry} {restw : List TokenEntry}
  (hw : w :: restw <:+ m.log) (hreplaces : Replaces p w) {tokenHash : String}
  (hrow : w.pre.rowState p = some (tokenHash, true))
include hdiffer hw hreplaces hrow

/--
A token that was replaced or revoked is never active again.
-/
theorem inactive_of_replaced (p' : Project) : m.store.rowState p' ≠ some (tokenHash, true) := by
  have hstored := stored_of_pre hm hw hrow
  -- Only storing the same token again could activate it.
  have hinactive : ∀ e rest, e :: rest <:+ m.log → restw <:+ rest → ∀ p',
      e.pre.rowState p' ≠ some (tokenHash, true) ∨ Wrote p' e →
      (e.post (semantics cfg)).rowState p' ≠ some (tokenHash, true) := by
    intro e rest he hrest p' hpre hpost
    rcases row_cases hm he p' with ⟨hkept, hnot⟩ | ⟨_, _, _, hdid, hnew⟩ | ⟨_, hrevoked⟩
    . rcases hpre with hpre | hwrote
      . exact hpre (hkept.symm.trans hpost)
      . exact hnot hwrote
    . rw [hnew] at hpost
      injection hpost with hpost
      injection hpost with hhash _
      subst hhash
      exact hdiffer.stored e rest he _ _ _ _ hdid p (hstored.of_suffix hrest)
    . rw [hrevoked] at hpost
      rcases Option.map_eq_some_iff.mp hpost with ⟨_, _, heq⟩
      injection heq
      contradiction
  have hkept := hm.persists (P := fun s => ∀ p', s.rowState p' ≠ some (tokenHash, true))
    (B := fun e => (∀ p', e.pre.rowState p' ≠ some (tokenHash, true))
      ∧ ¬∀ p', (e.post (semantics cfg)).rowState p' ≠ some (tokenHash, true))
    (fun e hnot hpre => not_not.mp fun hpost => hnot ⟨hpre, hpost⟩) (fun _ _ h => h) hw ?_ ?_
  . exact hkept.1 p'
  . intro p'
    apply hinactive w restw hw (List.suffix_refl _)
    by_cases hp : p' = p
    . exact .inr (hp ▸ hreplaces.wrote)
    . refine .inl fun hrow' => hp ?_
      exact (hdiffer.of_suffix (suffix_tail hw)).unique (stored_of_pre hm hw hrow') hstored
  . rintro e rest he hwrest ⟨hpre, hpost⟩
    have hunique : ∀ {e : TokenEntry} {rest : List TokenEntry}, e :: rest <:+ m.log → e = w → w ∉ rest :=
      fun he heq hmem => wrote_unique hm (heq ▸ he) hreplaces.wrote hmem rfl hreplaces.wrote
    have hrest : restw <:+ rest := by
      rcases suffix_trichotomy he hw with ⟨heq, _⟩ | hold | hold
      . exact absurd hwrest (hunique he heq)
      . exact suffix_tail hold
      . exact absurd ((suffix_tail hold).mem hwrest) (hunique hw rfl)
    exact hpost fun p' => hinactive e rest he hrest p' (.inl (hpre p'))

/--
Nor is it cached again once it was removed from the cache.
-/
theorem uncached_of_removed (hatonce : VerifiesAtOnce m.log) (hinvalidates : Invalidates m.log)
    {v : TokenEntry} {restv : List TokenEntry} (hv : v :: restv <:+ m.log) (hwv : w :: restw <:+ restv)
    (hthread : v.thread = w.thread)
    (hdid : Did v (.cache (.del (ServiceTokenVerifier.cacheKey tokenHash))) ())
    : m.store.cached (ServiceTokenVerifier.cacheKey tokenHash) = none := by
  have hkept := hm.persists (P := fun s => s.cached (ServiceTokenVerifier.cacheKey tokenHash) = none)
    (B := fun e => e.pre.cached (ServiceTokenVerifier.cacheKey tokenHash) = none
      ∧ ((e.post (semantics cfg)).cached (ServiceTokenVerifier.cacheKey tokenHash)).isSome)
    ?_ ?_ hv ?_ ?_
  . exact hkept.1
  . intro e hnot hpre
    apply Option.not_isSome_iff_eq_none.mp
    intro hpost
    exact hnot ⟨hpre, hpost⟩
  . intro n s hnone
    apply Option.eq_none_iff_forall_ne_some.mpr
    intro value hvalue
    have hold := Server.cached_of_advance hvalue
    rw [hnone] at hold
    contradiction
  . rcases hdid with ⟨d, hvw⟩
    have hhealthy := hinvalidates v (hv.mem List.mem_cons_self) _ d hvw
    rw [post_call hvw]
    simp [Op.exec, CacheOp.exec, hhealthy, Server.del, Server.cached]
  . rintro e rest he hvrest ⟨hpre, hpost⟩
    rcases cached_cases hm hatonce he hpost with hcached | ⟨p', hactive⟩
    . rw [hpre] at hcached
      contradiction
    . have hpending := (pending_of_replaces hm hw hreplaces hrow).2
      have hafter : v ∉ w :: restw := fun hmem => hpending v hmem hthread _ hdid
      have hwe : w :: restw <:+ e :: rest := by
        rcases suffix_trichotomy he hw with ⟨_, rfl⟩ | hold | hold
        . exact absurd (List.mem_cons_of_mem _ hvrest) hafter
        . exact hold.trans (List.suffix_cons _ _)
        . exact absurd (List.mem_cons_of_mem _ ((suffix_tail hold).mem hvrest)) hafter
      rcases hm.split he with ⟨_, m₂, _, _, _, _, hlog, hstore, hm₂, _⟩
      rw [← hstore] at hactive
      exact inactive_of_replaced hm₂ (hlog ▸ hdiffer.of_suffix he) (hlog ▸ hwe) hreplaces hrow p' hactive

end Replaced

end TokenMachine

end Aspectus
