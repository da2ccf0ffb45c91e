import Aspectus.Discipline.ClientCache

/-!
This module contains the safety of the key that the calls of a client share: it always is the key of the most
recent successful fetch, and no signature is checked with it unless the call saw that it is fresh.
-/

namespace Aspectus
namespace Client

open Interaction Machine

variable {Key : Type} {lib : Library Key}

/--
The entry stores this key.
-/
def Stores (e : ClientEntry Key) (key : Key) : Prop :=
  ∃ ev d, e.what = .call ev d ∧ ev.op = .writeKey key

/--
The most recent fetch that succeeded is the one of this key, which is the key of the reply it got.
-/
def LastFetched (lib : Library Key) (log : List (ClientEntry Key)) (key : Key) : Prop :=
  ∃ newer e rest, log = newer ++ e :: rest ∧ Stores e key
    ∧ (∃ reply, Got reply (eventsOf e.thread rest) ∧ newKey lib reply = .ok key)
    ∧ ∀ g ∈ newer, ∀ key', ¬Stores g key'

theorem LastFetched.cons {log : List (ClientEntry Key)} {key : Key} (h : LastFetched lib log key)
    {g : ClientEntry Key} (hg : ∀ key', ¬Stores g key') : LastFetched lib (g :: log) key := by
  rcases h with ⟨newer, e, rest, hlog, hstores, hgot, hnewer⟩
  refine ⟨g :: newer, e, rest, ?_, hstores, hgot, List.forall_mem_cons.mpr ⟨hg, hnewer⟩⟩
  rw [hlog, List.cons_append]

/--
The key is the one of the most recent successful fetch, and there is one once the time of the last refresh
is set.
-/
structure Cached (lib : Library Key) (m : ClientMachine Key) : Prop where
  none : m.store.cache.decodingKey = none → ∀ e ∈ m.log, ∀ key, ¬Stores e key
  some : ∀ key, m.store.cache.decodingKey = some key → LastFetched lib m.log key
  refreshed : m.store.cache.lastRefresh.isSome → m.store.cache.decodingKey.isSome

theorem Cached.cons {m m' : ClientMachine Key} (h : Cached lib m) {g : ClientEntry Key}
    (hg : ∀ key, ¬Stores g key) (hlog : m'.log = g :: m.log)
    (hkey : m'.store.cache.decodingKey = m.store.cache.decodingKey)
    (hrefresh : m'.store.cache.lastRefresh.isSome → m.store.cache.decodingKey.isSome)
    : Cached lib m' := by
  constructor
  . intro hnone e he key
    rw [hlog] at he
    cases List.mem_cons.mp he with
    | inl heq => exact heq ▸ hg key
    | inr he => exact h.none (hkey ▸ hnone) e he key
  . intro key hsome
    rw [hlog]
    exact (h.some key (hkey ▸ hsome)).cons hg
  . intro hsome
    rw [hkey]
    exact hrefresh hsome

theorem cached {now : Instant} {m : ClientMachine Key}
    (h : Reaches (jwksSemantics lib) (handler lib) (init (Shared.new now)) m) : Cached lib m := by
  refine h.inv (P := Cached lib) ?_ ?_
  . constructor
    . intro _ e he
      contradiction
    . intro key hkey
      contradiction
    . intro hrefresh
      contradiction
  . intro m m' hm ih hchange
    cases hchange with
    | none => exact ih
    | tick n => exact ⟨ih.none, ih.some, ih.refreshed⟩
    | start i q hfree => exact ih.cons (by simp [Stores]) rfl rfl ih.refreshed
    | finish i q a hrun => exact ih.cons (by simp [Stores]) rfl rfl ih.refreshed
    | call i d q o k hrun =>
      have hallowed := (hm.conforms (fun q => handler_conforms q) i q _ hrun).1
      cases o with
      | writeKey key =>
        constructor
        . intro hnone
          contradiction
        . intro key' hkey'
          injection hkey' with hkey'
          subst hkey'
          exact ⟨[], _, m.log, rfl, ⟨_, d, rfl, rfl⟩, hallowed.1, by simp⟩
        . intro _
          rfl
      | writeLastRefresh =>
        refine ih.cons (by simp [Stores]) rfl rfl fun _ => ?_
        rcases hallowed.1.exists_takes with ⟨⟨_, r⟩, hmem, key, rfl⟩
        rcases mem_eventsOf.mp hmem with ⟨e, he, _, d', hw⟩
        cases hkey : m.store.cache.decodingKey with
        | some key => rfl
        | none => exact absurd ⟨_, d', hw, rfl⟩ (ih.none hkey e he key)
      | _ => exact ih.cons (by simp [Stores]) rfl rfl ih.refreshed

/--
The entry ends the fetch of its call, which was successful.
-/
def Completes (e : ClientEntry Key) : Prop :=
  ∃ ev d, e.what = .call ev d ∧ ev.op = .release

/--
The entry is the check of a signature with this key.
-/
def Checks (e : ClientEntry Key) (key : Key) : Prop :=
  ∃ ev d token, e.what = .call ev d ∧ ev.op = .decode key token

section Reachable

variable {now : Instant} {m : ClientMachine Key} (h : m.Reachable lib now)
include h

theorem ClientMachine.Reachable.allowed {e : ClientEntry Key} {rest : List (ClientEntry Key)}
    (he : e :: rest <:+ m.log) {ev : Event (Jwks Key)} {d : Except String JwksReply}
    (hw : e.what = .call ev d) : Client.allowed lib (eventsOf e.thread rest) ev.op := by
  rcases h.reaches.called (fun q => handler_conforms q) he hw with ⟨_, _, hallowed⟩
  exact hallowed

/--
Keys are stored one fetch at a time: the fetch before has completed.
-/
theorem ClientMachine.Reachable.completed {e e' : ClientEntry Key} {rest : List (ClientEntry Key)}
    (he : e :: rest <:+ m.log) {key key' : Key} (hstores : Stores e key) (he' : e' ∈ rest)
    (hstores' : Stores e' key') : ∃ g ∈ rest, g.thread = e'.thread ∧ Completes g := by
  rcases hstores with ⟨ev, d, hw, hop⟩
  rcases hstores' with ⟨ev', d', hw', hop'⟩
  have hgives : ∀ (q : Call) (h : List (Event (Jwks Key))) o, Client.allowed lib h o →
      (keyLock lib).gives o → Holding (keyLock lib).takes (keyLock lib).gives h := by
    rintro _ h _ hallowed rfl
    exact hallowed.1
  have hfree : ¬(keyLock lib).held (Shared.new now) := nofun
  rcases (keyLock lib).given_back (fun q => handler_conforms q) hgives hfree h.reaches h.log_enabled he hw
    ⟨key, hop⟩ he' hw' ⟨key', hop'⟩ with ⟨g, hg, hthread, ev'', d'', hwg, hgive⟩
  exact ⟨g, hg, hthread, ev'', d'', hwg, hgive⟩

/--
A fetch that failed stores nothing, neither before nor after.
-/
theorem ClientMachine.Reachable.failed {i : Nat} {reply : Except String JwksReply} {error : ClientError}
    (hgot : Got reply (eventsOf i m.log)) (herror : newKey lib reply = .error error)
    {g : ClientEntry Key} (hg : g ∈ m.log) (hi : g.thread = i) {ev : Event (Jwks Key)}
    {d : Except String JwksReply} (hw : g.what = .call ev d) : JwksOp.writes ev.op = false := by
  by_contra hwrites
  rw [Bool.not_eq_false] at hwrites
  rcases mem_eventsOf.mp hgot with ⟨e, he, hthread, d', hw'⟩
  rcases suffix_of_mem he with ⟨rest', he⟩
  rcases suffix_of_mem hg with ⟨rest, hg⟩
  have haccepted : Accepted lib (eventsOf g.thread rest) := by
    have hallowed := h.allowed hg hw
    cases hop : ev.op with
    | writeKey key => exact (hop ▸ hallowed : Client.allowed lib _ (.writeKey key)).2.1
    | writeLastRefresh => exact (hop ▸ hallowed : Client.allowed lib _ .writeLastRefresh).2
    | _ => simp [hop, JwksOp.writes] at hwrites
  rcases suffix_trichotomy hg he with ⟨heq, _⟩ | hold | hnew
  . subst heq
    rw [hw] at hw'
    injection hw' with hev
    subst hev
    contradiction
  . have hmem : Got reply (eventsOf g.thread rest) :=
      mem_eventsOf.mpr ⟨e, hold.mem List.mem_cons_self, hthread.trans hi.symm, d', hw'⟩
    exact haccepted reply error hmem herror
  . have hallowed := h.allowed he hw' ev
    rw [hallowed (mem_eventsOf.mpr ⟨g, hnew.mem List.mem_cons_self, hi.trans hthread.symm, d, hw⟩)]
      at hwrites
    contradiction

/--
The cache of a client in every state that any number of calls can reach: once the time of the last refresh
is set there is a key, that of the most recent successful fetch. Fetches store their keys one after the
other, each completes before the next one stores its key. A fetch that failed leaves the cache as it is, and
a signature is only checked by a call that saw the last refresh to be at most an hour old or completed a
fetch itself.
-/
theorem jwks_cache
    : (m.store.cache.lastRefresh.isSome →
          ∃ key, m.store.cache.decodingKey = some key ∧ LastFetched lib m.log key)
        ∧ (∀ e rest key e' key', e :: rest <:+ m.log → Stores e key → e' ∈ rest → Stores e' key' →
          ∃ g ∈ rest, g.thread = e'.thread ∧ Completes g)
        ∧ (∀ i reply error, Got reply (eventsOf i m.log) → newKey lib reply = .error error →
          ∀ g ∈ m.log, g.thread = i → (g.post (jwksSemantics lib)).cache = g.pre.cache
            ∧ ∀ a, g.what = .finish a → a.error? = some error)
        ∧ ∀ e rest key, e :: rest <:+ m.log → Checks e key →
          Observed (eventsOf e.thread rest) ∨ Fetched (eventsOf e.thread rest) := by
  refine ⟨?_, ?_, ?_, ?_⟩
  . intro hrefreshed
    have hcached := cached h.reaches
    rcases Option.isSome_iff_exists.mp (hcached.refreshed hrefreshed) with ⟨key, hkey⟩
    exact ⟨key, hkey, hcached.some key hkey⟩
  . intro e rest key e' key' he hstores he' hstores'
    exact h.completed he hstores he' hstores'
  . intro i reply error hgot herror g hg hi
    constructor
    . rcases g.post_cases (jwksSemantics lib) with hpost | ⟨ev, d, hw, hpost⟩
      . rw [hpost]
      . have hwrites := h.failed hgot herror hg hi hw
        rw [hpost]
        cases hop : ev.op with
        | writeKey key => simp [hop, JwksOp.writes] at hwrites
        | writeLastRefresh => simp [hop, JwksOp.writes] at hwrites
        | _ => rfl
    . intro a hw
      rcases suffix_of_mem hg with ⟨rest, hg⟩
      rcases h.reaches.finished (fun q => handler_conforms q) hg hw with ⟨_, _, hanswered⟩
      rcases mem_eventsOf.mp hgot with ⟨e, he, hthread, d, hw'⟩
      rcases suffix_of_mem he with ⟨rest', he⟩
      rcases suffix_trichotomy hg he with ⟨heq, _⟩ | hold | hnew
      . subst heq
        rw [hw] at hw'
        contradiction
      . apply hanswered.reported reply error _ herror
        exact mem_eventsOf.mpr ⟨e, hold.mem List.mem_cons_self, hthread.trans hi.symm, d, hw'⟩
      . have := h.reaches.finish_last he (hnew.mem List.mem_cons_self) hw
        exact absurd (hthread.trans hi.symm) this
  . rintro e rest key he ⟨ev, d, token, hw, hop⟩
    have hallowed := h.allowed he hw
    rw [hop] at hallowed
    rcases hallowed with ⟨h', hevents, hfresh⟩
    rw [hevents]
    exact hfresh.imp (fun hobserved => hobserved.cons _) fun hfetched => List.mem_cons_of_mem _ hfetched

omit h

/--
A successful fetch stored the key and completed at this time.
-/
def FetchedAt (log : List (ClientEntry Key)) (key : Key) (t : Instant) : Prop :=
  ∃ c rest, c :: rest <:+ log ∧ c.pre.now = t ∧ (∃ ev d, c.what = .call ev d ∧ ev.op = .writeLastRefresh)
    ∧ ⟨.writeKey key, ()⟩ ∈ eventsOf c.thread rest

theorem FetchedAt.cons {log : List (ClientEntry Key)} {key : Key} {t : Instant}
    (h : FetchedAt log key t) (g : ClientEntry Key) : FetchedAt (g :: log) key t := by
  rcases h with ⟨c, rest, hsuffix, h⟩
  exact ⟨c, rest, hsuffix.trans (List.suffix_cons _ _), h⟩

/--
The key is the one of the fetch that completed at the time of the last refresh.
-/
def Dated (m : ClientMachine Key) : Prop :=
  ∀ key, m.store.cache.decodingKey = some key →
    ∃ t, m.store.cache.lastRefresh = some t ∧ FetchedAt m.log key t

/--
The key is dated unless a fetch that has not completed holds its lock, in which case the fetch stored it.
-/
structure Stamped (lib : Library Key) (m : ClientMachine Key) : Prop where
  free : m.store.keyHeld = false → Dated m
  stored : ∀ i, (keyLock lib).Holder m.log i →
    ∀ key, m.store.cache.decodingKey = some key → ⟨.writeKey key, ()⟩ ∈ eventsOf i m.log
  refreshed : ∀ i, (keyLock lib).Holder m.log i → ⟨.writeLastRefresh, ()⟩ ∈ eventsOf i m.log → Dated m

/--
An entry that neither writes nor gives back the lock.
-/
theorem Stamped.cons {m m' : ClientMachine Key} (h : Stamped lib m) {g : ClientEntry Key}
    (hg : ∀ ev, g.event? = some ev → JwksOp.writes ev.op = false ∧ ev.op ≠ .release)
    (hlog : m'.log = g :: m.log) (hcache : m'.store.cache = m.store.cache)
    (hheld : m'.store.keyHeld = m.store.keyHeld) : Stamped lib m' := by
  have hdated : Dated m → Dated m' := by
    intro hdated key hkey
    rw [hcache] at hkey
    rcases hdated key hkey with ⟨t, ht, hfetched⟩
    rw [← hcache] at ht
    exact ⟨t, ht, hlog ▸ hfetched.cons g⟩
  have hevents : ∀ i, ((keyLock lib).Holder m'.log i ↔ (keyLock lib).Holder m.log i)
      ∧ ∀ ev : Event (Jwks Key), JwksOp.writes ev.op = true →
        (ev ∈ eventsOf i m'.log ↔ ev ∈ eventsOf i m.log) := by
    intro i
    rw [hlog]
    unfold Lock.Holder
    by_cases hi : g.thread = i
    . cases hw : g.what with
      | call ev d =>
        subst hi
        rcases hg ev (by simp [Entry.event?, hw]) with ⟨hwrites, hrelease⟩
        rw [eventsOf_cons_call hw]
        constructor
        . have htakes : ¬(keyLock lib).takes ev.op := by
            rintro ⟨key, hop⟩
            rw [hop] at hwrites
            contradiction
          have hgives : ¬(keyLock lib).gives ev.op := hrelease
          simp only [Holding, htakes, hgives, not_false_eq_true, false_or, true_and]
        . intro ev' hwrites'
          rw [List.mem_cons]
          constructor
          . intro hmem
            cases hmem with
            | inl heq =>
              rw [heq, hwrites] at hwrites'
              contradiction
            | inr hmem => exact hmem
          . exact .inr
      | _ => rw [eventsOf_cons_silent (by simp [Entry.event?, hw])]; exact ⟨.rfl, fun _ _ => .rfl⟩
    . rw [eventsOf_cons_ne hi]
      exact ⟨.rfl, fun _ _ => .rfl⟩
  constructor
  . intro hfree
    exact hdated (h.free (hheld ▸ hfree))
  . intro i hholder key hkey
    rw [hcache] at hkey
    exact ((hevents i).2 ⟨.writeKey key, ()⟩ rfl).mpr (h.stored i ((hevents i).1.mp hholder) key hkey)
  . intro i hholder hmem
    exact hdated (h.refreshed i ((hevents i).1.mp hholder)
      (((hevents i).2 ⟨.writeLastRefresh, ()⟩ rfl).mp hmem))

theorem stamped {now : Instant} {m : ClientMachine Key}
    (h : Reaches (jwksSemantics lib) (handler lib) (init (Shared.new now)) m)
    (henabled : Enabled JwksOp.enabled m.log) : Stamped lib m := by
  revert henabled
  refine h.inv (P := fun m => Enabled JwksOp.enabled m.log → Stamped lib m) ?_ ?_
  . intro _
    exact ⟨fun _ key hkey => by contradiction, fun _ hholder => hholder.elim, fun _ hholder => hholder.elim⟩
  . intro m m' hm ih hchange henabled
    cases hchange with
    | none => exact ih henabled
    | tick n =>
      have hstamped := ih henabled
      exact ⟨hstamped.free, hstamped.stored, hstamped.refreshed⟩
    | start i q hfree =>
      exact (ih (henabled.of_suffix (List.suffix_cons _ _))).cons (by simp [Entry.event?]) rfl rfl rfl
    | finish i q a hrun =>
      exact (ih (henabled.of_suffix (List.suffix_cons _ _))).cons (by simp [Entry.event?]) rfl rfl rfl
    | call i d q o k hrun =>
      have hold := henabled.of_suffix (List.suffix_cons _ _)
      have hstamped := ih hold
      have hallowed := (hm.conforms (fun q => handler_conforms q) i q _ hrun).1
      have hfree : ¬(keyLock lib).held (Shared.new now) := Bool.false_ne_true
      have hexclusive := (keyLock lib).exclusive (fun q => handler_conforms q)
        (by rintro _ h _ hallowed rfl; exact hallowed.1) hfree hm hold
      have hother : ∀ {j r}, j ≠ i →
          eventsOf j (⟨i, m.store, .call ⟨o, r⟩ d⟩ :: m.log) = eventsOf j m.log :=
        fun hj => eventsOf_cons_ne fun hi => hj hi.symm
      have hown : ∀ {r}, eventsOf i (⟨i, m.store, .call ⟨o, r⟩ d⟩ :: m.log) = ⟨o, r⟩ :: eventsOf i m.log :=
        eventsOf_cons_call (e := ⟨i, _, _⟩) rfl
      cases o with
      | writeKey key =>
        have hwaits : ¬m.store.keyHeld = true :=
          (keyLock lib).waits _ _ ⟨key, rfl⟩ (henabled _ List.mem_cons_self _ _ rfl)
        have hnone : ∀ j, ¬(keyLock lib).Holder m.log j := fun j hj => hwaits (hexclusive.1.mpr ⟨j, hj⟩)
        constructor
        . intro hfree
          contradiction
        . intro j hholder key' hkey'
          by_cases hj : j = i
          . subst hj
            injection hkey' with hkey'
            subst hkey'
            rw [hown]
            exact List.mem_cons_self
          . rw [Lock.Holder, hother hj] at hholder
            exact absurd hholder (hnone j)
        . intro j hholder hmem
          by_cases hj : j = i
          . subst hj
            rw [hown] at hmem
            cases List.mem_cons.mp hmem with
            | inl heq => injection heq with heq; contradiction
            | inr hmem => exact absurd (hallowed.2.2 _ hmem) Bool.noConfusion
          . rw [Lock.Holder, hother hj] at hholder
            exact absurd hholder (hnone j)
      | writeLastRefresh =>
        have hheld : m.store.keyHeld = true := hexclusive.1.mpr ⟨i, hallowed.1⟩
        constructor
        . intro hfree
          exact absurd (hheld.symm.trans hfree) Bool.noConfusion
        . intro j hholder key hkey
          by_cases hj : j = i
          . subst hj
            rw [hown]
            exact List.mem_cons_of_mem _ (hstamped.stored j hallowed.1 key hkey)
          . rw [Lock.Holder, hother hj] at hholder
            exact absurd (hexclusive.2 j i hholder hallowed.1) hj
        . intro _ _ _ key hkey
          exact ⟨m.store.now, rfl, _, m.log, List.suffix_refl _, rfl, ⟨_, d, rfl, rfl⟩,
            hstamped.stored i hallowed.1 key hkey⟩
      | release =>
        have hnone : ∀ {j r}, ¬(keyLock lib).Holder (⟨i, m.store, .call ⟨.release, r⟩ d⟩ :: m.log) j := by
          intro j r hholder
          by_cases hj : j = i
          . subst hj
            rw [Lock.Holder, hown] at hholder
            rcases hholder with ⟨key, hop⟩ | ⟨hgives, _⟩
            . contradiction
            . exact hgives rfl
          . rw [Lock.Holder, hother hj] at hholder
            exact hj (hexclusive.2 j i hholder hallowed.1)
        constructor
        . intro _ key hkey
          rcases hstamped.refreshed i hallowed.1 hallowed.2 key hkey with ⟨t, ht, hfetched⟩
          exact ⟨t, ht, hfetched.cons _⟩
        . intro j hholder
          exact absurd hholder hnone
        . intro j hholder
          exact absurd hholder hnone
      | _ => exact hstamped.cons (by simp [Entry.event?, JwksOp.writes]) rfl rfl rfl

/--
Time passes, and the time of the last refresh is only replaced by the time of a later one.
-/
theorem refresh_evolution (lib : Library Key) : Evolution (jwksSemantics lib) fun s s' => s.now ≤ s'.now
    ∧ (s'.cache.lastRefresh = s.cache.lastRefresh
      ∨ ∃ t, s'.cache.lastRefresh = some t ∧ s.now ≤ t) where
  refl s := ⟨Int.le_refl _, .inl rfl⟩
  trans := by
    intro s s' s'' ⟨hnow, hrefresh⟩ ⟨hnow', hrefresh'⟩
    refine ⟨Int.le_trans hnow hnow', ?_⟩
    rcases hrefresh' with hsame | ⟨t, ht, hle⟩
    . rw [hsame]
      exact hrefresh
    . exact .inr ⟨t, ht, Int.le_trans hnow hle⟩
  exec := by
    intro o d s
    cases o with
    | writeLastRefresh => exact ⟨Int.le_refl _, .inr ⟨s.now, rfl, Int.le_refl _⟩⟩
    | _ => exact ⟨Int.le_refl _, .inl rfl⟩
  advance := by
    intro n s
    exact ⟨Int.le_add_of_nonneg_right (Int.natCast_nonneg n), .inl rfl⟩

include h

/--
A call that ensured its key saw a refresh that was at most an hour old, or made one itself.
-/
theorem ensured {i : Nat} {rest : List (ClientEntry Key)} (hrest : rest <:+ m.log)
    (hfresh : Observed (eventsOf i rest) ∨ Fetched (eventsOf i rest))
    : ∃ o rest', o :: rest' <:+ rest ∧ o.thread = i ∧ (∃ ev d, o.what = .call ev d)
        ∧ (o.post (jwksSemantics lib)).now = o.pre.now
        ∧ ∃ t, (o.post (jwksSemantics lib)).cache.lastRefresh = some t
          ∧ o.pre.now ≤ t + Instant.seconds 3600 := by
  cases hfresh with
  | inl hobserved =>
    rcases hobserved with ⟨refreshed, now', hmem, hle⟩
    rcases mem_eventsOf.mp hmem with ⟨o, ho, hthread, d, hw⟩
    rcases suffix_of_mem ho with ⟨rest', hsuffix⟩
    have hsound := h.reaches.sound o (hrest.mem ho) _ d hw
    injection hsound with hrefreshed hnow
    refine ⟨o, rest', hsuffix, hthread, ⟨_, d, hw⟩, ?_, refreshed, ?_, ?_⟩
    . simp [Entry.post, hw, jwksSemantics, JwksOp.exec]
    . simp [Entry.post, hw, jwksSemantics, JwksOp.exec, ← hrefreshed]
    . rw [← hnow]
      exact Int.le_add_of_sub_left_le hle
  | inr hfetched =>
    rcases mem_eventsOf.mp hfetched with ⟨c, hc, hcthread, d, hw⟩
    rcases suffix_of_mem hc with ⟨rest', hsuffix⟩
    have hreleases := h.allowed (hsuffix.trans hrest) hw
    rcases mem_eventsOf.mp hreleases.2 with ⟨o, ho, hthread, d', hw'⟩
    rcases suffix_of_mem ho with ⟨rest'', hsuffix'⟩
    refine ⟨o, rest'', hsuffix'.trans (suffix_tail hsuffix), hthread.trans hcthread, ⟨_, d', hw'⟩, ?_,
      o.pre.now, ?_, Int.le_add_of_nonneg_right (by decide)⟩
    . simp [Entry.post, hw', jwksSemantics, JwksOp.exec]
    . simp [Entry.post, hw', jwksSemantics, JwksOp.exec]

/--
A call that ensured its key finds one.
-/
theorem key_read {r : ClientEntry Key} {rest : List (ClientEntry Key)} (hr : r :: rest <:+ m.log)
    {key : Option Key} {d : Except String JwksReply} (hw : r.what = .call ⟨.readKey, key⟩ d)
    (hfresh : Observed (eventsOf r.thread rest) ∨ Fetched (eventsOf r.thread rest))
    : key.isSome := by
  rcases ensured h (suffix_tail hr) hfresh with ⟨o, rest', ho, _, _, _, t, ht, _⟩
  have hrefreshed : r.pre.cache.lastRefresh.isSome := by
    have hbetween := (refresh_evolution lib).between h.reaches hr (ho.mem List.mem_cons_self)
    rcases hbetween.2 with hsame | ⟨t', ht', _⟩
    . rw [hsame, ht]
      rfl
    . rw [ht']
      rfl
  have hkey : key = r.pre.cache.decodingKey := h.reaches.sound r (hr.mem List.mem_cons_self) _ d hw
  rcases h.reaches.split hr with ⟨m₁, _, h₁, _, hstore, _⟩
  rw [hkey, ← hstore]
  exact (cached h₁).refreshed (hstore ▸ hrefreshed)

/--
A call that ensured its key finds one, so a verification never has to give up for want of a key: it fails with the
error of its own fetch, or it reads a key and checks the signature of its token with it.
-/
theorem key_available
    : (∀ g rest key d, g :: rest <:+ m.log → g.what = .call ⟨.readKey, key⟩ d →
          Observed (eventsOf g.thread rest) ∨ Fetched (eventsOf g.thread rest) → key.isSome)
        ∧ ∀ e rest r, e :: rest <:+ m.log → e.what = .finish (.verified r) →
          ∃ token, Started rest e.thread (.verify token)
            ∧ ((∃ error, FetchFailed lib (eventsOf e.thread rest) error ∧ r = .error error)
              ∨ Decided token (eventsOf e.thread rest) r) := by
  refine ⟨fun g rest key d hg hw hfresh => key_read h hg hw hfresh, ?_⟩
  intro e rest r he hw
  rcases h.reaches.finished (fun q => handler_conforms q) he hw with ⟨q, hstarted, hanswered⟩
  rcases hanswered.ended r rfl with ⟨token, rfl, hfailed | hdecided | ⟨h', hevents, hfresh⟩⟩
  . exact ⟨token, hstarted, .inl hfailed⟩
  . exact ⟨token, hstarted, .inr hdecided⟩
  . rcases eventsOf_eq_cons hevents with ⟨g, rest', hg, hthread, ⟨d, hwg⟩, hrest'⟩
    rw [← hthread] at hrest'
    rw [← hrest'] at hfresh
    have hread := key_read h (hg.trans (suffix_tail he)) hwg hfresh
    contradiction

/--
No signature is checked with an old key: the fetch that stored it completed at most an hour before the call
that checks the signature began.
-/
theorem key_age {st e : ClientEntry Key} {rest₀ rest : List (ClientEntry Key)} {q : Call} {key : Key}
    (hst : st :: rest₀ <:+ m.log) (hq : st.what = .start q) (he : e :: rest <:+ m.log)
    (hthread : e.thread = st.thread) (hchecks : Checks e key)
    : ∃ t, FetchedAt rest key t ∧ st.pre.now ≤ t + Instant.seconds 3600 := by
  have hevolves := refresh_evolution lib
  rcases hchecks with ⟨ev, d, token, hw, hop⟩
  have hallowed := h.allowed he hw
  rw [hop] at hallowed
  rcases hallowed with ⟨h', hevents, hfresh⟩
  rcases eventsOf_eq_cons hevents with ⟨r, rest', hr, _, ⟨d', hwr⟩, hrest'⟩
  have hr' := hr.trans (suffix_tail he)
  -- The key is read while no fetch holds its lock, so the fetch that stored it has completed.
  have hdated : Dated ⟨r.pre, fun _ => none, rest'⟩ := by
    rcases h.reaches.split hr' with ⟨m₁, _, h₁, hlog, hstore, _⟩
    have henabled := h.log_enabled
    have hstamped := stamped h₁ (hlog ▸ henabled.of_suffix (suffix_tail hr'))
    have hfree := henabled r (hr'.mem List.mem_cons_self) _ d' hwr
    subst hlog
    have hfree : m₁.store.keyHeld = false := by simpa [JwksOp.enabled, hstore] using hfree
    simpa [Dated, hstore] using hstamped.free hfree
  have hkey : r.pre.cache.decodingKey = some key :=
    (h.reaches.sound r (hr'.mem List.mem_cons_self) _ d' hwr).symm
  rcases hdated key hkey with ⟨t, ht, c, rest'', hc, hfetched⟩
  refine ⟨t, ⟨c, rest'', hc.trans (suffix_tail hr), hfetched⟩, ?_⟩
  rw [← hrest'] at hfresh
  rcases ensured h (suffix_tail hr') hfresh with ⟨o, rest₃, ho, hothread, ⟨ev', d₃, hwo⟩, hnow, t', ht', hle⟩
  have hstart : st.pre.now ≤ o.pre.now := by
    have ho' := ho.trans (suffix_tail hr')
    rcases h.reaches.after_start hst hq ho' (hothread.trans hthread) with ⟨rfl, _⟩ | hold
    . exact nomatch hq.symm.trans hwo
    . have hbetween := (hevolves.between h.reaches ho' (hold.mem List.mem_cons_self)).1
      simpa [Entry.post, hq] using hbetween
  rcases hevolves.between h.reaches hr' (ho.mem List.mem_cons_self) with ⟨_, hrefresh⟩
  rw [ht', ht, hnow] at hrefresh
  rcases hrefresh with hsame | ⟨t'', ht'', hlater⟩
  . injection hsame with hsame
    subst hsame
    exact Int.le_trans hstart hle
  . injection ht'' with ht''
    subst ht''
    exact Int.le_trans hstart (Int.le_trans hlater (Int.le_add_of_nonneg_right (by decide)))

end Reachable

namespace Sample

def library : Library String where
  fromRsaComponents n _ := .ok n
  decode _ _ _ _ := .error "InvalidSignature"

def reply (n : String) : Except String JwksReply :=
  .ok ⟨200, .ok [⟨none, "", ""⟩, ⟨some "RS256", n, "AQAB"⟩]⟩

/--
A token is verified while the key is refreshed: the second fetch has to wait for the first one.
-/
def turns : List (Action (Except String JwksReply) Call) :=
  [.start 0 (.verify "eyJ"), .start 1 .refreshJwks, .step 0 (reply ""), .step 0 (reply ""),
    .step 0 (reply "old"), .step 1 (reply "new"), .step 0 (reply ""), .step 1 (reply ""), .tick 2,
    .step 0 (reply ""), .step 0 (reply ""), .step 1 (reply ""), .tick 3, .step 1 (reply ""),
    .step 1 (reply ""), .step 0 (reply ""), .step 0 (reply "")]

def concurrent : ClientMachine String :=
  attempts (jwksSemantics library) (handler library) JwksOp.enabled (init (Shared.new 0)) turns

/--
The same, once the token is verified.
-/
def verified : ClientMachine String :=
  attempts (jwksSemantics library) (handler library) JwksOp.enabled (init (Shared.new 0))
    (turns ++ [.step 0 (reply "")])

end Sample

theorem jwks_cache_concurrent :
    (Sample.concurrent.store.cache.lastRefresh = some 5
        ∧ Sample.concurrent.store.cache.decodingKey = some "new")
      ∧ (∃ key, Sample.concurrent.store.cache.decodingKey = some key
        ∧ LastFetched Sample.library Sample.concurrent.log key)
      ∧ ∃ e rest, e :: rest <:+ Sample.concurrent.log ∧ Checks e "new"
        ∧ (Observed (eventsOf e.thread rest) ∨ Fetched (eventsOf e.thread rest)) := by
  have hreachable : Sample.concurrent.Reachable Sample.library 0 := waits_attempts _ _
  have hsafe := jwks_cache hreachable
  have hcheck : ∃ e rest, Sample.concurrent.log = e :: rest ∧ Checks e "new" :=
    ⟨_, _, rfl, _, _, _, rfl, rfl⟩
  rcases hcheck with ⟨e, rest, hlog, hchecks⟩
  refine ⟨⟨rfl, rfl⟩, hsafe.1 rfl, e, rest, hlog ▸ List.suffix_refl _, hchecks, ?_⟩
  exact hsafe.2.2.2 e rest "new" (hlog ▸ List.suffix_refl _) hchecks

theorem key_available_concurrent :
    ∃ e rest, e :: rest <:+ Sample.verified.log
      ∧ e.what = .finish (.verified (.error (.jwtVerify "InvalidSignature")))
      ∧ ∃ token, Started rest e.thread (.verify token)
        ∧ ((∃ error, FetchFailed Sample.library (eventsOf e.thread rest) error
            ∧ (.error (.jwtVerify "InvalidSignature") : Except ClientError IntrospectResponse) = .error error)
          ∨ Decided token (eventsOf e.thread rest) (.error (.jwtVerify "InvalidSignature"))) := by
  have hreachable : Sample.verified.Reachable Sample.library 0 := waits_attempts _ _
  have hfinish : ∃ e rest, Sample.verified.log = e :: rest
      ∧ e.what = .finish (.verified (.error (.jwtVerify "InvalidSignature"))) :=
    ⟨_, _, rfl, rfl⟩
  rcases hfinish with ⟨e, rest, hlog, hw⟩
  have hsuffix : e :: rest <:+ Sample.verified.log := hlog ▸ List.suffix_refl _
  exact ⟨e, rest, hsuffix, hw, (key_available hreachable).2 e rest _ hsuffix hw⟩

theorem key_age_concurrent :
    ∃ (st e : ClientEntry String) (rest : List (ClientEntry String)),
      st.what = .start (.verify "eyJ") ∧ e :: rest <:+ Sample.concurrent.log
      ∧ Checks e "new" ∧ ∃ t, FetchedAt rest "new" t ∧ st.pre.now ≤ t + Instant.seconds 3600 := by
  have hreachable : Sample.concurrent.Reachable Sample.library 0 := waits_attempts _ _
  have hcheck : ∃ e rest, Sample.concurrent.log = e :: rest ∧ Checks e "new" ∧ e.thread = 0 :=
    ⟨_, _, rfl, ⟨_, _, _, rfl, rfl⟩, rfl⟩
  have hstart : ⟨0, Shared.new 0, .start (.verify "eyJ")⟩ :: [] <:+ Sample.concurrent.log :=
    ⟨Sample.concurrent.log.dropLast, rfl⟩
  rcases hcheck with ⟨e, rest, hlog, hchecks, hthread⟩
  have hsuffix : e :: rest <:+ Sample.concurrent.log := hlog ▸ List.suffix_refl _
  exact ⟨_, e, rest, rfl, hsuffix, hchecks, key_age hreachable hstart rfl hsuffix hthread hchecks⟩

end Client
end Aspectus
