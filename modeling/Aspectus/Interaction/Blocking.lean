import Mathlib.Data.List.Induction
import Aspectus.Interaction.History

/-!
This module contains executions in which an operation may have to wait until the store allows it, and
what an exclusive lock guarantees in such executions.
-/

namespace Interaction

variable {S : Signature} {σ δ Req Resp : Type}

/--
After these events (newest first) a thread has taken a lock that it did not give back yet.
-/
def Holding (takes gives : S.Op → Prop) : List (Event S) → Prop
  | [] => False
  | ev :: h => takes ev.op ∨ (¬gives ev.op ∧ Holding takes gives h)

theorem Holding.exists_takes {takes gives : S.Op → Prop} {h : List (Event S)}
    (hholding : Holding takes gives h) : ∃ ev ∈ h, takes ev.op := by
  induction h with
  | nil => contradiction
  | cons ev h ih =>
    cases hholding with
    | inl htakes => exact ⟨ev, List.mem_cons_self, htakes⟩
    | inr hrest =>
      rcases ih hrest.2 with ⟨ev', hmem, htakes⟩
      exact ⟨ev', List.mem_cons_of_mem _ hmem, htakes⟩

/--
A thread that took a lock and does not hold it any more gave it back.
-/
theorem Holding.exists_gives {takes gives : S.Op → Prop} {h : List (Event S)}
    (hnot : ¬Holding takes gives h) {ev : Event S} (hev : ev ∈ h) (htakes : takes ev.op)
    : ∃ ev' ∈ h, gives ev'.op := by
  induction h with
  | nil => contradiction
  | cons ev' h ih =>
    simp only [Holding, not_or, not_and] at hnot
    by_cases hgives : gives ev'.op
    . exact ⟨ev', List.mem_cons_self, hgives⟩
    . cases List.mem_cons.mp hev with
      | inl heq =>
        subst heq
        exact absurd htakes hnot.1
      | inr hev =>
        rcases ih (fun hholding => hgives (by simpa [hholding] using hnot.2)) hev with ⟨ev'', hmem, h''⟩
        exact ⟨ev'', List.mem_cons_of_mem _ hmem, h''⟩

namespace Machine

variable (I : Semantics S σ δ) (handler : Req → Prog S Resp) (enabled : S.Op → σ → Bool)

/--
The thread of the action does not have to wait.
-/
def ready (m : Machine S σ δ Req Resp) : Action δ Req → Bool
  | .step i _ =>
    match m.threads i with
    | some ⟨_, some (.call o _)⟩ => enabled o m.store
    | _ => true
  | _ => true

/--
`m'` can be reached from `m` by some interleaving in which threads wait for their operations.
-/
inductive Waits (m : Machine S σ δ Req Resp) : Machine S σ δ Req Resp → Prop where
  | refl : Waits m m
  | act {m'} (h : Waits m m') (a : Action δ Req) (ha : ready enabled m' a = true) :
    Waits m (act I handler m' a)

/--
Perform the actions one after the other, those that have to wait are left out.
-/
def attempts (m : Machine S σ δ Req Resp) (actions : List (Action δ Req)) : Machine S σ δ Req Resp :=
  actions.foldl (fun m a => if ready enabled m a then act I handler m a else m) m

/--
All operations in the log were enabled when they were called.
-/
def Enabled (log : List (Entry S σ δ Req Resp)) : Prop :=
  ∀ e ∈ log, ∀ ev d, e.what = .call ev d → enabled ev.op e.pre = true

variable {I handler enabled}

theorem Enabled.of_suffix {log rest : List (Entry S σ δ Req Resp)} (h : Enabled enabled log)
    (hsuffix : rest <:+ log) : Enabled enabled rest :=
  fun e he => h e (hsuffix.mem he)

theorem Enabled.cons {e : Entry S σ δ Req Resp} {log : List (Entry S σ δ Req Resp)}
    (h : Enabled enabled log) (he : ∀ ev d, e.what = .call ev d → enabled ev.op e.pre = true)
    : Enabled enabled (e :: log) :=
  List.forall_mem_cons.mpr ⟨he, h⟩

theorem Waits.reaches {m m' : Machine S σ δ Req Resp} (h : Waits I handler enabled m m') :
    Reaches I handler m m' := by
  induction h with
  | refl => exact .refl
  | act _ a _ ih => exact .act ih a

theorem waits_attempts (m : Machine S σ δ Req Resp) (actions : List (Action δ Req)) :
    Waits I handler enabled m (attempts I handler enabled m actions) := by
  unfold attempts
  induction actions using List.reverseRecOn with
  | nil => exact .refl
  | append_singleton actions a ih =>
    rw [List.foldl_append, List.foldl_cons, List.foldl_nil]
    split
    . next ha => exact .act ih a ha
    . exact ih

theorem Waits.log_enabled {s : σ} {m : Machine S σ δ Req Resp}
    (h : Waits I handler enabled (init s) m) : Enabled enabled m.log := by
  induction h with
  | refl => simp [Enabled, init]
  | @act m' h a ha ih =>
    cases a with
    | tick n => exact ih
    | start i q =>
      unfold Machine.act
      dsimp only
      split
      . exact ih
      . exact ih.cons fun _ _ h => by cases h
    | step i d =>
      unfold Machine.act
      dsimp only
      split
      . next q o k hrun =>
        apply ih.cons
        intro ev d' hw
        injection hw with hev
        subst hev
        simpa [ready, hrun] using ha
      . exact ih.cons fun _ _ h => by cases h
      . exact ih

/--
A lock that is taken and given back by operations, and that only one thread can take at a time.
-/
structure Lock (I : Semantics S σ δ) (enabled : S.Op → σ → Bool) where
  takes : S.Op → Prop
  gives : S.Op → Prop
  held : σ → Prop
  disjoint : ∀ o, takes o → ¬gives o
  waits : ∀ o s, takes o → enabled o s = true → ¬held s
  take : ∀ o d s, takes o → held (I.exec o d s).2
  give : ∀ o d s, gives o → ¬held (I.exec o d s).2
  keep : ∀ o d s, ¬takes o → ¬gives o → (held (I.exec o d s).2 ↔ held s)
  advance : ∀ n s, held (I.advance n s) ↔ held s

namespace Lock

variable (lock : Lock I enabled)

/--
The thread `i` holds the lock according to `log`.
-/
def Holder (log : List (Entry S σ δ Req Resp)) (i : Nat) : Prop :=
  Holding lock.takes lock.gives (eventsOf i log)

variable {guard : Req → List (Event S) → S.Op → Prop}
  {post : Req → List (Event S) → Resp → Prop}
  (spec : ∀ q, (handler q).Conforms (guard q) (post q) [])
  (hgives : ∀ q h o, guard q h o → lock.gives o → Holding lock.takes lock.gives h)

include spec hgives

/--
Mutual exclusion: if threads only give back what they hold, then the lock is held exactly if some thread
holds it, and at most one thread does.
-/
theorem exclusive {s : σ} (hs : ¬lock.held s) {m : Machine S σ δ Req Resp}
    (h : Reaches I handler (init s) m) (henabled : Enabled enabled m.log)
    : (lock.held m.store ↔ ∃ i, lock.Holder m.log i)
        ∧ ∀ i j, lock.Holder m.log i → lock.Holder m.log j → i = j := by
  revert henabled
  refine h.inv (P := fun m => Enabled enabled m.log → (lock.held m.store ↔ ∃ i, lock.Holder m.log i)
    ∧ ∀ i j, lock.Holder m.log i → lock.Holder m.log j → i = j) ?_ ?_
  . intro _
    simp [init, Holder, eventsOf, Holding, hs]
  . intro m m' hm ih hchange henabled
    cases hchange with
    | none => exact ih henabled
    | tick n =>
      rcases ih henabled with ⟨hheld, hunique⟩
      exact ⟨(lock.advance n _).trans hheld, hunique⟩
    | start i q hfree =>
      have hsame : ∀ j, lock.Holder (⟨i, m.store, .start q⟩ :: m.log) j ↔ lock.Holder m.log j := by
        intro j
        unfold Holder
        rw [eventsOf_cons_silent (by rfl)]
      simp only [hsame]
      exact ih (henabled.of_suffix (List.suffix_cons _ _))
    | finish i q a hrun =>
      have hsame : ∀ j, lock.Holder (⟨i, m.store, .finish a⟩ :: m.log) j ↔ lock.Holder m.log j := by
        intro j
        unfold Holder
        rw [eventsOf_cons_silent (by rfl)]
      simp only [hsame]
      exact ih (henabled.of_suffix (List.suffix_cons _ _))
    | call i d q o k hrun =>
      rcases ih (henabled.of_suffix (List.suffix_cons _ _)) with ⟨hheld, hunique⟩
      have hother : ∀ j, j ≠ i → (lock.Holder (⟨i, m.store, .call ⟨o, (I.exec o d m.store).1⟩ d⟩
          :: m.log) j ↔ lock.Holder m.log j) := by
        intro j hj
        unfold Holder
        rw [eventsOf_cons_ne fun hi => hj hi.symm]
      have hown : lock.Holder (⟨i, m.store, .call ⟨o, (I.exec o d m.store).1⟩ d⟩ :: m.log) i
          ↔ lock.takes o ∨ (¬lock.gives o ∧ lock.Holder m.log i) := by
        unfold Holder
        rw [eventsOf_cons_call (e := ⟨i, _, _⟩) rfl]
        rfl
      by_cases htakes : lock.takes o
      . -- Nobody holds a lock that can be taken.
        have hfree : ∀ j, ¬lock.Holder m.log j := by
          have hwaits := lock.waits o m.store htakes (henabled _ List.mem_cons_self _ _ rfl)
          simpa [hheld] using hwaits
        constructor
        . simp only [lock.take o d m.store htakes, true_iff]
          exact ⟨i, hown.mpr (.inl htakes)⟩
        . intro j j' hj hj'
          by_cases hji : j = i
          . by_cases hji' : j' = i
            . rw [hji, hji']
            . exact absurd ((hother j' hji').mp hj') (hfree j')
          . exact absurd ((hother j hji).mp hj) (hfree j)
      . by_cases hgive : lock.gives o
        . have hholder : lock.Holder m.log i :=
            hgives q _ o (hm.conforms spec i q _ hrun).1 hgive
          have hfree : ∀ j, ¬lock.Holder (⟨i, m.store, .call ⟨o, (I.exec o d m.store).1⟩ d⟩
              :: m.log) j := by
            intro j hj
            by_cases hji : j = i
            . subst hji
              simp [hown, htakes, hgive] at hj
            . exact hji (hunique j i ((hother j hji).mp hj) hholder)
          constructor
          . simpa [lock.give o d m.store hgive] using hfree
          . intro j _ hj
            exact absurd hj (hfree j)
        . have hsame : ∀ j, lock.Holder (⟨i, m.store, .call ⟨o, (I.exec o d m.store).1⟩ d⟩
              :: m.log) j ↔ lock.Holder m.log j := by
            intro j
            by_cases hji : j = i
            . subst hji
              simp [hown, htakes, hgive]
            . exact hother j hji
          simp only [hsame]
          exact ⟨(lock.keep o d m.store htakes hgive).trans hheld, hunique⟩

/--
Before a lock is taken, every thread that took it earlier gave it back.
-/
theorem given_back {s : σ} (hs : ¬lock.held s) {m : Machine S σ δ Req Resp}
    (h : Reaches I handler (init s) m) (henabled : Enabled enabled m.log)
    {e e' : Entry S σ δ Req Resp} {rest : List (Entry S σ δ Req Resp)} (he : e :: rest <:+ m.log)
    {ev ev' : Event S} {d d' : δ} (hw : e.what = .call ev d) (htakes : lock.takes ev.op)
    (he' : e' ∈ rest) (hw' : e'.what = .call ev' d') (htakes' : lock.takes ev'.op)
    : ∃ g ∈ rest, g.thread = e'.thread ∧ ∃ ev d, g.what = .call ev d ∧ lock.gives ev.op := by
  rcases h.split he with ⟨m₁, _, h₁, hlog, hstore, _⟩
  have henabled₁ : Enabled enabled m₁.log := hlog ▸ henabled.of_suffix (suffix_tail he)
  have hfree := lock.waits ev.op e.pre htakes (henabled e (he.mem List.mem_cons_self) ev d hw)
  have hexclusive := (lock.exclusive spec hgives hs h₁ henabled₁).1
  rw [hstore, hlog] at hexclusive
  have hnot : ¬lock.Holder rest e'.thread := by
    intro hholder
    exact hfree (hexclusive.mpr ⟨_, hholder⟩)
  have hev' : ev' ∈ eventsOf e'.thread rest := mem_eventsOf.mpr ⟨e', he', rfl, d', hw'⟩
  rcases Holding.exists_gives hnot hev' htakes' with ⟨ev'', hmem, hgive⟩
  rcases mem_eventsOf.mp hmem with ⟨g, hg, hthread, d'', hwg⟩
  exact ⟨g, hg, hthread, ev'', d'', hwg, hgive⟩

end Lock

end Machine
end Interaction
