import Aspectus.Interaction.Discipline

/-!
This module contains how to reason about the order of the entries of a log. An entry is located by
the log that follows it in the list, which is the log at the time the entry was made.
-/

namespace Interaction

theorem suffix_of_mem {α : Type} {a : α} {l : List α} (h : a ∈ l) : ∃ rest, a :: rest <:+ l := by
  rcases List.mem_iff_append.mp h with ⟨newer, rest, hl⟩
  exact ⟨rest, newer, hl.symm⟩

theorem suffix_tail {α : Type} {a : α} {l rest : List α} (h : a :: rest <:+ l) : rest <:+ l :=
  (List.suffix_cons a rest).trans h

/--
Of two located entries one is older than the other, unless they are the same.
-/
theorem suffix_trichotomy {α : Type} {a a' : α} {l rest rest' : List α} (h : a :: rest <:+ l)
    (h' : a' :: rest' <:+ l)
    : (a = a' ∧ rest = rest') ∨ a' :: rest' <:+ rest ∨ a :: rest <:+ rest' := by
  rcases List.suffix_or_suffix_of_suffix h h' with hs | hs
  . rcases List.suffix_cons_iff.mp hs with heq | hs
    . injection heq with h1 h2
      exact .inl ⟨h1, h2⟩
    . exact .inr (.inr hs)
  . rcases List.suffix_cons_iff.mp hs with heq | hs
    . injection heq with h1 h2
      exact .inl ⟨h1.symm, h2.symm⟩
    . exact .inr (.inl hs)

theorem pairwise_of_suffix {α : Type} {R : α → α → Prop} {l : List α}
    (h : ∀ a rest, a :: rest <:+ l → ∀ a' ∈ rest, R a a') : l.Pairwise R := by
  induction l with
  | nil => exact .nil
  | cons a l ih =>
    constructor
    . exact h a l (List.suffix_refl _)
    . apply ih
      intro a' rest hrest
      exact h a' rest (hrest.trans (List.suffix_cons a l))

/--
The newest event of a thread was called by an entry, before which there were the other ones.
-/
theorem eventsOf_eq_cons {S : Signature} {σ δ Req Resp : Type} {i : Nat}
    {log : List (Entry S σ δ Req Resp)} {ev : Event S} {h : List (Event S)}
    (hevents : eventsOf i log = ev :: h)
    : ∃ e rest, e :: rest <:+ log ∧ e.thread = i ∧ (∃ d, e.what = .call ev d)
        ∧ eventsOf i rest = h := by
  induction log with
  | nil => contradiction
  | cons e log ih =>
    by_cases hi : e.thread = i
    . cases hw : e.what with
      | call ev' d =>
        subst hi
        rw [eventsOf_cons_call hw] at hevents
        injection hevents with hev hrest
        subst hev
        exact ⟨e, log, List.suffix_refl _, rfl, ⟨d, hw⟩, hrest⟩
      | _ =>
        rw [eventsOf_cons_silent (by simp [Entry.event?, hw])] at hevents
        rcases ih hevents with ⟨e', rest, hsuffix, h'⟩
        exact ⟨e', rest, hsuffix.trans (List.suffix_cons _ _), h'⟩
    . rw [eventsOf_cons_ne hi] at hevents
      rcases ih hevents with ⟨e', rest, hsuffix, h'⟩
      exact ⟨e', rest, hsuffix.trans (List.suffix_cons _ _), h'⟩

namespace Machine

variable {S : Signature} {σ δ Req Resp : Type} {I : Semantics S σ δ} {handler : Req → Prog S Resp}

/--
Whatever is true of a store once a given entry was made is true from then on, if nothing but a
`bad` entry can end it and there is no such entry.
-/
theorem Reaches.persists {P : σ → Prop} {B : Entry S σ δ Req Resp → Prop}
    (hexec : ∀ e : Entry S σ δ Req Resp, ¬B e → P e.pre → P (e.post I))
    (hadvance : ∀ n s, P s → P (I.advance n s)) {s : σ} {m : Machine S σ δ Req Resp}
    (h : Reaches I handler (init s) m) {e₀ : Entry S σ δ Req Resp}
    {rest₀ : List (Entry S σ δ Req Resp)} (hsuffix : e₀ :: rest₀ <:+ m.log) (h₀ : P (e₀.post I))
    (hbad : ∀ e rest, e :: rest <:+ m.log → e₀ ∈ rest → ¬B e)
    : P m.store ∧ ∀ e rest, e :: rest <:+ m.log → e₀ :: rest₀ <:+ rest → P e.pre := by
  induction h with
  | refl => simp [init] at hsuffix
  | @act m' h a ih =>
    have hchange := act_change I handler m' a
    rcases hchange.log with hlog | ⟨e', hlog, hpre, hpost⟩
    . rw [hlog] at hsuffix hbad ⊢
      rcases ih hsuffix hbad with ⟨hstore, hentries⟩
      refine ⟨?_, hentries⟩
      generalize hm : Machine.act I handler m' a = m'' at hchange hlog
      cases hchange with
      | none => exact hstore
      | tick n => exact hadvance n _ hstore
      | _ => simp at hlog
    . rw [hlog] at hsuffix hbad ⊢
      rw [hpost]
      rcases List.suffix_cons_iff.mp hsuffix with heq | hsuffix
      . -- The located entry is the one that was just made.
        injection heq with h1 h2
        subst h1 h2
        refine ⟨h₀, ?_⟩
        intro e rest he hold
        have h1 := he.length_le
        have h2 := hold.length_le
        simp only [List.length_cons] at h1 h2
        omega
      . have hbad' : ∀ e rest, e :: rest <:+ m'.log → e₀ ∈ rest → ¬B e := fun e rest he =>
          hbad e rest (he.trans (List.suffix_cons _ _))
        rcases ih hsuffix hbad' with ⟨hstore, hentries⟩
        rw [hpre] at hstore
        have hnew : ¬B e' := hbad e' _ (List.suffix_refl _) (hsuffix.mem List.mem_cons_self)
        refine ⟨hexec e' hnew hstore, ?_⟩
        intro e rest he hold
        rcases List.suffix_cons_iff.mp he with heq | he
        . injection heq with h1 h2
          subst h1
          exact hstore
        . exact hentries e rest he hold

/--
If something is true of the store that was not true at the start, then there is an entry that made
it true.
-/
theorem Reaches.became {P : σ → Prop} (hadvance : ∀ n s, P (I.advance n s) → P s) {s : σ}
    {m : Machine S σ δ Req Resp} (h : Reaches I handler (init s) m) (hs : ¬P s) (hm : P m.store)
    : ∃ e rest, e :: rest <:+ m.log ∧ ¬P e.pre ∧ P (e.post I) := by
  induction h with
  | refl => exact absurd hm hs
  | @act m' h a ih =>
    have hchange := act_change I handler m' a
    by_cases hm' : P m'.store
    . rcases ih hm' with ⟨e, rest, he, hpre, hpost⟩
      refine ⟨e, rest, he.trans ?_, hpre, hpost⟩
      rcases hchange.log with hlog | ⟨e', hlog, _⟩
      . simp only [hlog, List.suffix_refl]
      . rw [hlog]
        apply List.suffix_cons
    . rcases hchange.log with hlog | ⟨e', hlog, hpre, hpost⟩
      . exfalso
        generalize hact : Machine.act I handler m' a = m'' at hchange hlog hm
        cases hchange with
        | none => exact hm' hm
        | tick n => exact hm' (hadvance n _ hm)
        | _ => simp at hlog
      . refine ⟨e', m'.log, ?_, hpre ▸ hm', hpost ▸ hm⟩
        simp only [hlog, List.suffix_refl]

/--
What holds of the store at the start, and of the store after every entry if it holds before it, holds
throughout an execution.
-/
theorem Reaches.store_inv {P : σ → Prop} (hadvance : ∀ n s, P s → P (I.advance n s)) {s : σ}
    (hs : P s)
    (hpost : ∀ (m : Machine S σ δ Req Resp) e rest, Reaches I handler (init s) m →
      e :: rest <:+ m.log → P e.pre → P (e.post I))
    {m : Machine S σ δ Req Resp} (h : Reaches I handler (init s) m) : P m.store := by
  induction h with
  | refl => exact hs
  | @act m' h a ih =>
    have hact : Reaches I handler (init s) (Machine.act I handler m' a) := .act h a
    have hchange := act_change I handler m' a
    rcases hchange.log with hlog | ⟨e', hlog, hpre, hstore⟩
    . generalize Machine.act I handler m' a = m'' at hchange hlog
      cases hchange with
      | none => exact ih
      | tick n => exact hadvance n _ ih
      | _ => simp at hlog
    . rw [hstore]
      apply hpost _ e' m'.log hact
      . simp only [hlog, List.suffix_refl]
      . exact hpre ▸ ih

/--
The same for the stores in the log.
-/
theorem Reaches.pre_inv {P : σ → Prop} (hadvance : ∀ n s, P s → P (I.advance n s)) {s : σ}
    (hs : P s)
    (hpost : ∀ (m : Machine S σ δ Req Resp) e rest, Reaches I handler (init s) m →
      e :: rest <:+ m.log → P e.pre → P (e.post I))
    {m : Machine S σ δ Req Resp} (h : Reaches I handler (init s) m)
    {e : Entry S σ δ Req Resp} (he : e ∈ m.log) : P e.pre := by
  rcases suffix_of_mem he with ⟨rest, hsuffix⟩
  rcases h.split hsuffix with ⟨m₁, _, h₁, _, hstore, _⟩
  rw [← hstore]
  exact h₁.store_inv hadvance hs hpost

/--
What an operation keeps of the events of its own thread and of those of every other thread, holds of all
threads throughout an execution.
-/
theorem Reaches.events_inv {P : List (Event S) → σ → Prop} (hadvance : ∀ h n s, P h s → P h (I.advance n s))
    (hown : ∀ h o d s, P h s → P (⟨o, (I.exec o d s).1⟩ :: h) (I.exec o d s).2)
    (hother : ∀ h o d s, P h s → P h (I.exec o d s).2) {s : σ} (hs : P [] s)
    {m : Machine S σ δ Req Resp} (h : Reaches I handler (init s) m) : ∀ i, P (eventsOf i m.log) m.store := by
  refine h.inv (P := fun m => ∀ i, P (eventsOf i m.log) m.store) (fun _ => hs) ?_
  intro m m' _ ih hchange i
  cases hchange with
  | none => exact ih i
  | tick n => exact hadvance _ n _ (ih i)
  | start j q hfree =>
    rw [eventsOf_cons_silent (by rfl)]
    exact ih i
  | finish j q a hrun =>
    rw [eventsOf_cons_silent (by rfl)]
    exact ih i
  | call j d q o k hrun =>
    by_cases hj : j = i
    . subst hj
      rw [eventsOf_cons_call (e := ⟨j, _, _⟩) rfl]
      exact hown _ o d _ (ih j)
    . rw [eventsOf_cons_ne hj]
      exact hother _ o d _ (ih i)

section Thread

variable {s : σ} {m : Machine S σ δ Req Resp} (h : Reaches I handler (init s) m)
  {e e' : Entry S σ δ Req Resp} {rest rest' : List (Entry S σ δ Req Resp)}
include h

/--
Nothing of a thread happens before it is started.
-/
theorem Reaches.start_first (he : e :: rest <:+ m.log) {q : Req} (hw : e.what = .start q)
    (he' : e' ∈ rest) : e'.thread ≠ e.thread := by
  rcases h.split he with ⟨m₁, m₂, h₁, hlog₁, _, hchange, hlog₂, _⟩
  intro hthread
  cases hchange with
  | start i q' hfree =>
    simp only [hlog₁, List.cons.injEq, and_true] at hlog₂
    subst hlog₂ hlog₁
    rcases h₁.served.listed e' he' with ⟨t, ht⟩
    rw [hthread, hfree] at ht
    contradiction
  | call i d q' o k hrun =>
    simp only [hlog₁, List.cons.injEq, and_true] at hlog₂
    subst hlog₂
    injection hw
  | finish i q' a hrun =>
    simp only [hlog₁, List.cons.injEq, and_true] at hlog₂
    subst hlog₂
    injection hw
  | _ => simp [hlog₁] at hlog₂

/--
Nothing of a thread happens after it was answered.
-/
theorem Reaches.finish_last (he : e :: rest <:+ m.log) (he' : e' ∈ rest) {a : Resp}
    (hw : e'.what = .finish a) : e.thread ≠ e'.thread := by
  rcases h.split he with ⟨m₁, m₂, h₁, hlog₁, _, hchange, hlog₂, _⟩
  rcases h₁.served.answered e' (hlog₁ ▸ he') a hw with ⟨q, hq⟩
  intro hthread
  rw [← hthread] at hq
  cases hchange with
  | start i q' hfree =>
    simp only [hlog₁, List.cons.injEq, and_true] at hlog₂
    subst hlog₂
    rw [hfree] at hq
    contradiction
  | call i d q' o k hrun =>
    simp only [hlog₁, List.cons.injEq, and_true] at hlog₂
    subst hlog₂
    rw [hrun] at hq
    simp at hq
  | finish i q' a hrun =>
    simp only [hlog₁, List.cons.injEq, and_true] at hlog₂
    subst hlog₂
    rw [hrun] at hq
    simp at hq
  | _ => simp [hlog₁] at hlog₂

/--
Everything that happens in a thread happens after its start.
-/
theorem Reaches.after_start (he : e :: rest <:+ m.log) {q : Req} (hw : e.what = .start q)
    (he' : e' :: rest' <:+ m.log) (hthread : e'.thread = e.thread)
    : (e' = e ∧ rest' = rest) ∨ e :: rest <:+ rest' := by
  rcases suffix_trichotomy he he' with ⟨heq, hrest⟩ | hold | hold
  . exact .inl ⟨heq.symm, hrest.symm⟩
  . have := h.start_first he hw (hold.mem List.mem_cons_self)
    contradiction
  . exact .inr hold

end Thread

/--
A request that is being served can be answered without any step of another thread, whatever is drawn for it.
-/
theorem exists_finish (d : δ) (i : Nat) (q : Req) {p : Prog S Resp} {m : Machine S σ δ Req Resp}
    (hrun : m.threads i = some ⟨q, some p⟩)
    : ∃ m' new, Reaches I handler m m' ∧ m'.log = new ++ m.log ∧ (∀ e ∈ new, e.thread = i)
        ∧ ∃ e ∈ new, ∃ a, e.what = .finish a := by
  induction p generalizing m with
  | pure a =>
    refine ⟨act I handler m (.step i d), [⟨i, m.store, .finish a⟩], .act .refl _, ?_, ?_, ?_⟩
    . unfold act
      simp [hrun]
    . simp
    . simp
  | call o k ih =>
    have hstep : act I handler m (.step i d) =
        { store := (I.exec o d m.store).2
          threads := Function.update m.threads i (some ⟨q, some (k (I.exec o d m.store).1)⟩)
          log := ⟨i, m.store, .call ⟨o, (I.exec o d m.store).1⟩ d⟩ :: m.log } := by
      unfold act
      simp [hrun]
    have hnext : (act I handler m (.step i d)).threads i
        = some ⟨q, some (k (I.exec o d m.store).1)⟩ := by
      rw [hstep]
      apply Function.update_self
    rcases ih _ hnext with ⟨m', new, hreaches, hlog, hnew, e, he, hfinish⟩
    refine ⟨m', new ++ [⟨i, m.store, .call ⟨o, (I.exec o d m.store).1⟩ d⟩],
      .trans (.act .refl _) hreaches, ?_, ?_, e, List.mem_append_left _ he, hfinish⟩
    . rw [hlog, hstep]
      simp
    . simp only [List.forall_mem_append, List.forall_mem_singleton]
      exact ⟨hnew, trivial⟩

end Machine
end Interaction
