import Aspectus.Interaction.Removal
import Aspectus.Interaction.Sum

/-!
This module contains when the threads of an execution do not notice that others were removed from it, although
their operations are not always answered the same: if their programs are insensitive to the difference.
-/

namespace Interaction

variable {S T : Signature} {σ δ Req Resp α β : Type} {alike : (o : S.Op) → S.Res o → S.Res o → Prop}

namespace Prog

/--
The program goes on in the same way after answers that are alike.
-/
def Insensitive (alike : (o : S.Op) → S.Res o → S.Res o → Prop) : Prog S α → Prop
  | .pure _ => True
  | .call o k => (∀ r r', alike o r r' → k r = k r') ∧ ∀ r, (k r).Insensitive alike

theorem insensitive_perform_bind {o : S.Op} {f : S.Res o → Prog S α}
    (ho : ∀ r r', alike o r r' → f r = f r') (hf : ∀ r, (f r).Insensitive alike)
    : (perform o >>= f).Insensitive alike :=
  ⟨ho, hf⟩

theorem Insensitive.bind {p : Prog S α} {f : α → Prog S β} (hp : p.Insensitive alike)
    (hf : ∀ a, (f a).Insensitive alike) : (p >>= f).Insensitive alike := by
  induction p with
  | pure a => exact hf a
  | call o k ih =>
    refine ⟨fun r r' h => ?_, fun r => ih r (hp.2 r)⟩
    change (k r >>= f) = (k r' >>= f)
    rw [hp.1 r r' h]

/--
A program is insensitive if the answers of its operations are only like themselves.
-/
theorem Uses.insensitive {U : S.Op → Prop} {p : Prog S α} (hp : p.Uses U)
    (hU : ∀ o, U o → ∀ r r', alike o r r' → r = r') : p.Insensitive alike := by
  induction p with
  | pure a => trivial
  | call o k ih =>
    refine ⟨fun r r' h => ?_, fun r => ih r (hp.2 r)⟩
    rw [hU o hp.1 r r' h]

theorem Insensitive.left {alike' : (o : (S.sum T).Op) → (S.sum T).Res o → (S.sum T).Res o → Prop}
    {p : Prog S α} (hp : p.Insensitive alike) (halike : ∀ o r r', alike' (.left o) r r' → alike o r r')
    : (Prog.left p : Prog (S.sum T) α).Insensitive alike' := by
  induction p with
  | pure a => trivial
  | call o k ih =>
    refine ⟨fun r r' h => ?_, fun r => ih r (hp.2 r)⟩
    change (k r).left = (k r').left
    rw [hp.1 r r' (halike o r r' h)]

end Prog

namespace Machine

variable {I : Semantics S σ δ} {handler : Req → Prog S Resp}

/--
Thread `i` is about to call the operation `o`.
-/
def Calls (m : Machine S σ δ Req Resp) (i : Nat) (o : S.Op) : Prop :=
  ∃ q k, m.threads i = some ⟨q, some (.call o k)⟩

/--
How the stores of two executions are related: time passes in both, the operations `U` of the threads that are
removed keep the relation, and so does every operation that is called in both, provided that it is not one
of those that tell the stores apart. Then its answers are alike.
-/
structure Screening (I : Semantics S σ δ) (alike : (o : S.Op) → S.Res o → S.Res o → Prop)
    (R : σ → σ → Prop) (U : S.Op → Prop) (tells : S.Op → σ → σ → Prop) : Prop where
  advance : ∀ n s s', R s s' → R (I.advance n s) (I.advance n s')
  removed : ∀ o d s s', U o → R s s' → R (I.exec o d s).2 s'
  both : ∀ o d s s', ¬tells o s s' → R s s' →
    alike o (I.exec o d s).1 (I.exec o d s').1 ∧ R (I.exec o d s).2 (I.exec o d s').2

/--
The same happens, up to answers that are alike.
-/
inductive HappensAlike (alike : (o : S.Op) → S.Res o → S.Res o → Prop) :
    Happening S δ Req Resp → Happening S δ Req Resp → Prop where
  | start (q : Req) : HappensAlike alike (.start q) (.start q)
  | call (o : S.Op) (r r' : S.Res o) (d : δ) (h : alike o r r') :
    HappensAlike alike (.call ⟨o, r⟩ d) (.call ⟨o, r'⟩ d)
  | finish (a : Resp) : HappensAlike alike (.finish a) (.finish a)

/--
Two executions that the threads in both of them cannot tell apart.
-/
structure Alike (alike : (o : S.Op) → S.Res o → S.Res o → Prop) (R : σ → σ → Prop) (kept : Nat → Bool)
    (m m' : Machine S σ δ Req Resp) : Prop where
  store : R m.store m'.store
  threads : ∀ i, kept i = true → m.threads i = m'.threads i
  log : List.Forall₂ (fun e e' => e.thread = e'.thread ∧ HappensAlike alike e.what e'.what)
    (m.log.filter fun e => kept e.thread) m'.log

theorem runs_concat (m : Machine S σ δ Req Resp) (actions : List (Action δ Req)) (a : Action δ Req) :
    runs I handler m (actions ++ [a]) = act I handler (runs I handler m actions) a := by
  unfold runs
  rw [List.foldl_append]
  rfl

section Step

variable {R : σ → σ → Prop} {U : S.Op → Prop} {tells : S.Op → σ → σ → Prop} {kept : Nat → Bool}
variable {m m' : Machine S σ δ Req Resp}

/--
What is left of the programs: the ones in both executions are insensitive, the removed ones only call
operations that may be removed.
-/
structure Screened (alike : (o : S.Op) → S.Res o → S.Res o → Prop) (U : S.Op → Prop) (kept : Nat → Bool)
    (m : Machine S σ δ Req Resp) : Prop where
  insensitive : ∀ i q p, kept i = true → m.threads i = some ⟨q, some p⟩ → p.Insensitive alike
  uses : ∀ i q p, kept i = false → m.threads i = some ⟨q, some p⟩ → p.Uses U

theorem Screened.update (h : Screened alike U kept m) {i : Nat} {q : Req} {rest : Option (Prog S Resp)}
    {s : σ} {log : List (Entry S σ δ Req Resp)}
    (hkept : ∀ p, rest = some p → kept i = true → p.Insensitive alike)
    (hremoved : ∀ p, rest = some p → kept i = false → p.Uses U)
    : Screened alike U kept ⟨s, Function.update m.threads i (some ⟨q, rest⟩), log⟩ := by
  constructor
  . intro j q' p hj ht
    by_cases hne : j = i
    . subst hne
      simp only [Function.update_self, Option.some.injEq, Thread.mk.injEq] at ht
      exact hkept p ht.2 hj
    . simp only [Function.update_of_ne hne] at ht
      exact h.insensitive j q' p hj ht
  . intro j q' p hj ht
    by_cases hne : j = i
    . subst hne
      simp only [Function.update_self, Option.some.injEq, Thread.mk.injEq] at ht
      exact hremoved p ht.2 hj
    . simp only [Function.update_of_ne hne] at ht
      exact h.uses j q' p hj ht

theorem Screened.act (h : Screened alike U kept m) {a : Action δ Req}
    (hprogs : ∀ q, (handler q).Insensitive alike)
    (hremoved : ∀ i q, a = .start i q → kept i = false → (handler q).Uses U)
    : Screened alike U kept (act I handler m a) := by
  cases a with
  | tick n => exact ⟨h.insensitive, h.uses⟩
  | start i q =>
    unfold Machine.act
    dsimp only
    split
    . exact h
    . apply h.update
      . rintro _ ⟨⟩ _
        exact hprogs q
      . rintro _ ⟨⟩ hi
        exact hremoved i q rfl hi
  | step i d =>
    unfold Machine.act
    dsimp only
    split
    . next q o k hrun =>
      apply h.update
      . rintro _ ⟨⟩ hi
        exact (h.insensitive i q _ hi hrun).2 _
      . rintro _ ⟨⟩ hi
        exact (h.uses i q _ hi hrun).2 _
    . next q b hrun =>
      apply h.update
      . nofun
      . nofun
    . exact h

/--
An action of a thread that was removed.
-/
theorem Alike.act_removed (hI : Screening I alike R U tells) (h : Alike alike R kept m m')
    (hscreened : Screened alike U kept m) {a : Action δ Req} {i : Nat} (ha : thread? a = some i)
    (hi : kept i = false) : Alike alike R kept (act I handler m a) m' := by
  have hthreads : ∀ j, kept j = true → (act I handler m a).threads j = m'.threads j := by
    intro j hj
    rw [act_threads_ne ha (ne_of_kept hi hj)]
    exact h.threads j hj
  have hlog : ∀ e : Entry S σ δ Req Resp, e.thread = i →
      (e :: m.log).filter (fun e => kept e.thread) = m.log.filter fun e => kept e.thread := by
    rintro e rfl
    rw [List.filter_cons_of_neg (by simp [hi])]
  cases a with
  | tick n => contradiction
  | start i' q =>
    injection ha with ha
    subst ha
    refine ⟨?_, hthreads, ?_⟩
    . unfold act
      dsimp only
      split
      . exact h.store
      . exact h.store
    . unfold act
      dsimp only
      split
      . exact h.log
      . dsimp only
        rw [hlog ⟨i', m.store, .start q⟩ rfl]
        exact h.log
  | step i' d =>
    injection ha with ha
    subst ha
    refine ⟨?_, hthreads, ?_⟩
    . unfold act
      dsimp only
      split
      . next q o k hrun => exact hI.removed o d _ _ (hscreened.uses i' q _ hi hrun).1 h.store
      . exact h.store
      . exact h.store
    . unfold act
      dsimp only
      split
      . next q o k hrun =>
        dsimp only
        rw [hlog ⟨i', m.store, _⟩ rfl]
        exact h.log
      . next q b hrun =>
        dsimp only
        rw [hlog ⟨i', m.store, _⟩ rfl]
        exact h.log
      . exact h.log

/--
Both executions do the same with a thread that is in both of them.
-/
theorem Alike.update (h : Alike alike R kept m m') {i : Nat} (hi : kept i = true) {t : Thread S Req Resp}
    {s s' : σ} (hstore : R s s') {w w' : Happening S δ Req Resp} (hw : HappensAlike alike w w')
    : Alike alike R kept ⟨s, Function.update m.threads i (some t), ⟨i, m.store, w⟩ :: m.log⟩
        ⟨s', Function.update m'.threads i (some t), ⟨i, m'.store, w'⟩ :: m'.log⟩ := by
  refine ⟨hstore, ?_, ?_⟩
  . intro j hj
    by_cases hne : j = i
    . subst hne
      simp
    . simpa [hne] using h.threads j hj
  . dsimp only
    rw [List.filter_cons_of_pos (by simpa using hi)]
    exact .cons ⟨rfl, hw⟩ h.log

/--
An action of a thread that is in both executions. It has the same to do in both of them, and it goes on in the
same way.
-/
theorem Alike.act_kept (hI : Screening I alike R U tells) (h : Alike alike R kept m m')
    (hscreened : Screened alike U kept m) {a : Action δ Req} {i : Nat} (ha : thread? a = some i)
    (hi : kept i = true)
    (htells : ∀ d o, a = .step i d → Calls m i o → ¬tells o m.store m'.store)
    : Alike alike R kept (act I handler m a) (act I handler m' a) := by
  have hsame := h.threads i hi
  cases a with
  | tick n => contradiction
  | start i' q =>
    injection ha with ha
    subst ha
    unfold act
    dsimp only
    rw [← hsame]
    split
    . exact h
    . exact h.update hi h.store (.start q)
  | step i' d =>
    injection ha with ha
    subst ha
    unfold act
    dsimp only
    rw [← hsame]
    split
    . next q o k hrun =>
      rcases hI.both o d _ _ (htells d o rfl ⟨q, k, hrun⟩) h.store with ⟨halike, hstore⟩
      rw [← (hscreened.insensitive i' q _ hi hrun).1 _ _ halike]
      exact h.update hi hstore (.call o _ _ d halike)
    . next q b hrun => exact h.update hi h.store (.finish b)
    . exact h

theorem answered_filter (kept : Nat → Bool) (log : List (Entry S σ δ Req Resp)) :
    answered kept (log.filter fun e => kept e.thread) = answered kept log := by
  unfold answered
  rw [List.filterMap_filter]
  congr 1
  funext e
  cases hkept : kept e.thread with
  | true => rfl
  | false =>
    cases e.what with
    | finish a => simp
    | _ => simp

theorem answered_alike {log log' : List (Entry S σ δ Req Resp)}
    (h : List.Forall₂ (fun e e' => e.thread = e'.thread ∧ HappensAlike alike e.what e'.what) log log')
    : answered kept log = answered kept log' := by
  induction h with
  | nil => rfl
  | @cons e e' log log' he _ ih =>
    rcases e with ⟨i, s, w⟩
    rcases e' with ⟨i', s', w'⟩
    rcases he with ⟨hthread, hw⟩
    dsimp only at hthread hw
    subst hthread
    cases hw with
    | start q =>
      rw [answered_cons_silent (.inr nofun), answered_cons_silent (.inr nofun)]
      exact ih
    | call o r r' d _ =>
      rw [answered_cons_silent (.inr nofun), answered_cons_silent (.inr nofun)]
      exact ih
    | finish a =>
      cases hi : kept i with
      | true => rw [answered_cons_finish hi rfl, answered_cons_finish hi rfl, ih]
      | false =>
        rw [answered_cons_silent (.inl hi), answered_cons_silent (.inl hi)]
        exact ih

/--
All responses are the same.
-/
theorem Alike.answers (h : Alike alike R kept m m') : answered kept m.log = answered kept m'.log := by
  rw [← answered_filter]
  exact answered_alike h.log

end Step

/--
Whatever happens in the other threads is the same in the execution from which some threads were removed,
unless an operation tells the stores of the two executions apart.
-/
theorem runs_alike {R : σ → σ → Prop} {U : S.Op → Prop} {tells : S.Op → σ → σ → Prop} {kept : Nat → Bool}
    (hI : Screening I alike R U tells) (hprogs : ∀ q, (handler q).Insensitive alike) {s s' : σ}
    (hs : R s s') (actions : List (Action δ Req))
    (hremoved : ∀ i q, .start i q ∈ actions → kept i = false → (handler q).Uses U)
    (htells : ∀ before i d after o, actions = before ++ .step i d :: after → kept i = true →
      Calls (runs I handler (init s) before) i o →
      ¬tells o (runs I handler (init s) before).store
        (runs I handler (init s') (before.filter (stays kept))).store)
    : Alike alike R kept (runs I handler (init s) actions)
        (runs I handler (init s') (actions.filter (stays kept))) := by
  have hboth : Screened alike U kept (runs I handler (init s) actions)
      ∧ Alike alike R kept (runs I handler (init s) actions)
        (runs I handler (init s') (actions.filter (stays kept))) := by
    induction actions using List.reverseRecOn with
    | nil => exact ⟨⟨nofun, nofun⟩, hs, fun _ _ => rfl, .nil⟩
    | append_singleton actions a ih =>
      have hprefix := ih (fun i q hmem => hremoved i q (List.mem_append_left _ hmem)) ?_
      . rcases hprefix with ⟨hscreened, h⟩
        rw [runs_concat, List.filter_append]
        constructor
        . apply hscreened.act hprogs
          rintro i q rfl hi
          exact hremoved i q (by simp) hi
        . cases ha : thread? a with
          | none =>
            cases a with
            | tick n =>
              rw [List.filter_cons_of_pos (by rfl), List.filter_nil, runs_concat]
              exact ⟨hI.advance n _ _ h.store, h.threads, h.log⟩
            | _ => contradiction
          | some i =>
            cases hi : kept i with
            | false =>
              rw [List.filter_cons_of_neg (by simp [stays_eq ha, hi]), List.filter_nil, List.append_nil]
              exact h.act_removed hI hscreened ha hi
            | true =>
              rw [List.filter_cons_of_pos ((stays_eq ha).trans hi), List.filter_nil, runs_concat]
              apply h.act_kept hI hscreened ha hi
              rintro d o rfl ho
              exact htells actions i d [] o rfl hi ho
      . intro before i d after o heq
        apply htells before i d (after ++ [a]) o
        rw [heq, List.append_assoc, List.cons_append]
  exact hboth.2

end Machine
end Interaction
