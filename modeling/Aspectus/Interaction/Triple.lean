import Aspectus.Interaction.Run

/-!
This module contains a program logic for programs that are run on their own: triples of a precondition, a
program and a postcondition, for the runs in which every operation meets some condition.
-/

namespace Interaction

variable {S : Signature} {σ δ α β : Type}

/--
An operation of a run, with what was drawn for it and its answer.
-/
structure Call (S : Signature) (δ : Type) where
  op : S.Op
  draw : δ
  res : S.Res op

namespace Prog

/--
The operations of a run, oldest first.
-/
def trace (I : Semantics S σ δ) : Prog S α → (Nat → δ) → σ → List (Call S δ)
  | .pure _, _, _ => []
  | .call o k, draws, s =>
    ⟨o, draws 0, (I.exec o (draws 0) s).1⟩
      :: trace I (k (I.exec o (draws 0) s).1) (fun n => draws (n + 1)) (I.exec o (draws 0) s).2

section Trace

variable {I : Semantics S σ δ}

theorem trace_bind (p : Prog S α) (f : α → Prog S β) (draws : Nat → δ) (s : σ) :
    trace I (p >>= f) draws s
      =
    trace I p draws s ++ trace I (f (run I p draws s).1) (run I p draws s).2.1 (run I p draws s).2.2 := by
  induction p generalizing draws s with
  | pure a => rfl
  | call o k ih =>
    simp only [call_bind, trace, run_call, List.cons_append]
    rw [ih]

theorem trace_perform_bind (o : S.Op) (f : S.Res o → Prog S β) (draws : Nat → δ) (s : σ) :
    trace I (perform o >>= f) draws s
      =
    ⟨o, draws 0, (I.exec o (draws 0) s).1⟩
      :: trace I (f (I.exec o (draws 0) s).1) (fun n => draws (n + 1)) (I.exec o (draws 0) s).2 := by
  rfl

theorem draw_of_trace (p : Prog S α) {draws : Nat → δ} {s : σ} {c : Call S δ} (h : c ∈ trace I p draws s) :
    ∃ n, c.draw = draws n := by
  induction p generalizing draws s with
  | pure a => exact absurd h List.not_mem_nil
  | call o k ih =>
    rcases List.mem_cons.mp h with rfl | h
    . exact ⟨0, rfl⟩
    . rcases ih _ h with ⟨n, hn⟩
      exact ⟨n + 1, hn⟩

end Trace

/--
Whenever `P` holds and every operation of the run meets `E`, the answer and the final store satisfy `Q`.
-/
def Triple (I : Semantics S σ δ) (E : Call S δ → Prop) (P : σ → Prop) (p : Prog S α)
    (Q : α → σ → Prop) : Prop :=
  ∀ draws s, (∀ c ∈ trace I p draws s, E c) → P s → Q (run I p draws s).1 (run I p draws s).2.2

section Rules

variable {I : Semantics S σ δ} {E : Call S δ → Prop} {P : σ → Prop}

theorem triple_pure {Q : α → σ → Prop} {a : α} (h : ∀ s, P s → Q a s) :
    Triple I E P (pure a : Prog S α) Q :=
  fun _ s _ hs => h s hs

/--
The rule of composition.
-/
theorem Triple.bind {M : α → σ → Prop} {Q : β → σ → Prop} {p : Prog S α} {f : α → Prog S β}
    (hp : Triple I E P p M) (hf : ∀ a, Triple I E (M a) (f a) Q) : Triple I E P (p >>= f) Q := by
  intro draws s htrace hs
  rw [trace_bind] at htrace
  rw [run_bind]
  rcases List.forall_mem_append.mp htrace with ⟨hfirst, hrest⟩
  exact hf _ _ _ hrest (hp draws s hfirst hs)

/--
The rule for a single operation.
-/
theorem triple_perform_bind {o : S.Op} {M : S.Res o → σ → Prop} {Q : β → σ → Prop}
    {f : S.Res o → Prog S β}
    (ho : ∀ d s, E ⟨o, d, (I.exec o d s).1⟩ → P s → M (I.exec o d s).1 (I.exec o d s).2)
    (hf : ∀ r, Triple I E (M r) (f r) Q) : Triple I E P (perform o >>= f) Q := by
  intro draws s htrace hs
  rw [trace_perform_bind] at htrace
  rw [run_perform_bind]
  rcases List.forall_mem_cons.mp htrace with ⟨hfirst, hrest⟩
  exact hf _ _ _ hrest (ho _ s hfirst hs)

theorem triple_perform {o : S.Op} {Q : S.Res o → σ → Prop}
    (ho : ∀ d s, E ⟨o, d, (I.exec o d s).1⟩ → P s → Q (I.exec o d s).1 (I.exec o d s).2) :
    Triple I E P (perform o) Q :=
  triple_perform_bind ho fun _ => triple_pure fun _ hs => hs

/--
The rule of consequence.
-/
theorem Triple.mono {P' : σ → Prop} {Q Q' : α → σ → Prop} {p : Prog S α} (h : Triple I E P p Q)
    (hP : ∀ s, P' s → P s) (hQ : ∀ a s, Q a s → Q' a s) : Triple I E P' p Q' :=
  fun draws s htrace hs => hQ _ _ (h draws s htrace (hP s hs))

/--
A precondition that does not depend on the store.
-/
theorem triple_of_imp {φ : Prop} {Q : α → σ → Prop} {p : Prog S α} (hφ : ∀ s, P s → φ)
    (h : φ → Triple I E P p Q) : Triple I E P p Q :=
  fun draws s htrace hs => h (hφ s hs) draws s htrace hs

/--
A program all of whose operations keep `P`.
-/
theorem Uses.triple {U : S.Op → Prop} {p : Prog S α} (hp : p.Uses U)
    (hstep : ∀ o d s, U o → P s → P (I.exec o d s).2) : Triple I E P p fun _ => P :=
  fun _ _ _ hs => hp.run_keeps hstep hs

end Rules

end Prog

/--
All operations of some requests that are served one after the other meet a condition.
-/
def AllCalls {Req Resp : Type} (I : Semantics S σ δ) (handler : Req → Prog S Resp)
    (E : Call S δ → Prop) : List (Visit Req δ) → σ → Prop
  | [], _ => True
  | v :: vs, s =>
    (∀ c ∈ Prog.trace I (handler v.request) v.draws s, E c)
      ∧ AllCalls I handler E vs (I.advance v.wait ((handler v.request).run I v.draws s).2.2)

end Interaction
