import Mathlib.Data.List.Induction
import Aspectus.Interaction.Machine

/-!
This module contains the execution of a single program on its own, without any other thread
running in between.
-/

namespace Interaction

variable {S : Signature} {σ δ α β : Type}

namespace Prog

variable (I : Semantics S σ δ)

/--
Run a program to its end. Every operation takes the next of the `draws`, the ones that are left are
returned together with the result and the final store.
-/
def run : Prog S α → (Nat → δ) → σ → α × (Nat → δ) × σ
  | .pure a, draws, s => (a, draws, s)
  | .call o k, draws, s =>
    run (k (I.exec o (draws 0) s).1) (fun n => draws (n + 1)) (I.exec o (draws 0) s).2

@[simp]
theorem run_pure (a : α) (draws : Nat → δ) (s : σ) : run I (.pure a) draws s = (a, draws, s) := by
  rfl

@[simp]
theorem run_call (o : S.Op) (k : S.Res o → Prog S α) (draws : Nat → δ) (s : σ) :
    run I (.call o k) draws s
      =
    run I (k (I.exec o (draws 0) s).1) (fun n => draws (n + 1)) (I.exec o (draws 0) s).2 := by
  rfl

theorem run_perform_bind (o : S.Op) (f : S.Res o → Prog S β) (draws : Nat → δ) (s : σ) :
    run I (perform o >>= f) draws s
      =
    run I (f (I.exec o (draws 0) s).1) (fun n => draws (n + 1)) (I.exec o (draws 0) s).2 := by
  rfl

theorem run_perform_bind_of {I : Semantics S σ δ} {o : S.Op} {f : S.Res o → Prog S β} {draws : Nat → δ}
    {s s' : σ} {r : S.Res o} (h : I.exec o (draws 0) s = (r, s'))
    : run I (perform o >>= f) draws s = run I (f r) (fun n => draws (n + 1)) s' := by
  rw [run_perform_bind, h]

theorem run_bind (p : Prog S α) (f : α → Prog S β) (draws : Nat → δ) (s : σ) :
    run I (p >>= f) draws s
      =
    run I (f (run I p draws s).1) (run I p draws s).2.1 (run I p draws s).2.2 := by
  induction p generalizing draws s with
  | pure a => rfl
  | call o k ih =>
    simp only [call_bind, run_call]
    rw [ih]

variable {I} {guard : List (Event S) → S.Op → Prop} {post : List (Event S) → α → Prop}

/--
What all operations of a program keep holds after its run.
-/
theorem Uses.run_keeps {U : S.Op → Prop} {P : σ → Prop} {p : Prog S α} (hp : p.Uses U)
    (hstep : ∀ o d s, U o → P s → P (I.exec o d s).2) {draws : Nat → δ} {s : σ} (hs : P s)
    : P (run I p draws s).2.2 := by
  induction p generalizing draws s with
  | pure a => exact hs
  | call o k ih => exact ih _ (hp.2 _) (hstep o (draws 0) s hp.1 hs)

/--
The rule for runs: what every operation the guard allows keeps, of the events and the store, holds at
the end of a conforming program, together with its postcondition.
-/
theorem run_inv {P : List (Event S) → σ → Prop} {p : Prog S α} {h : List (Event S)}
    (hp : p.Conforms guard post h) (draws : Nat → δ) {s : σ} (hs : P h s)
    (hstep : ∀ h o d s, guard h o → P h s → P (⟨o, (I.exec o d s).1⟩ :: h) (I.exec o d s).2)
    : ∃ h', post h' (run I p draws s).1 ∧ P h' (run I p draws s).2.2 := by
  induction p generalizing h draws s with
  | pure a => exact ⟨h, hp, hs⟩
  | call o k ih =>
    exact ih _ (hp.2 _) (fun n => draws (n + 1)) (hstep h o (draws 0) s hp.1 hs)

end Prog

/--
A request that is served on its own, with what is drawn for it and the time that passes after it.
-/
structure Visit (Req δ : Type) where
  request : Req
  draws : Nat → δ
  wait : Nat

/--
Serve some requests one after the other. Returns the responses and the final store.
-/
def serveAll {Req Resp : Type} (I : Semantics S σ δ) (handler : Req → Prog S Resp) :
    List (Visit Req δ) → σ → List Resp × σ
  | [], s => ([], s)
  | v :: vs, s =>
    let (a, _, s') := (handler v.request).run I v.draws s
    let (as, s'') := serveAll I handler vs (I.advance v.wait s')
    (a :: as, s'')

section ServeAll

variable {Req Resp : Type} {I : Semantics S σ δ} {handler : Req → Prog S Resp}

@[simp]
theorem serveAll_nil (s : σ) : serveAll I handler [] s = ([], s) := by
  rfl

theorem serveAll_cons (v : Visit Req δ) (vs : List (Visit Req δ)) (s : σ) :
    serveAll I handler (v :: vs) s
      =
    (((handler v.request).run I v.draws s).1
        :: (serveAll I handler vs (I.advance v.wait ((handler v.request).run I v.draws s).2.2)).1,
      (serveAll I handler vs (I.advance v.wait ((handler v.request).run I v.draws s).2.2)).2) := by
  rfl

/--
What every request and the passing of time keep holds after any number of requests.
-/
theorem serveAll_inv {P : σ → Prop}
    (hserve : ∀ (v : Visit Req δ) s, P s → P ((handler v.request).run I v.draws s).2.2)
    (hadvance : ∀ n s, P s → P (I.advance n s)) (vs : List (Visit Req δ)) {s : σ} (hs : P s)
    : P (serveAll I handler vs s).2 := by
  induction vs generalizing s with
  | nil => exact hs
  | cons v vs ih =>
    exact ih (hadvance _ _ (hserve v s hs))

theorem serveAll_append (vs vs' : List (Visit Req δ)) (s : σ) :
    (serveAll I handler (vs ++ vs') s).2 = (serveAll I handler vs' (serveAll I handler vs s).2).2 := by
  induction vs generalizing s with
  | nil => rfl
  | cons v vs ih =>
    simp only [List.cons_append, serveAll_cons]
    apply ih

/--
If serving a request keeps `P` exactly when a condition on the state before it is met, then `P` holds all the
time exactly when every request meets the condition.
-/
theorem serveAll_inv_iff {P : σ → Prop} {C : σ → Visit Req δ → Prop}
    (hserve : ∀ (v : Visit Req δ) s, P s →
      (P (I.advance v.wait ((handler v.request).run I v.draws s).2.2) ↔ C s v))
    {vs : List (Visit Req δ)} {s : σ} (hs : P s)
    : (∀ vs', vs' <+: vs → P (serveAll I handler vs' s).2)
        ↔
      ∀ vs' v, vs' ++ [v] <+: vs → C (serveAll I handler vs' s).2 v := by
  have hnext : ∀ vs' v, (serveAll I handler (vs' ++ [v]) s).2 = I.advance v.wait
      ((handler v.request).run I v.draws (serveAll I handler vs' s).2).2.2 := by
    intro vs' v
    rw [serveAll_append]
    rfl
  constructor
  . intro hall vs' v hv
    have hbefore := hall vs' ((List.prefix_append vs' [v]).trans hv)
    have hafter := hall _ hv
    rw [hnext] at hafter
    exact (hserve v _ hbefore).mp hafter
  . intro hcond vs'
    induction vs' using List.reverseRecOn with
    | nil => exact fun _ => hs
    | append_singleton vs' v ih =>
      intro hv
      have hbefore := ih ((List.prefix_append vs' [v]).trans hv)
      rw [hnext]
      exact (hserve v _ hbefore).mpr (hcond vs' v hv)

end ServeAll

end Interaction
