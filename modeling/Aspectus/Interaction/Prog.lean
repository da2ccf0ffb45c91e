import Mathlib.Tactic.Common

/-!
This module contains programs over a signature of atomic operations. A program only says which
operation comes next and how it goes on with the answer, what an operation does to a store is
given separately by a `Semantics`. Hence the same program can be run on its own or interleaved
with others.
-/

namespace Interaction

/--
The atomic operations of a system together with the answers they give.
-/
structure Signature where
  Op : Type
  Res : Op → Type

/--
A program that either is done or calls an operation and goes on with its answer.
-/
inductive Prog (S : Signature) (α : Type) where
  | pure (a : α)
  | call (o : S.Op) (k : S.Res o → Prog S α)

/--
One operation that was called, together with the answer it gave.
-/
structure Event (S : Signature) where
  op : S.Op
  res : S.Res op

namespace Prog

variable {S : Signature} {α β : Type}

def bind : Prog S α → (α → Prog S β) → Prog S β
  | .pure a, f => f a
  | .call o k, f => .call o (fun r => (k r).bind f)

instance : Monad (Prog S) where
  pure := Prog.pure
  bind := Prog.bind

/--
Call a single operation and return its answer.
-/
def perform (o : S.Op) : Prog S (S.Res o) :=
  .call o .pure

@[simp]
theorem pure_def (a : α) : (Pure.pure a : Prog S α) = .pure a := by
  rfl

@[simp]
theorem pure_bind (a : α) (f : α → Prog S β) : (Prog.pure a >>= f) = f a := by
  rfl

@[simp]
theorem call_bind (o : S.Op) (k : S.Res o → Prog S α) (f : α → Prog S β) :
    (Prog.call o k >>= f) = .call o (fun r => k r >>= f) := by
  rfl

@[simp]
theorem perform_bind (o : S.Op) (f : S.Res o → Prog S β) :
    (perform o >>= f) = .call o f := by
  rfl

/--
The discipline `p` keeps if it is entered after the events `h` (newest first): every operation it
calls is allowed by `guard` after the events so far, and what it returns is allowed by `post`.
-/
def Conforms (guard : List (Event S) → S.Op → Prop) (post : List (Event S) → α → Prop) :
    Prog S α → List (Event S) → Prop
  | .pure a, h => post h a
  | .call o k, h => guard h o ∧ ∀ r, Conforms guard post (k r) (⟨o, r⟩ :: h)

variable {guard guard' : List (Event S) → S.Op → Prop}

@[simp]
theorem conforms_pure {post : List (Event S) → α → Prop} (a : α) (h : List (Event S)) :
    Conforms guard post (.pure a) h ↔ post h a := by
  rfl

@[simp]
theorem conforms_call {post : List (Event S) → α → Prop} (o : S.Op) (k : S.Res o → Prog S α)
    (h : List (Event S)) :
    Conforms guard post (.call o k) h
      ↔
    guard h o ∧ ∀ r, Conforms guard post (k r) (⟨o, r⟩ :: h) := by
  rfl

/--
The rule of composition: the second program starts from wherever the first one may end.
-/
theorem conforms_bind {post : List (Event S) → β → Prop} (p : Prog S α) (f : α → Prog S β)
    (h : List (Event S)) :
    Conforms guard post (p >>= f) h
      ↔
    Conforms guard (fun h a => Conforms guard post (f a) h) p h := by
  induction p generalizing h with
  | pure a => rfl
  | call o k ih =>
    simp only [call_bind, conforms_call]
    simp only [ih]

/--
The rule of consequence. The guards only have to imply each other on the events that extend the
ones the program was entered with.
-/
theorem Conforms.mono {post post' : List (Event S) → α → Prop} {p : Prog S α}
    {h : List (Event S)} (hp : Conforms guard post p h)
    (hguard : ∀ new o, guard (new ++ h) o → guard' (new ++ h) o)
    (hpost : ∀ new a, post (new ++ h) a → post' (new ++ h) a)
    : Conforms guard' post' p h := by
  induction p generalizing h with
  | pure a => exact hpost [] a hp
  | call o k ih =>
    refine ⟨hguard [] o hp.1, fun r => ?_⟩
    apply ih r (hp.2 r)
    . intro new o' ho'
      have := hguard (new ++ [⟨o, r⟩]) o'
      simp only [List.append_assoc, List.singleton_append] at this
      exact this ho'
    . intro new a ha
      have := hpost (new ++ [⟨o, r⟩]) a
      simp only [List.append_assoc, List.singleton_append] at this
      exact this ha

theorem Conforms.and {post post' : List (Event S) → α → Prop} {p : Prog S α}
    {h : List (Event S)} (hp : Conforms guard post p h) (hp' : Conforms guard' post' p h)
    : Conforms (fun h o => guard h o ∧ guard' h o) (fun h a => post h a ∧ post' h a) p h := by
  induction p generalizing h with
  | pure a => exact ⟨hp, hp'⟩
  | call o k ih => exact ⟨⟨hp.1, hp'.1⟩, fun r => ih r (hp.2 r) (hp'.2 r)⟩

/--
The rule for a single operation.
-/
theorem conforms_perform_bind {post : List (Event S) → β → Prop} {o : S.Op}
    {f : S.Res o → Prog S β} {h : List (Event S)} (ho : guard h o)
    (hf : ∀ r, Conforms guard post (f r) (⟨o, r⟩ :: h)) : Conforms guard post (perform o >>= f) h :=
  ⟨ho, hf⟩

/--
The rule of composition, with a postcondition for the first program.
-/
theorem Conforms.bind {Q : List (Event S) → α → Prop} {post : List (Event S) → β → Prop}
    {p : Prog S α} {f : α → Prog S β} {h : List (Event S)} (hp : Conforms guard Q p h)
    (hf : ∀ new a, Q (new ++ h) a → Conforms guard post (f a) (new ++ h))
    : Conforms guard post (p >>= f) h :=
  (conforms_bind p f h).mpr (hp.mono (fun _ _ ho => ho) hf)

/--
A postcondition that holds however the events are extended holds after every program.
-/
theorem conforms_of_append {post : List (Event S) → α → Prop} (p : Prog S α) {h : List (Event S)}
    (hpost : ∀ new a, post (new ++ h) a) : Conforms (fun _ _ => True) post p h := by
  induction p generalizing h with
  | pure a => exact hpost [] a
  | call o k ih =>
    refine ⟨trivial, fun r => ih r ?_⟩
    intro new a
    have := hpost (new ++ [⟨o, r⟩]) a
    simp only [List.append_assoc, List.singleton_append] at this
    exact this

/--
Every operation the program may call satisfies `U`.
-/
def Uses (U : S.Op → Prop) : Prog S α → Prop
  | .pure _ => True
  | .call o k => U o ∧ ∀ r, Uses U (k r)

variable {U : S.Op → Prop}

theorem uses_pure (a : α) : (Prog.pure a : Prog S α).Uses U := by
  trivial

theorem uses_perform_bind {o : S.Op} {f : S.Res o → Prog S β} (ho : U o)
    (hf : ∀ r, (f r).Uses U) : (perform o >>= f).Uses U :=
  ⟨ho, hf⟩

theorem uses_of_forall (hU : ∀ o, U o) (p : Prog S α) : p.Uses U := by
  induction p with
  | pure a => trivial
  | call o k ih => exact ⟨hU o, ih⟩

theorem Uses.mono {U' : S.Op → Prop} {p : Prog S α} (hp : p.Uses U) (hU : ∀ o, U o → U' o) :
    p.Uses U' := by
  induction p with
  | pure a => trivial
  | call o k ih => exact ⟨hU o hp.1, fun r => ih r (hp.2 r)⟩

theorem Uses.bind {p : Prog S α} {f : α → Prog S β} (hp : p.Uses U) (hf : ∀ a, (f a).Uses U) :
    (p >>= f).Uses U := by
  induction p with
  | pure a => exact hf a
  | call o k ih => exact ⟨hp.1, fun r => ih r (hp.2 r)⟩

/--
The rule for a program whose operations are all of one kind: what follows it is entered with some
events of that kind added.
-/
theorem Uses.conforms_bind {post : List (Event S) → β → Prop} {p : Prog S α} {f : α → Prog S β}
    {h : List (Event S)} (hp : p.Uses U)
    (hguard : ∀ new o, (∀ ev ∈ new, U ev.op) → U o → guard (new ++ h) o)
    (hf : ∀ new a, (∀ ev ∈ new, U ev.op) → Conforms guard post (f a) (new ++ h))
    : Conforms guard post (p >>= f) h := by
  induction p generalizing h with
  | pure a => exact hf [] a (by simp)
  | call o k ih =>
    refine ⟨hguard [] o (by simp) hp.1, fun r => ?_⟩
    apply ih r (hp.2 r)
    . intro new o' hnew ho'
      have := hguard (new ++ [⟨o, r⟩]) o'
      simp only [List.append_assoc, List.singleton_append, List.forall_mem_append,
        List.forall_mem_singleton] at this
      exact this ⟨hnew, hp.1⟩ ho'
    . intro new a hnew
      have := hf (new ++ [⟨o, r⟩]) a
      simp only [List.append_assoc, List.singleton_append, List.forall_mem_append,
        List.forall_mem_singleton] at this
      exact this ⟨hnew, hp.1⟩

/--
A program that only calls operations that are always allowed conforms to every discipline whose
postcondition holds however the events are extended.
-/
theorem Uses.conforms {post : List (Event S) → α → Prop} {p : Prog S α} {h : List (Event S)}
    (hp : p.Uses U) (hguard : ∀ new o, U o → guard (new ++ h) o) (hpost : ∀ new a, post (new ++ h) a)
    : Conforms guard post p h := by
  induction p generalizing h with
  | pure a => exact hpost [] a
  | call o k ih =>
    refine ⟨hguard [] o hp.1, fun r => ih r (hp.2 r) ?_ ?_⟩
    . intro new o' ho'
      have := hguard (new ++ [⟨o, r⟩]) o' ho'
      simpa only [List.append_assoc, List.singleton_append] using this
    . intro new a
      have := hpost (new ++ [⟨o, r⟩]) a
      simpa only [List.append_assoc, List.singleton_append] using this

end Prog
end Interaction
