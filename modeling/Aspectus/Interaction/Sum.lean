import Aspectus.Interaction.Run

/-!
This module contains how systems are put together: the sum of two signatures, with the programs over one of
them as programs over the sum, and executions among the writes of somebody else.
-/

namespace Interaction

/--
An operation of either signature.
-/
inductive SumOp (S T : Signature) where
  | left (o : S.Op)
  | right (o : T.Op)

@[reducible]
def SumOp.Res {S T : Signature} : SumOp S T → Type
  | .left o => S.Res o
  | .right o => T.Res o

abbrev Signature.sum (S T : Signature) : Signature where
  Op := SumOp S T
  Res := SumOp.Res

variable {S T : Signature} {σ δ α β : Type}

/--
Both signatures work on the same store.
-/
def Semantics.sum (I : Semantics S σ δ) (J : (o : T.Op) → δ → σ → T.Res o × σ) :
    Semantics (S.sum T) σ δ where
  exec
    | .left o => I.exec o
    | .right o => J o
  advance := I.advance

def Event.left? : Event (S.sum T) → Option (Event S)
  | ⟨.left o, r⟩ => some ⟨o, r⟩
  | ⟨.right _, _⟩ => none

def leftEvents (h : List (Event (S.sum T))) : List (Event S) :=
  h.filterMap Event.left?

@[simp]
theorem leftEvents_nil : leftEvents ([] : List (Event (S.sum T))) = [] := by
  rfl

@[simp]
theorem leftEvents_left (o : S.Op) (r : S.Res o) (h : List (Event (S.sum T))) :
    leftEvents (⟨.left o, r⟩ :: h) = ⟨o, r⟩ :: leftEvents h := by
  rfl

@[simp]
theorem leftEvents_right (o : T.Op) (r : T.Res o) (h : List (Event (S.sum T))) :
    leftEvents (⟨.right o, r⟩ :: h) = leftEvents h := by
  rfl

theorem mem_leftEvents {o : S.Op} {r : S.Res o} {h : List (Event (S.sum T))} :
    ⟨o, r⟩ ∈ leftEvents h ↔ ⟨.left o, r⟩ ∈ h := by
  unfold leftEvents
  rw [List.mem_filterMap]
  constructor
  . rintro ⟨⟨o' | o', r'⟩, hmem, heq⟩
    . cases heq
      exact hmem
    . cases heq
  . intro hmem
    exact ⟨_, hmem, rfl⟩

/--
The semantics of the operations among the writes of somebody else, one of which comes before each operation.
-/
def Semantics.among {W : Type} (I : Semantics S σ δ) (write : W → σ → σ) : Semantics S σ (δ × W) where
  exec o d s := I.exec o d.1 (write d.2 s)
  advance := I.advance

namespace Prog

def left : Prog S α → Prog (S.sum T) α
  | .pure a => .pure a
  | .call o k => .call (.left o) fun r => left (k r)

/--
Call a single operation of the second signature.
-/
def right (o : T.Op) : Prog (S.sum T) (T.Res o) :=
  perform (S := S.sum T) (.right o)

/--
A program keeps its discipline in the sum, where it only calls operations of its own signature.
-/
theorem Conforms.left {guard : List (Event S) → S.Op → Prop} {post : List (Event S) → α → Prop}
    {p : Prog S α} {h : List (Event (S.sum T))} (hp : p.Conforms guard post (leftEvents h))
    : (Prog.left p).Conforms (fun h o => ∃ o', o = SumOp.left o' ∧ guard (leftEvents h) o')
        (fun h a => post (leftEvents h) a) h := by
  induction p generalizing h with
  | pure a => exact hp
  | call o k ih =>
    refine ⟨⟨o, rfl, hp.1⟩, fun r => ?_⟩
    apply ih
    exact hp.2 r

theorem Uses.left {U : S.Op → Prop} {p : Prog S α} (hp : p.Uses U) :
    (Prog.left p : Prog (S.sum T) α).Uses fun o => ∃ o', o = SumOp.left o' ∧ U o' := by
  induction p with
  | pure a => trivial
  | call o k ih => exact ⟨⟨o, rfl, hp.1⟩, fun r => ih r (hp.2 r)⟩

end Prog
end Interaction
