import Mathlib.Data.List.Induction
import Aspectus.Interaction.Machine

/-!
This module contains programs that run a transaction while others run on the same store. The writes of the
transaction are not seen by the others before it commits, and operations that need something it has locked wait
until it ends.
-/

namespace Interaction

variable {S T : Signature} {σ δ φ ω Req Resp Ans : Type}

/--
The operations of a program with a transaction: its statements, its commit, and operations outside of it.
-/
inductive TxOp (S T : Signature) where
  | statement (o : T.Op)
  | commit
  | outside (o : S.Op)

@[reducible]
def TxOp.Res : TxOp S T → Type
  | .statement o => T.Res o
  | .commit => Except String Unit
  | .outside o => S.Res o

@[reducible]
def Signature.tx (S T : Signature) : Signature where
  Op := TxOp S T
  Res := TxOp.Res

/--
A program that runs outside of the transaction.
-/
def Prog.outside {α : Type} : Prog S α → Prog (S.tx T) α
  | .pure a => .pure a
  | .call o k => .call (.outside o) fun r => (k r).outside

/--
How a commit ends. If its answer is lost, then it was carried out although it is answered with an error.
-/
inductive CommitResult where
  | done
  | lost (e : String)
  | failed (e : String)

/--
What statements do in a transaction with the writes `ω` so far, in a store that others may have changed since it
began. Failures are drawn from `φ`.
-/
structure Transactional (S T : Signature) (σ φ ω : Type) where
  empty : ω
  exec : (o : T.Op) → φ → σ → ω → T.Res o × ω
  commit : φ → ω → CommitResult
  apply : ω → σ → σ
  waits : S.Op → σ → ω → Bool

/--
A program with a transaction among other threads. The `actions` are those of the others so far, the newest event
of the program comes first.
-/
structure TxMachine (S T : Signature) (σ δ ω Req Resp Ans : Type) where
  others : Machine S σ δ Req Resp
  actions : List (Action δ Req)
  rest : Option (Prog (S.tx T) Ans)
  answer : Option Ans
  writes : ω
  committed : Bool
  events : List (Event (S.tx T))

inductive TxAction (δ φ Req : Type) where
  | other (a : Action δ Req)
  | step (d : δ) (f : φ)

namespace TxMachine

variable (I : Semantics S σ δ) (X : Transactional S T σ φ ω) (handler : Req → Prog S Resp)

def init (p : Prog (S.tx T) Ans) (s : σ) : TxMachine S T σ δ ω Req Resp Ans where
  others := Machine.init s
  actions := []
  rest := some p
  answer := none
  writes := X.empty
  committed := false
  events := []

/--
The action is a step of a thread whose next operation waits for the end of the transaction.
-/
def blocked (t : TxMachine S T σ δ ω Req Resp Ans) : Action δ Req → Bool
  | .step i _ =>
    match t.others.threads i with
    | some ⟨_, some (.call o _)⟩ => X.waits o t.others.store t.writes
    | _ => false
  | _ => false

/--
What is left of the program after an operation, and the operation itself is recorded.
-/
def goOn (t : TxMachine S T σ δ ω Req Resp Ans) (o : TxOp S T) (r : o.Res) (k : o.Res → Prog (S.tx T) Ans) :
    TxMachine S T σ δ ω Req Resp Ans :=
  { t with
    rest := some (k r)
    events := ⟨o, r⟩ :: t.events }

/--
The commit is answered with `r`, and the writes are in the store.
-/
def carryOut (t : TxMachine S T σ δ ω Req Resp Ans) (r : Except String Unit)
    (k : Except String Unit → Prog (S.tx T) Ans) : TxMachine S T σ δ ω Req Resp Ans :=
  { t.goOn .commit r k with
    others := { t.others with store := X.apply t.writes t.others.store }
    writes := X.empty
    committed := true }

/--
Perform an action. A transaction that has not committed is rolled back when its program ends.
-/
def act (t : TxMachine S T σ δ ω Req Resp Ans) : TxAction δ φ Req → TxMachine S T σ δ ω Req Resp Ans
  | .other a =>
    if t.blocked X a then
      t
    else
      { t with
        others := t.others.act I handler a
        actions := t.actions ++ [a] }
  | .step d f =>
    match t.rest with
    | none => t
    | some (.pure a) =>
      { t with
        rest := none
        answer := some a
        writes := X.empty }
    | some (.call (.statement o) k) =>
      { t.goOn (.statement o) (X.exec o f t.others.store t.writes).1 k with
        writes := (X.exec o f t.others.store t.writes).2 }
    | some (.call .commit k) =>
      match X.commit f t.writes with
      | .done => t.carryOut X (.ok ()) k
      | .lost e => t.carryOut X (.error e) k
      | .failed e =>
        { t.goOn .commit (.error e) k with
          writes := X.empty }
    | some (.call (.outside o) k) =>
      { t.goOn (.outside o) (I.exec o d t.others.store).1 k with
        others := { t.others with store := (I.exec o d t.others.store).2 } }

/--
`t'` can be reached from `t` by some interleaving.
-/
inductive Reaches (t : TxMachine S T σ δ ω Req Resp Ans) : TxMachine S T σ δ ω Req Resp Ans → Prop where
  | refl : Reaches t t
  | act {t'} (h : Reaches t t') (a : TxAction δ φ Req) : Reaches t (act I X handler t' a)

def runs (t : TxMachine S T σ δ ω Req Resp Ans) (actions : List (TxAction δ φ Req)) :
    TxMachine S T σ δ ω Req Resp Ans :=
  actions.foldl (act I X handler) t

/--
The possible shapes of a change.
-/
inductive Change (t : TxMachine S T σ δ ω Req Resp Ans) : TxMachine S T σ δ ω Req Resp Ans → Prop where
  | none : Change t t
  | other (a : Action δ Req) (hfree : t.blocked X a = false) :
    Change t { t with others := t.others.act I handler a, actions := t.actions ++ [a] }
  | answer (a : Ans) (hrest : t.rest = some (.pure a)) :
    Change t { t with rest := .none, answer := some a, writes := X.empty }
  | statement (f : φ) (o : T.Op) (k : T.Res o → Prog (S.tx T) Ans)
    (hrest : t.rest = some (.call (.statement o) k)) :
    Change t { t.goOn (.statement o) (X.exec o f t.others.store t.writes).1 k with
      writes := (X.exec o f t.others.store t.writes).2 }
  | commit (r : Except String Unit) (k : Except String Unit → Prog (S.tx T) Ans)
    (hrest : t.rest = some (.call .commit k)) : Change t (t.carryOut X r k)
  | fail (e : String) (k : Except String Unit → Prog (S.tx T) Ans)
    (hrest : t.rest = some (.call .commit k)) :
    Change t { t.goOn .commit (.error e) k with writes := X.empty }
  | outside (d : δ) (o : S.Op) (k : S.Res o → Prog (S.tx T) Ans)
    (hrest : t.rest = some (.call (.outside o) k)) :
    Change t { t.goOn (.outside o) (I.exec o d t.others.store).1 k with
      others := { t.others with store := (I.exec o d t.others.store).2 } }

theorem act_change (t : TxMachine S T σ δ ω Req Resp Ans) (a : TxAction δ φ Req) :
    Change I X handler t (act I X handler t a) := by
  cases a with
  | other a =>
    unfold act
    dsimp only
    split
    . exact .none
    . next hfree => exact .other a (Bool.eq_false_iff.mpr hfree)
  | step d f =>
    unfold act
    dsimp only
    split
    . exact .none
    . next a hrest => exact .answer a hrest
    . next o k hrest => exact .statement f o k hrest
    . next k hrest =>
      split
      . exact .commit (.ok ()) k hrest
      . next e _ => exact .commit (.error e) k hrest
      . next e _ => exact .fail e k hrest
    . next o k hrest => exact .outside d o k hrest

variable {I X handler}

theorem reaches_runs (t : TxMachine S T σ δ ω Req Resp Ans) (actions : List (TxAction δ φ Req)) :
    Reaches I X handler t (runs I X handler t actions) := by
  induction actions using List.reverseRecOn with
  | nil => exact .refl
  | append_singleton actions a ih =>
    unfold runs at ih ⊢
    rw [List.foldl_append]
    exact .act ih a

/--
The induction rule, one case for each shape of a change.
-/
theorem Reaches.inv {P : TxMachine S T σ δ ω Req Resp Ans → Prop} {t t' : TxMachine S T σ δ ω Req Resp Ans}
    (h : Reaches I X handler t t') (ht : P t)
    (hchange : ∀ t' t'', Reaches I X handler t t' → P t' → Change I X handler t' t'' → P t'')
    : P t' := by
  induction h with
  | refl => exact ht
  | act h a ih => exact hchange _ _ h ih (act_change I X handler _ a)

section Others

variable {t : TxMachine S T σ δ ω Req Resp Ans} {a : Action δ Req} {U : S.Op → Prop}

/--
An action of the others that is not blocked executes at most one operation, which does not wait.
-/
theorem other_store (hfree : t.blocked X a = false) :
    (t.others.act I handler a).store = t.others.store
      ∨ (∃ n, (t.others.act I handler a).store = I.advance n t.others.store)
      ∨ ∃ i q o k d, t.others.threads i = some ⟨q, some (.call o k)⟩
        ∧ X.waits o t.others.store t.writes = false
        ∧ (t.others.act I handler a).store = (I.exec o d t.others.store).2 := by
  cases a with
  | tick n => exact .inr (.inl ⟨n, rfl⟩)
  | start i q =>
    refine .inl ?_
    unfold Machine.act
    dsimp only
    split
    . rfl
    . rfl
  | step i d =>
    unfold blocked at hfree
    unfold Machine.act
    dsimp only at hfree ⊢
    split
    . next q o k hrun =>
      rw [hrun] at hfree
      exact .inr (.inr ⟨i, q, o, k, d, hrun, hfree, rfl⟩)
    . exact .inl rfl
    . exact .inl rfl

/--
Everything the others have left to do is of the kind their handlers use.
-/
theorem Reaches.uses (hU : ∀ q, (handler q).Uses U) {p : Prog (S.tx T) Ans} {s : σ}
    (h : Reaches I X handler (init X p s) t)
    : ∀ i q p', t.others.threads i = some ⟨q, some p'⟩ → p'.Uses U := by
  refine h.inv (P := fun t => ∀ i q p', t.others.threads i = some ⟨q, some p'⟩ → p'.Uses U) nofun ?_
  intro t t' _ ih hchange
  cases hchange with
  | other a hfree =>
    dsimp only
    have hact := Machine.act_change I handler t.others a
    revert hact
    generalize t.others.act I handler a = m'
    intro hact i q p' hp'
    cases hact with
    | none => exact ih i q p' hp'
    | tick n => exact ih i q p' hp'
    | start j q' hfree =>
      by_cases hj : i = j
      . subst hj
        simp only [Function.update_self, Option.some.injEq, Thread.mk.injEq] at hp'
        rcases hp' with ⟨_, rfl⟩
        exact hU q'
      . simp only [Function.update_of_ne hj] at hp'
        exact ih i q p' hp'
    | call j d q' o k hrun =>
      by_cases hj : i = j
      . subst hj
        simp only [Function.update_self, Option.some.injEq, Thread.mk.injEq] at hp'
        rcases hp' with ⟨_, rfl⟩
        exact (ih i _ _ hrun).2 _
      . simp only [Function.update_of_ne hj] at hp'
        exact ih i q p' hp'
    | finish j q' a hrun =>
      by_cases hj : i = j
      . subst hj
        simp at hp'
      . simp only [Function.update_of_ne hj] at hp'
        exact ih i q p' hp'
  | _ => exact ih

end Others

section Conforms

variable {guard : List (Event (S.tx T)) → TxOp S T → Prop} {post : List (Event (S.tx T)) → Ans → Prop}
  {p : Prog (S.tx T) Ans} {s : σ} {t : TxMachine S T σ δ ω Req Resp Ans}

/--
What holds of a machine whose program keeps a discipline.
-/
structure Kept (guard : List (Event (S.tx T)) → TxOp S T → Prop) (post : List (Event (S.tx T)) → Ans → Prop)
    (t : TxMachine S T σ δ ω Req Resp Ans) : Prop where
  rest : ∀ p, t.rest = some p → p.Conforms guard post t.events ∧ t.answer = none
  answer : ∀ a, t.answer = some a → post t.events a
  /-- A commit that is answered with success was carried out. -/
  done : (⟨.commit, .ok ()⟩ : Event (S.tx T)) ∈ t.events → t.committed = true
  /-- A commit that was carried out was answered. -/
  committed : t.committed = true → ∃ r, (⟨.commit, r⟩ : Event (S.tx T)) ∈ t.events

/--
What is left of the program after an operation that the discipline allows keeps it.
-/
theorem Kept.goOn {o : TxOp S T} {k : o.Res → Prog (S.tx T) Ans} (h : Kept guard post t)
    (hrest : t.rest = some (.call o k)) (r : o.Res) {others : Machine S σ δ Req Resp} {writes : ω}
    {committed : Bool} (hdone : (⟨.commit, .ok ()⟩ : Event (S.tx T)) ∈ ⟨o, r⟩ :: t.events → committed = true)
    (hcommitted : committed = true → ∃ r', (⟨.commit, r'⟩ : Event (S.tx T)) ∈ ⟨o, r⟩ :: t.events)
    : Kept guard post { t.goOn o r k with others := others, writes := writes, committed := committed } := by
  rcases h.rest _ hrest with ⟨hconforms, hnone⟩
  refine ⟨?_, ?_, hdone, hcommitted⟩
  . rintro _ ⟨⟩
    exact ⟨hconforms.2 r, hnone⟩
  . intro a ha
    rw [show t.answer = some a from ha] at hnone
    contradiction

/--
The same, for an operation that does not commit.
-/
theorem Kept.goOn_open {o : TxOp S T} {k : o.Res → Prog (S.tx T) Ans} (h : Kept guard post t)
    (hrest : t.rest = some (.call o k)) (r : o.Res)
    (hopen : (⟨o, r⟩ : Event (S.tx T)) ≠ ⟨.commit, .ok ()⟩) {others : Machine S σ δ Req Resp} {writes : ω}
    : Kept guard post { t.goOn o r k with others := others, writes := writes } := by
  refine h.goOn hrest r ?_ ?_
  . intro hmem
    exact h.done (List.mem_of_ne_of_mem hopen.symm hmem)
  . intro hcommitted
    rcases h.committed hcommitted with ⟨r', hmem⟩
    exact ⟨r', List.mem_cons_of_mem _ hmem⟩

/--
The discipline of the program is kept in every state of every execution.
-/
theorem Reaches.kept (hp : p.Conforms guard post []) (h : Reaches I X handler (init X p s) t) :
    Kept guard post t := by
  refine h.inv (P := Kept guard post) ⟨?_, nofun, nofun, nofun⟩ ?_
  . rintro _ ⟨⟩
    exact ⟨hp, rfl⟩
  . intro t t' _ ih hchange
    cases hchange with
    | none => exact ih
    | other a hfree => exact ⟨ih.rest, ih.answer, ih.done, ih.committed⟩
    | answer a hrest =>
      refine ⟨nofun, ?_, ih.done, ih.committed⟩
      rintro _ ⟨⟩
      exact (ih.rest _ hrest).1
    | statement f o k hrest => exact ih.goOn_open hrest _ nofun
    | commit r k hrest => exact ih.goOn hrest r (fun _ => rfl) fun _ => ⟨r, List.mem_cons_self⟩
    | fail e k hrest => exact ih.goOn_open hrest (.error e) nofun
    | outside d o k hrest => exact ih.goOn_open hrest _ nofun

/--
As long as a transaction has not committed the others have done what they do on their own, if its program does
nothing outside of it before.
-/
theorem Reaches.alone (hp : p.Conforms guard post [])
    (hguard : ∀ h o, guard h (.outside o) → (⟨.commit, .ok ()⟩ : Event (S.tx T)) ∈ h)
    (h : Reaches I X handler (init X p s) t)
    : t.committed = false → t.others = (Machine.init s).runs I handler t.actions := by
  refine h.inv (P := fun t => t.committed = false → t.others = (Machine.init s).runs I handler t.actions)
    (fun _ => rfl) ?_
  intro t t' ht ih hchange
  cases hchange with
  | none => exact ih
  | other a hfree =>
    intro hcommitted
    dsimp only
    rw [ih hcommitted]
    unfold Machine.runs
    rw [List.foldl_append]
    rfl
  | answer a hrest => exact ih
  | statement f o k hrest => exact ih
  | commit r k hrest => nofun
  | fail e k hrest => exact ih
  | outside d o k hrest =>
    intro hcommitted
    change t.committed = false at hcommitted
    have hdone := hguard _ _ ((ht.kept hp).rest _ hrest).1.1
    rw [(ht.kept hp).done hdone] at hcommitted
    contradiction

end Conforms

end TxMachine
end Interaction
