import Aspectus.Interaction.Prog
import Mathlib.Logic.Function.Basic

/-!
This module contains the interleaved execution of programs on a shared store. Threads are started
with a request, each step of a thread executes one atomic operation, and time may pass between any
two steps. Everything that happens is recorded in a log, together with the store it happened in.
-/

namespace Interaction

/--
What the operations of a signature do to a store `σ`. Everything that an operation does not
determine on its own, such as random values or failures, is drawn from `δ`.
-/
structure Semantics (S : Signature) (σ δ : Type) where
  exec : (o : S.Op) → δ → σ → S.Res o × σ
  advance : Nat → σ → σ

variable {S : Signature} {σ δ Req Resp : Type}

/--
A request that is being served, `rest` is `none` once it has been answered.
-/
structure Thread (S : Signature) (Req Resp : Type) where
  request : Req
  rest : Option (Prog S Resp)

inductive Happening (S : Signature) (δ Req Resp : Type) where
  | start (q : Req)
  | call (ev : Event S) (d : δ)
  | finish (a : Resp)

/--
One entry of the log: what happened in which thread, and the store right before that.
-/
structure Entry (S : Signature) (σ δ Req Resp : Type) where
  thread : Nat
  pre : σ
  what : Happening S δ Req Resp

/--
The state of an interleaved execution, the newest entry of the log comes first.
-/
structure Machine (S : Signature) (σ δ Req Resp : Type) where
  store : σ
  threads : Nat → Option (Thread S Req Resp)
  log : List (Entry S σ δ Req Resp)

inductive Action (δ Req : Type) where
  | start (i : Nat) (q : Req)
  | step (i : Nat) (d : δ)
  | tick (n : Nat)

namespace Entry

/--
The store right after an entry.
-/
def post (I : Semantics S σ δ) (e : Entry S σ δ Req Resp) : σ :=
  match e.what with
  | .call ev d => (I.exec ev.op d e.pre).2
  | _ => e.pre

/--
An entry either leaves the store as it is or executes an operation.
-/
theorem post_cases (I : Semantics S σ δ) (e : Entry S σ δ Req Resp) :
    e.post I = e.pre ∨ ∃ ev d, e.what = .call ev d ∧ e.post I = (I.exec ev.op d e.pre).2 := by
  unfold post
  split
  . next ev d hw => exact .inr ⟨ev, d, hw, rfl⟩
  . exact .inl rfl

def event? (e : Entry S σ δ Req Resp) : Option (Event S) :=
  match e.what with
  | .call ev _ => some ev
  | _ => none

end Entry

/--
The operations thread `i` has called according to `log`, newest first.
-/
def eventsOf (i : Nat) (log : List (Entry S σ δ Req Resp)) : List (Event S) :=
  log.filterMap fun e => if e.thread = i then e.event? else none

/--
Thread `i` serves the request `q` according to `log`.
-/
def Started (log : List (Entry S σ δ Req Resp)) (i : Nat) (q : Req) : Prop :=
  ∃ e ∈ log, e.thread = i ∧ e.what = .start q

theorem mem_eventsOf {i : Nat} {log : List (Entry S σ δ Req Resp)} {ev : Event S} :
    ev ∈ eventsOf i log ↔ ∃ e ∈ log, e.thread = i ∧ ∃ d, e.what = .call ev d := by
  unfold eventsOf
  simp only [List.mem_filterMap]
  constructor
  . rintro ⟨e, he, hev⟩
    split at hev
    . next hi =>
      unfold Entry.event? at hev
      split at hev
      . next ev' d hw =>
        injection hev with hev
        subst hev
        exact ⟨e, he, hi, d, hw⟩
      . contradiction
    . contradiction
  . rintro ⟨e, he, hi, d, hw⟩
    refine ⟨e, he, ?_⟩
    simp [hi, Entry.event?, hw]

theorem eventsOf_cons_ne {i : Nat} {e : Entry S σ δ Req Resp} {log : List (Entry S σ δ Req Resp)}
    (h : e.thread ≠ i) : eventsOf i (e :: log) = eventsOf i log := by
  simp [eventsOf, h]

theorem eventsOf_cons_call {e : Entry S σ δ Req Resp} {log : List (Entry S σ δ Req Resp)}
    {ev : Event S} {d : δ} (h : e.what = .call ev d) :
    eventsOf e.thread (e :: log) = ev :: eventsOf e.thread log := by
  simp [eventsOf, Entry.event?, h]

theorem eventsOf_cons_silent {i : Nat} {e : Entry S σ δ Req Resp}
    {log : List (Entry S σ δ Req Resp)} (h : e.event? = none) :
    eventsOf i (e :: log) = eventsOf i log := by
  simp [eventsOf, h]

theorem Started.cons {log : List (Entry S σ δ Req Resp)} {i : Nat} {q : Req}
    (h : Started log i q) (e : Entry S σ δ Req Resp) : Started (e :: log) i q := by
  rcases h with ⟨e', he', h⟩
  exact ⟨e', List.mem_cons_of_mem _ he', h⟩

theorem Started.of_suffix {log rest : List (Entry S σ δ Req Resp)} {i : Nat} {q : Req}
    (h : Started rest i q) (hsuffix : rest <:+ log) : Started log i q := by
  rcases h with ⟨e, he, h⟩
  exact ⟨e, hsuffix.mem he, h⟩

namespace Machine

def init (s : σ) : Machine S σ δ Req Resp :=
  { store := s, threads := fun _ => none, log := [] }

variable (I : Semantics S σ δ) (handler : Req → Prog S Resp)

/--
Perform an action. Actions that are not possible in `m` leave it as it is.
-/
def act (m : Machine S σ δ Req Resp) : Action δ Req → Machine S σ δ Req Resp
  | .tick n => { m with store := I.advance n m.store }
  | .start i q =>
    match m.threads i with
    | some _ => m
    | none =>
      { m with
        threads := Function.update m.threads i (some ⟨q, some (handler q)⟩)
        log := ⟨i, m.store, .start q⟩ :: m.log }
  | .step i d =>
    match m.threads i with
    | some ⟨q, some (.call o k)⟩ =>
      { store := (I.exec o d m.store).2
        threads := Function.update m.threads i (some ⟨q, some (k (I.exec o d m.store).1)⟩)
        log := ⟨i, m.store, .call ⟨o, (I.exec o d m.store).1⟩ d⟩ :: m.log }
    | some ⟨q, some (.pure a)⟩ =>
      { m with
        threads := Function.update m.threads i (some ⟨q, none⟩)
        log := ⟨i, m.store, .finish a⟩ :: m.log }
    | _ => m

def runs (m : Machine S σ δ Req Resp) (actions : List (Action δ Req)) : Machine S σ δ Req Resp :=
  actions.foldl (act I handler) m

/--
`m'` can be reached from `m` by some interleaving.
-/
inductive Reaches (m : Machine S σ δ Req Resp) : Machine S σ δ Req Resp → Prop where
  | refl : Reaches m m
  | act {m'} (h : Reaches m m') (a : Action δ Req) : Reaches m (act I handler m' a)

/--
The possible shapes of a change: time passed, a thread was started, a thread executed an operation,
or a thread was answered.
-/
inductive Change (m : Machine S σ δ Req Resp) : Machine S σ δ Req Resp → Prop where
  | none : Change m m
  | tick (n : Nat) : Change m { m with store := I.advance n m.store }
  | start (i : Nat) (q : Req) (hfree : m.threads i = .none) :
    Change m
      { m with
        threads := Function.update m.threads i (some ⟨q, some (handler q)⟩)
        log := ⟨i, m.store, .start q⟩ :: m.log }
  | call (i : Nat) (d : δ) (q : Req) (o : S.Op) (k : S.Res o → Prog S Resp)
    (hrun : m.threads i = some ⟨q, some (.call o k)⟩) :
    Change m
      { store := (I.exec o d m.store).2
        threads := Function.update m.threads i (some ⟨q, some (k (I.exec o d m.store).1)⟩)
        log := ⟨i, m.store, .call ⟨o, (I.exec o d m.store).1⟩ d⟩ :: m.log }
  | finish (i : Nat) (q : Req) (a : Resp) (hrun : m.threads i = some ⟨q, some (.pure a)⟩) :
    Change m
      { m with
        threads := Function.update m.threads i (some ⟨q, .none⟩)
        log := ⟨i, m.store, .finish a⟩ :: m.log }

theorem act_change (m : Machine S σ δ Req Resp) (a : Action δ Req) :
    Change I handler m (act I handler m a) := by
  cases a with
  | tick n => exact .tick n
  | start i q =>
    unfold act
    dsimp
    split
    . exact .none
    . next hfree => exact .start i q hfree
  | step i d =>
    unfold act
    dsimp
    split
    . next q o k hrun => exact .call i d q o k hrun
    . next q a hrun => exact .finish i q a hrun
    . exact .none

variable {I handler}

theorem Reaches.trans {m m' m'' : Machine S σ δ Req Resp} (h : Reaches I handler m m')
    (h' : Reaches I handler m' m'') : Reaches I handler m m'' := by
  induction h' with
  | refl => exact h
  | act _ a ih => exact .act ih a

theorem reaches_runs (m : Machine S σ δ Req Resp) (actions : List (Action δ Req)) :
    Reaches I handler m (runs I handler m actions) := by
  induction actions generalizing m with
  | nil => exact .refl
  | cons a actions ih => exact .trans (.act .refl a) (ih _)

/--
The induction rule for executions, one case for each shape of a change.
-/
theorem Reaches.inv {P : Machine S σ δ Req Resp → Prop} {m m' : Machine S σ δ Req Resp}
    (h : Reaches I handler m m') (hm : P m)
    (hchange : ∀ m' m'', Reaches I handler m m' → P m' → Change I handler m' m'' → P m'')
    : P m' := by
  induction h with
  | refl => exact hm
  | act h a ih => exact hchange _ _ h ih (act_change I handler _ a)

/--
A preorder on stores that operations and the passing of time respect.
-/
structure Evolution (I : Semantics S σ δ) (R : σ → σ → Prop) : Prop where
  refl : ∀ s, R s s
  trans : ∀ {s s' s''}, R s s' → R s' s'' → R s s''
  exec : ∀ o d s, R s (I.exec o d s).2
  advance : ∀ n s, R s (I.advance n s)

theorem Evolution.post {R : σ → σ → Prop} (hR : Evolution I R) (e : Entry S σ δ Req Resp) :
    R e.pre (e.post I) := by
  unfold Entry.post
  split
  . apply hR.exec
  . apply hR.refl

theorem Evolution.store {R : σ → σ → Prop} (hR : Evolution I R) {m m' : Machine S σ δ Req Resp}
    (h : Reaches I handler m m') : R m.store m'.store := by
  refine h.inv (P := fun m' => R m.store m'.store) (hR.refl _) ?_
  intro m' m'' _ ih hchange
  cases hchange with
  | none => exact ih
  | tick n => exact hR.trans ih (hR.advance n _)
  | start i q hfree => exact ih
  | call i d q o k hrun => exact hR.trans ih (hR.exec o d _)
  | finish i q a hrun => exact ih

/--
A change adds at most one entry to the log, which records the stores around it.
-/
theorem Change.log {m m' : Machine S σ δ Req Resp} (h : Change I handler m m') :
    m'.log = m.log ∨ ∃ e, m'.log = e :: m.log ∧ m.store = e.pre ∧ m'.store = e.post I := by
  cases h with
  | none => exact .inl rfl
  | tick n => exact .inl rfl
  | start i q hfree => exact .inr ⟨_, rfl, rfl, rfl⟩
  | call i d q o k hrun => exact .inr ⟨_, rfl, rfl, rfl⟩
  | finish i q a hrun => exact .inr ⟨_, rfl, rfl, rfl⟩

theorem Reaches.suffix {m m' : Machine S σ δ Req Resp} (h : Reaches I handler m m') :
    m.log <:+ m'.log := by
  refine h.inv (P := fun m' => m.log <:+ m'.log) (List.suffix_refl _) ?_
  intro m' m'' _ ih hchange
  rcases hchange.log with hlog | ⟨e, hlog, _⟩
  . rw [hlog]
    exact ih
  . rw [hlog]
    exact ih.trans (List.suffix_cons _ _)

/--
A thread that can be started starts in the store that it finds.
-/
theorem runs_start {m : Machine S σ δ Req Resp} {i : Nat} (hfree : m.threads i = none) (q : Req)
    (actions : List (Action δ Req))
    : ⟨i, m.store, .start q⟩ :: m.log <:+ (runs I handler m (.start i q :: actions)).log := by
  have hlog : (act I handler m (.start i q)).log = ⟨i, m.store, .start q⟩ :: m.log := by
    unfold act
    dsimp only
    rw [hfree]
  rw [← hlog]
  exact (reaches_runs _ _).suffix

/--
Every entry of the log was made by a step between two machines of the execution. Invariants of
machines thereby also speak about every earlier point of an execution.
-/
theorem Reaches.split {s : σ} {m : Machine S σ δ Req Resp} (h : Reaches I handler (init s) m)
    {e : Entry S σ δ Req Resp} {rest : List (Entry S σ δ Req Resp)} (he : e :: rest <:+ m.log)
    : ∃ m₁ m₂, Reaches I handler (init s) m₁ ∧ m₁.log = rest ∧ m₁.store = e.pre
      ∧ Change I handler m₁ m₂ ∧ m₂.log = e :: rest ∧ m₂.store = e.post I
      ∧ Reaches I handler (init s) m₂ ∧ Reaches I handler m₂ m := by
  induction h with
  | refl => simp [init] at he
  | @act m' h a ih =>
    have hact : Reaches I handler (init s) (Machine.act I handler m' a) := .act h a
    have hchange := act_change I handler m' a
    rcases hchange.log with hlog | ⟨e', hlog, hpre, hpost⟩
    . rw [hlog] at he
      rcases ih he with ⟨m₁, m₂, h1, h2, h3, h4, h5, h6, h7, h8⟩
      exact ⟨m₁, m₂, h1, h2, h3, h4, h5, h6, h7, .act h8 a⟩
    . rw [hlog] at he
      rcases List.suffix_cons_iff.mp he with heq | he
      . injection heq with h1 h2
        subst h1 h2
        exact ⟨m', _, h, rfl, hpre, hchange, hlog, hpost, hact, .refl⟩
      . rcases ih he with ⟨m₁, m₂, h1, h2, h3, h4, h5, h6, h7, h8⟩
        exact ⟨m₁, m₂, h1, h2, h3, h4, h5, h6, h7, .act h8 a⟩

theorem Evolution.log {R : σ → σ → Prop} (hR : Evolution I R) {s : σ}
    {m : Machine S σ δ Req Resp} (h : Reaches I handler (init s) m) {e : Entry S σ δ Req Resp}
    (he : e ∈ m.log) : R s e.pre ∧ R (e.post I) m.store := by
  rcases List.mem_iff_append.mp he with ⟨newer, rest, hlog⟩
  have hsuffix : e :: rest <:+ m.log := ⟨newer, hlog.symm⟩
  rcases h.split hsuffix with ⟨m₁, m₂, h1, _, h3, _, _, h6, _, h8⟩
  constructor
  . rw [← h3]
    exact hR.store h1
  . rw [← h6]
    exact hR.store h8

/--
Stores only evolve from one entry of the log to a newer one.
-/
theorem Evolution.between {R : σ → σ → Prop} (hR : Evolution I R) {s : σ}
    {m : Machine S σ δ Req Resp} (h : Reaches I handler (init s) m)
    {e e' : Entry S σ δ Req Resp} {rest : List (Entry S σ δ Req Resp)}
    (he : e :: rest <:+ m.log) (he' : e' ∈ rest) : R (e'.post I) e.pre := by
  rcases h.split he with ⟨m₁, m₂, h1, h2, h3, _⟩
  rw [← h3]
  exact (hR.log h1 (h2 ▸ he')).2

end Machine
end Interaction
