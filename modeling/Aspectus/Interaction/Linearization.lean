import Aspectus.Interaction.History
import Aspectus.Interaction.Run
import Mathlib.Data.List.Forall2

/-!
This module contains linearizability: an execution is explained by an order of its requests, which
respects the order in which they were started and answered, if serving them one after the other in this
order gives the same answers and the same result. The order is given by linearization points, which are
entries of the log.
-/

namespace Interaction

variable {S : Signature} {σ δ Req Resp α : Type}

/--
A call of a thread together with what was drawn for it and the store it was executed in.
-/
structure Executed (S : Signature) (σ δ : Type) where
  event : Event S
  draw : δ
  pre : σ

def Entry.executed? (e : Entry S σ δ Req Resp) : Option (Executed S σ δ) :=
  match e.what with
  | .call ev d => some ⟨ev, d, e.pre⟩
  | _ => none

/--
The calls of thread `i`, newest first.
-/
def executedBy (i : Nat) (log : List (Entry S σ δ Req Resp)) : List (Executed S σ δ) :=
  log.filterMap fun e => if e.thread = i then e.executed? else none

/--
What is drawn for thread `i`: what was drawn for its calls so far, and `d` for all others.
-/
def drawn (d : δ) (i : Nat) (log : List (Entry S σ δ Req Resp)) (n : Nat) : δ :=
  (((executedBy i log).reverse[n]?).map Executed.draw).getD d

section Executed

variable {i : Nat} {log rest : List (Entry S σ δ Req Resp)} {e : Entry S σ δ Req Resp}

theorem eventsOf_eq_map : eventsOf i log = (executedBy i log).map Executed.event := by
  unfold eventsOf executedBy
  rw [List.map_filterMap]
  congr 1
  funext e
  split
  . unfold Entry.event? Entry.executed?
    cases e.what with
    | _ => rfl
  . rfl

theorem mem_executedBy {x : Executed S σ δ} :
    x ∈ executedBy i log
      ↔
    ∃ e ∈ log, e.thread = i ∧ e.what = .call x.event x.draw ∧ e.pre = x.pre := by
  unfold executedBy
  simp only [List.mem_filterMap]
  constructor
  . rintro ⟨e, he, hx⟩
    split at hx
    . next hi =>
      unfold Entry.executed? at hx
      split at hx
      . next hw =>
        injection hx with hx
        subst hx
        exact ⟨e, he, hi, hw, rfl⟩
      . contradiction
    . contradiction
  . rintro ⟨e, he, hi, hw, hpre⟩
    refine ⟨e, he, ?_⟩
    simp [hi, Entry.executed?, hw, hpre]

theorem executedBy_cons_call {ev : Event S} {d : δ} (hw : e.what = .call ev d) :
    executedBy e.thread (e :: log) = ⟨ev, d, e.pre⟩ :: executedBy e.thread log := by
  simp [executedBy, Entry.executed?, hw]

theorem executedBy_suffix (h : rest <:+ log) : executedBy i rest <:+ executedBy i log :=
  h.filterMap _

/--
The draws of the calls that a thread has made at some point are the first ones.
-/
theorem drawn_of_suffix {d : δ} {xs : List (Executed S σ δ)} (h : xs <:+ executedBy i log) {n : Nat}
    {x : Executed S σ δ} (hx : xs.reverse[n]? = some x) : drawn d i log n = x.draw := by
  rcases h with ⟨newer, hnewer⟩
  have hn : n < xs.reverse.length := by
    rcases List.getElem?_eq_some_iff.mp hx with ⟨hn, _⟩
    exact hn
  unfold drawn
  rw [← hnewer, List.reverse_append, List.getElem?_append_left hn, hx]
  rfl

end Executed

/--
A request that is served in its turn, in the store that `prepare` makes of the one it finds.
-/
structure Turn (σ δ Req : Type) where
  request : Req
  draws : Nat → δ
  prepare : σ → σ

/--
Serve some requests one after the other. Returns the responses and the final store.
-/
def inTurn (I : Semantics S σ δ) (handler : Req → Prog S Resp) :
    List (Turn σ δ Req) → σ → List Resp × σ
  | [], s => ([], s)
  | t :: ts, s =>
    let (a, _, s') := (handler t.request).run I t.draws (t.prepare s)
    let (as, s'') := inTurn I handler ts s'
    (a :: as, s'')

theorem inTurn_append (I : Semantics S σ δ) (handler : Req → Prog S Resp)
    (ts ts' : List (Turn σ δ Req)) (s : σ) :
    inTurn I handler (ts ++ ts') s
      =
    ((inTurn I handler ts s).1 ++ (inTurn I handler ts' (inTurn I handler ts s).2).1,
      (inTurn I handler ts' (inTurn I handler ts s).2).2) := by
  induction ts generalizing s with
  | nil => rfl
  | cons t ts ih => simp [inTurn, ih]

/--
A request that is served after some others and before some others.
-/
theorem inTurn_served {I : Semantics S σ δ} {handler : Req → Prog S Resp}
    {turn : Nat → Turn σ δ Req} {ok : Nat → Resp → Prop} {before after : List Nat} {i : Nat} {s : σ}
    (h : List.Forall₂ ok (before ++ i :: after)
      (inTurn I handler ((before ++ i :: after).map turn) s).1)
    : ∃ s₀, ok i ((handler (turn i).request).run I (turn i).draws ((turn i).prepare s₀)).1
        ∧ List.Forall₂ ok after (inTurn I handler (after.map turn)
          ((handler (turn i).request).run I (turn i).draws ((turn i).prepare s₀)).2.2).1
        ∧ (inTurn I handler ((before ++ i :: after).map turn) s).2 = (inTurn I handler (after.map turn)
          ((handler (turn i).request).run I (turn i).draws ((turn i).prepare s₀)).2.2).2 := by
  induction before generalizing s with
  | nil =>
    cases h with
    | cons hi hafter => exact ⟨s, hi, hafter, rfl⟩
  | cons j before ih =>
    cases h with
    | cons _ h => exact ih h

/--
Thread `i` was answered.
-/
def Finished (log : List (Entry S σ δ Req Resp)) (i : Nat) : Prop :=
  ∃ e ∈ log, e.thread = i ∧ ∃ a, e.what = .finish a

/--
Thread `i` was answered before thread `j` was started.
-/
def Precedes (log : List (Entry S σ δ Req Resp)) (i j : Nat) : Prop :=
  ∃ e rest, e :: rest <:+ log ∧ e.thread = j ∧ (∃ q, e.what = .start q) ∧ Finished rest i

/--
The execution `m` that starts from `s` is explained by the threads of `order`: serving their requests in
turn gives answers that agree with the ones they were given, and what `abs` shows of the store is the
same in the end. Requests that were not answered yet may occur.
-/
structure Linearizes (I : Semantics S σ δ) (handler : Req → Prog S Resp) (s : σ)
    (m : Machine S σ δ Req Resp) (concerned : Req → Prop) (turn : Nat → Turn σ δ Req)
    (agrees : Resp → Resp → Prop) (abs : σ → α) (order : List Nat) : Prop where
  nodup : order.Nodup
  started : ∀ i ∈ order, Started m.log i (turn i).request ∧ concerned (turn i).request
  complete : ∀ i q, Started m.log i q → concerned q → Finished m.log i → i ∈ order
  realTime : order.Pairwise fun i j => ¬Precedes m.log j i
  answers : List.Forall₂ (fun i a => ∀ e ∈ m.log, e.thread = i → ∀ a', e.what = .finish a' →
    agrees a a') order (inTurn I handler (order.map turn) s).1
  result : abs (inTurn I handler (order.map turn) s).2 = abs m.store

section Order

variable (point : Entry S σ δ Req Resp → List (Entry S σ δ Req Resp) → Prop)

open Classical in
/--
The threads in the order of their points, oldest first.
-/
noncomputable def pointOrder : List (Entry S σ δ Req Resp) → List Nat
  | [] => []
  | e :: rest => if point e rest then pointOrder rest ++ [e.thread] else pointOrder rest

variable {point} {e : Entry S σ δ Req Resp} {rest log : List (Entry S σ δ Req Resp)}

theorem pointOrder_cons (h : point e rest) :
    pointOrder point (e :: rest) = pointOrder point rest ++ [e.thread] := by
  simp [pointOrder, h]

theorem pointOrder_cons_of_not (h : ¬point e rest) :
    pointOrder point (e :: rest) = pointOrder point rest := by
  simp [pointOrder, h]

theorem mem_pointOrder {i : Nat} :
    i ∈ pointOrder point log ↔ ∃ e rest, e :: rest <:+ log ∧ point e rest ∧ e.thread = i := by
  induction log with
  | nil => simp [pointOrder]
  | cons e log ih =>
    constructor
    . intro hi
      by_cases hpoint : point e log
      . rw [pointOrder_cons hpoint] at hi
        rcases List.mem_append.mp hi with hi | hi
        . rcases ih.mp hi with ⟨e', rest', he', h⟩
          exact ⟨e', rest', he'.trans (List.suffix_cons _ _), h⟩
        . exact ⟨e, log, List.suffix_refl _, hpoint, (List.mem_singleton.mp hi).symm⟩
      . rw [pointOrder_cons_of_not hpoint] at hi
        rcases ih.mp hi with ⟨e', rest', he', h⟩
        exact ⟨e', rest', he'.trans (List.suffix_cons _ _), h⟩
    . rintro ⟨e', rest', he', hpoint, hi⟩
      rcases List.suffix_cons_iff.mp he' with heq | he'
      . injection heq with h1 h2
        subst h1 h2
        rw [pointOrder_cons hpoint]
        exact List.mem_append_right _ (List.mem_singleton.mpr hi.symm)
      . have hmem := ih.mpr ⟨e', rest', he', hpoint, hi⟩
        by_cases hpoint' : point e log
        . rw [pointOrder_cons hpoint']
          exact List.mem_append_left _ hmem
        . rw [pointOrder_cons_of_not hpoint']
          exact hmem

/--
What holds of every two points holds of the threads in the order.
-/
theorem pointOrder_pairwise {R : Nat → Nat → Prop}
    (h : ∀ e rest, e :: rest <:+ log → point e rest → ∀ e' rest', e' :: rest' <:+ rest →
      point e' rest' → R e'.thread e.thread)
    : (pointOrder point log).Pairwise R := by
  induction log with
  | nil => exact .nil
  | cons e log ih =>
    have hlog : (pointOrder point log).Pairwise R := by
      apply ih
      intro e' rest' he'
      exact h e' rest' (he'.trans (List.suffix_cons _ _))
    by_cases hpoint : point e log
    . rw [pointOrder_cons hpoint]
      apply List.pairwise_append.mpr
      refine ⟨hlog, List.pairwise_singleton _ _, ?_⟩
      intro i hi j hj
      rcases mem_pointOrder.mp hi with ⟨e', rest', he', hpoint', rfl⟩
      rw [List.mem_singleton.mp hj]
      exact h e log (List.suffix_refl _) hpoint e' rest' he' hpoint'
    . rw [pointOrder_cons_of_not hpoint]
      exact hlog

end Order

namespace Machine

/--
The turn of thread `i`: its request, which is `q` if there is none, with its own draws.
-/
def turn (m : Machine S σ δ Req Resp) (q : Req) (d : δ) (prepare : Nat → σ → σ) (i : Nat) :
    Turn σ δ Req where
  request := ((m.threads i).map Thread.request).getD q
  draws := drawn d i m.log
  prepare := prepare i

variable {I : Semantics S σ δ} {handler : Req → Prog S Resp} {s : σ} {m : Machine S σ δ Req Resp}
  {point : Entry S σ δ Req Resp → List (Entry S σ δ Req Resp) → Prop}

theorem Reaches.turn_request (h : Reaches I handler (init s) m) {i : Nat} {q q₀ : Req} {d : δ}
    {prepare : Nat → σ → σ} (hq : Started m.log i q) : (m.turn q₀ d prepare i).request = q := by
  rcases h.served.unique i q hq with ⟨rest, hthread⟩
  unfold turn
  rw [hthread]
  rfl

/--
Points are ordered like the requests were started and answered.
-/
theorem Reaches.pointOrder_realTime (h : Reaches I handler (init s) m) :
    (pointOrder point m.log).Pairwise fun i j => ¬Precedes m.log j i := by
  apply pointOrder_pairwise
  rintro e rest he _ e' rest' he' _ ⟨b, brest, hb, hbthread, ⟨q, hbw⟩, f, hf, hfthread, a, hfw⟩
  have he'log : e' :: rest' <:+ m.log := he'.trans (suffix_tail he)
  -- The younger thread was answered before the older one was started.
  have hold : b :: brest <:+ e' :: rest' := by
    rcases h.after_start hb hbw he'log hbthread.symm with ⟨rfl, rfl⟩ | hold
    . exact List.suffix_refl _
    . exact hold.trans (List.suffix_cons _ _)
  have hfe : f ∈ rest :=
    he'.mem (hold.mem (List.mem_cons_of_mem _ hf))
  exact h.finish_last he hfe hfw hfthread.symm

/--
Serving the requests of the points in turn keeps a relation to the execution. The relation `R` is between
the log, the store of the execution, and the store of those that are served in turn.
-/
theorem Reaches.inTurn_points {turn : Nat → Turn σ δ Req}
    (R : List (Entry S σ δ Req Resp) → σ → σ → Prop) (ok : Nat → Resp → Prop)
    (hadvance : ∀ log n t s', R log t s' → R log (I.advance n t) s')
    (h : Reaches I handler (init s) m) (hinit : R [] s s)
    (hother : ∀ e rest, e :: rest <:+ m.log → ¬point e rest → ∀ s', R rest e.pre s' →
      R (e :: rest) (e.post I) s')
    (hpoint : ∀ e rest, e :: rest <:+ m.log → point e rest → ∀ s', R rest e.pre s' →
      ok e.thread ((handler (turn e.thread).request).run I (turn e.thread).draws
          ((turn e.thread).prepare s')).1
        ∧ R (e :: rest) (e.post I) ((handler (turn e.thread).request).run I (turn e.thread).draws
          ((turn e.thread).prepare s')).2.2)
    : List.Forall₂ ok (pointOrder point m.log)
          (inTurn I handler ((pointOrder point m.log).map turn) s).1
        ∧ R m.log m.store (inTurn I handler ((pointOrder point m.log).map turn) s).2 := by
  induction h with
  | refl => exact ⟨.nil, hinit⟩
  | @act m' h a ih =>
    have hchange := act_change I handler m' a
    rcases hchange.log with hlog | ⟨e, hlog, hpre, hstore⟩
    . rw [hlog] at hother hpoint ⊢
      rcases ih hother hpoint with ⟨hanswers, hresult⟩
      refine ⟨hanswers, ?_⟩
      generalize Machine.act I handler m' a = m'' at hchange hlog
      cases hchange with
      | none => exact hresult
      | tick n => exact hadvance _ n _ _ hresult
      | _ => simp at hlog
    . rw [hlog] at hother hpoint ⊢
      rcases ih (fun e' rest' he' => hother e' rest' (he'.trans (List.suffix_cons _ _)))
        (fun e' rest' he' => hpoint e' rest' (he'.trans (List.suffix_cons _ _))) with
        ⟨hanswers, hresult⟩
      rw [hpre] at hresult
      rw [hstore]
      by_cases hp : point e m'.log
      . rcases hpoint e _ (List.suffix_refl _) hp _ hresult with ⟨hok, hpost⟩
        rw [pointOrder_cons hp, List.map_append, inTurn_append]
        exact ⟨List.rel_append hanswers (.cons hok .nil), hpost⟩
      . rw [pointOrder_cons_of_not hp]
        exact ⟨hanswers, hother e _ (List.suffix_refl _) hp _ hresult⟩

/--
An execution is linearizable if every request that was answered has a point, at most one, at which it
could have been served as a whole in every store that is related to the execution.
-/
theorem Reaches.linearizes_related {abs : σ → α} {turn : Nat → Turn σ δ Req} {concerned : Req → Prop}
    {agrees : Resp → Resp → Prop} (R : List (Entry S σ δ Req Resp) → σ → σ → Prop)
    (hadvance : ∀ log n t s', R log t s' → R log (I.advance n t) s')
    (h : Reaches I handler (init s) m) (hinit : R [] s s)
    (hresult : ∀ s', R m.log m.store s' → abs s' = abs m.store)
    (hstarted : ∀ e rest, e :: rest <:+ m.log → point e rest →
      Started m.log e.thread (turn e.thread).request ∧ concerned (turn e.thread).request)
    (hunique : ∀ e rest, e :: rest <:+ m.log → point e rest → ∀ e' rest', e' :: rest' <:+ rest →
      point e' rest' → e'.thread ≠ e.thread)
    (hcomplete : ∀ i q, Started m.log i q → concerned q → Finished m.log i →
      ∃ e rest, e :: rest <:+ m.log ∧ point e rest ∧ e.thread = i)
    (hother : ∀ e rest, e :: rest <:+ m.log → ¬point e rest → ∀ s', R rest e.pre s' →
      R (e :: rest) (e.post I) s')
    (hpoint : ∀ e rest, e :: rest <:+ m.log → point e rest → ∀ s', R rest e.pre s' →
      (∀ f ∈ m.log, f.thread = e.thread → ∀ a, f.what = .finish a →
        agrees ((handler (turn e.thread).request).run I (turn e.thread).draws
          ((turn e.thread).prepare s')).1 a)
        ∧ R (e :: rest) (e.post I) ((handler (turn e.thread).request).run I (turn e.thread).draws
          ((turn e.thread).prepare s')).2.2)
    : Linearizes I handler s m concerned turn agrees abs (pointOrder point m.log) := by
  have hserved := h.inTurn_points R (fun i a => ∀ f ∈ m.log, f.thread = i → ∀ a',
    f.what = .finish a' → agrees a a') hadvance hinit hother hpoint
  constructor
  . exact pointOrder_pairwise hunique
  . intro i hi
    rcases mem_pointOrder.mp hi with ⟨e, rest, he, hp, rfl⟩
    exact hstarted e rest he hp
  . intro i q hq hconcerned hanswered
    exact mem_pointOrder.mpr (hcomplete i q hq hconcerned hanswered)
  . exact h.pointOrder_realTime
  . exact hserved.1
  . exact hresult _ hserved.2

/--
The special case that what is related are stores that look the same.
-/
theorem Reaches.linearizes {abs : σ → α} {turn : Nat → Turn σ δ Req} {concerned : Req → Prop}
    {agrees : Resp → Resp → Prop} (hadvance : ∀ n s, abs (I.advance n s) = abs s)
    (h : Reaches I handler (init s) m)
    (hstarted : ∀ e rest, e :: rest <:+ m.log → point e rest →
      Started m.log e.thread (turn e.thread).request ∧ concerned (turn e.thread).request)
    (hunique : ∀ e rest, e :: rest <:+ m.log → point e rest → ∀ e' rest', e' :: rest' <:+ rest →
      point e' rest' → e'.thread ≠ e.thread)
    (hcomplete : ∀ i q, Started m.log i q → concerned q → Finished m.log i →
      ∃ e rest, e :: rest <:+ m.log ∧ point e rest ∧ e.thread = i)
    (hother : ∀ e rest, e :: rest <:+ m.log → ¬point e rest → abs (e.post I) = abs e.pre)
    (hpoint : ∀ e rest, e :: rest <:+ m.log → point e rest → ∀ s', abs s' = abs e.pre →
      (∀ f ∈ m.log, f.thread = e.thread → ∀ a, f.what = .finish a →
        agrees ((handler (turn e.thread).request).run I (turn e.thread).draws
          ((turn e.thread).prepare s')).1 a)
        ∧ abs ((handler (turn e.thread).request).run I (turn e.thread).draws
          ((turn e.thread).prepare s')).2.2 = abs (e.post I))
    : Linearizes I handler s m concerned turn agrees abs (pointOrder point m.log) := by
  refine h.linearizes_related (fun _ t s' => abs s' = abs t)
    (fun _ n t _ hrel => hrel.trans (hadvance n t).symm) rfl (fun _ hrel => hrel) hstarted hunique
    hcomplete ?_ hpoint
  intro e rest he hp s' hrel
  exact hrel.trans (hother e rest he hp).symm

end Machine
end Interaction
