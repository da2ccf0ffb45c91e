import Aspectus.Interaction.Machine

/-!
This module connects the discipline of single programs with the logs of interleaved executions: if
every handler conforms to a discipline, then every entry of every log obeys it.
-/

namespace Interaction

variable {S : Signature} {σ δ Req Resp : Type}

namespace Machine

variable {I : Semantics S σ δ} {handler : Req → Prog S Resp}

/--
A logged answer is the one that executing the operation in the store before it gives.
-/
def Entry.Sound (I : Semantics S σ δ) (e : Entry S σ δ Req Resp) : Prop :=
  ∀ ev d, e.what = .call ev d → ev.res = (I.exec ev.op d e.pre).1

theorem Reaches.sound {s : σ} {m : Machine S σ δ Req Resp} (h : Reaches I handler (init s) m) :
    ∀ e ∈ m.log, Entry.Sound I e := by
  refine h.inv (P := fun m => ∀ e ∈ m.log, Entry.Sound I e) ?_ ?_
  . intro e he
    simp [init] at he
  . intro m m' _ ih hchange
    cases hchange with
    | none => exact ih
    | tick n => exact ih
    | start i q hfree =>
      refine List.forall_mem_cons.mpr ⟨?_, ih⟩
      intro ev d hw
      injection hw
    | call i d q o k hrun =>
      refine List.forall_mem_cons.mpr ⟨?_, ih⟩
      intro ev d hw
      injection hw with h1 h2
      subst h1 h2
      rfl
    | finish i q a hrun =>
      refine List.forall_mem_cons.mpr ⟨?_, ih⟩
      intro ev d hw
      injection hw

/--
The threads of a machine are precisely the ones its log says were started.
-/
structure Served (m : Machine S σ δ Req Resp) : Prop where
  started : ∀ i t, m.threads i = some t → Started m.log i t.request
  unique : ∀ i q, Started m.log i q → ∃ rest, m.threads i = some ⟨q, rest⟩
  listed : ∀ e ∈ m.log, ∃ t, m.threads e.thread = some t
  answered : ∀ e ∈ m.log, ∀ a, e.what = .finish a → ∃ q, m.threads e.thread = some ⟨q, none⟩

theorem Served.update {m : Machine S σ δ Req Resp} (h : Served m) {i : Nat} {q : Req}
    {p : Option (Prog S Resp)} {rest : Prog S Resp} {store : σ} {e : Entry S σ δ Req Resp}
    (hrun : m.threads i = some ⟨q, some rest⟩) (hi : e.thread = i) (hstart : ∀ q, e.what ≠ .start q)
    (hfinish : ∀ a, e.what = .finish a → p = none)
    : Served
        { store := store, threads := Function.update m.threads i (some ⟨q, p⟩), log := e :: m.log } := by
  constructor
  . intro j t ht
    by_cases hj : j = i
    . subst hj
      simp only [Function.update_self, Option.some.injEq] at ht
      subst ht
      exact (h.started j _ hrun).cons e
    . simp only [Function.update_of_ne hj] at ht
      exact (h.started j t ht).cons e
  . intro j q' hq'
    have hq' : Started m.log j q' := by
      rcases hq' with ⟨e', he', hj, hw⟩
      rcases List.mem_cons.mp he' with rfl | he'
      . exact absurd hw (hstart q')
      . exact ⟨e', he', hj, hw⟩
    rcases h.unique j q' hq' with ⟨rest', hrest'⟩
    by_cases hj : j = i
    . subst hj
      rw [hrun] at hrest'
      injection hrest' with hrest'
      injection hrest' with hq _
      subst hq
      exact ⟨p, by simp⟩
    . exact ⟨rest', by simp [Function.update_of_ne hj, hrest']⟩
  . intro e' he'
    by_cases hj : e'.thread = i
    . exact ⟨⟨q, p⟩, by simp [hj]⟩
    . rcases List.mem_cons.mp he' with rfl | he'
      . contradiction
      . simpa [Function.update_of_ne hj] using h.listed e' he'
  . intro e' he' a hw
    rcases List.mem_cons.mp he' with rfl | he'
    . refine ⟨q, ?_⟩
      simp [hi, hfinish a hw]
    . rcases h.answered e' he' a hw with ⟨q', hq'⟩
      have hj : e'.thread ≠ i := by
        intro hj
        rw [hj, hrun] at hq'
        simp at hq'
      exact ⟨q', by simpa [Function.update_of_ne hj] using hq'⟩

theorem Served.start {m : Machine S σ δ Req Resp} (h : Served m) {i : Nat} {q : Req}
    {p : Prog S Resp} (hfree : m.threads i = none)
    : Served
        { m with
          threads := Function.update m.threads i (some ⟨q, some p⟩)
          log := ⟨i, m.store, .start q⟩ :: m.log } := by
  have fresh : ∀ e ∈ m.log, e.thread ≠ i := by
    intro e he hi
    rcases h.listed e he with ⟨t, ht⟩
    rw [hi, hfree] at ht
    contradiction
  constructor
  . intro j t ht
    by_cases hj : j = i
    . subst hj
      simp only [Function.update_self, Option.some.injEq] at ht
      subst ht
      exact ⟨_, List.mem_cons_self, rfl, rfl⟩
    . simp only [Function.update_of_ne hj] at ht
      exact (h.started j t ht).cons _
  . rintro j q' ⟨e, he, hj, hw⟩
    rcases List.mem_cons.mp he with rfl | he
    . injection hw with hw
      subst hj hw
      exact ⟨some p, by simp⟩
    . rcases h.unique j q' ⟨e, he, hj, hw⟩ with ⟨rest, hrest⟩
      exact ⟨rest, by simpa [Function.update_of_ne (hj ▸ fresh e he)] using hrest⟩
  . intro e he
    rcases List.mem_cons.mp he with rfl | he
    . exact ⟨⟨q, some p⟩, by simp⟩
    . simpa [Function.update_of_ne (fresh e he)] using h.listed e he
  . intro e he a hw
    rcases List.mem_cons.mp he with rfl | he
    . injection hw
    . simpa [Function.update_of_ne (fresh e he)] using h.answered e he a hw

theorem Reaches.served {s : σ} {m : Machine S σ δ Req Resp} (h : Reaches I handler (init s) m) :
    Served m := by
  refine h.inv (P := Served) ?_ ?_
  . constructor
    . intro i t ht
      simp [init] at ht
    . rintro i q ⟨e, he, _⟩
      simp [init] at he
    . intro e he
      simp [init] at he
    . intro e he
      simp [init] at he
  . intro m m' _ ih hchange
    cases hchange with
    | none => exact ih
    | tick n => exact ⟨ih.started, ih.unique, ih.listed, ih.answered⟩
    | call i d q o k hrun => exact ih.update hrun rfl (by simp) (by simp)
    | finish i q a hrun => exact ih.update hrun rfl (by simp) (by simp)
    | start i q hfree => exact ih.start hfree

theorem Reaches.started_unique {s : σ} {m : Machine S σ δ Req Resp}
    (h : Reaches I handler (init s) m) {i : Nat} {q q' : Req} (hq : Started m.log i q)
    (hq' : Started m.log i q') : q = q' := by
  rcases h.served.unique i q hq with ⟨rest, hrest⟩
  rcases h.served.unique i q' hq' with ⟨rest', hrest'⟩
  rw [hrest] at hrest'
  injection hrest' with hrest'
  injection hrest'

theorem Reaches.eventsOf_free {s : σ} {m : Machine S σ δ Req Resp}
    (h : Reaches I handler (init s) m) {i : Nat} (hfree : m.threads i = none) :
    eventsOf i m.log = [] := by
  apply List.eq_nil_iff_forall_not_mem.mpr
  intro ev hev
  rcases mem_eventsOf.mp hev with ⟨e, he, hi, _⟩
  rcases h.served.listed e he with ⟨t, ht⟩
  rw [hi, hfree] at ht
  contradiction

section Conforms

variable {guard : Req → List (Event S) → S.Op → Prop} {post : Req → List (Event S) → Resp → Prop}

/--
What is left to run of a thread conforms to the discipline of its request.
-/
theorem Reaches.conforms (spec : ∀ q, (handler q).Conforms (guard q) (post q) []) {s : σ}
    {m : Machine S σ δ Req Resp} (h : Reaches I handler (init s) m)
    : ∀ i q p, m.threads i = some ⟨q, some p⟩ →
        p.Conforms (guard q) (post q) (eventsOf i m.log) := by
  refine h.inv (P := fun m => ∀ i q p, m.threads i = some ⟨q, some p⟩ →
    p.Conforms (guard q) (post q) (eventsOf i m.log)) ?_ ?_
  . intro i q p hp
    simp [init] at hp
  . intro m m' hm ih hchange
    cases hchange with
    | none => exact ih
    | tick n => exact ih
    | start i q hfree =>
      intro j q' p hp
      rw [eventsOf_cons_silent (by rfl)]
      by_cases hj : j = i
      . subst hj
        simp only [Function.update_self, Option.some.injEq, Thread.mk.injEq] at hp
        rcases hp with ⟨rfl, rfl⟩
        rw [hm.eventsOf_free hfree]
        exact spec _
      . simp only [Function.update_of_ne hj] at hp
        exact ih j q' p hp
    | call i d q o k hrun =>
      intro j q' p hp
      by_cases hj : j = i
      . subst hj
        simp only [Function.update_self, Option.some.injEq, Thread.mk.injEq] at hp
        rcases hp with ⟨rfl, rfl⟩
        rw [eventsOf_cons_call (e := ⟨j, _, _⟩) rfl]
        exact (ih j _ _ hrun).2 _
      . simp only [Function.update_of_ne hj] at hp
        rw [eventsOf_cons_ne (fun hi => hj hi.symm)]
        exact ih j q' p hp
    | finish i q a hrun =>
      intro j q' p hp
      rw [eventsOf_cons_silent (by rfl)]
      by_cases hj : j = i
      . subst hj
        simp at hp
      . simp only [Function.update_of_ne hj] at hp
        exact ih j q' p hp

/--
Every operation in the log was allowed by the guard of the request it was called for.
-/
theorem Reaches.called (spec : ∀ q, (handler q).Conforms (guard q) (post q) []) {s : σ}
    {m : Machine S σ δ Req Resp} (h : Reaches I handler (init s) m) {e : Entry S σ δ Req Resp}
    {rest : List (Entry S σ δ Req Resp)} (he : e :: rest <:+ m.log) {ev : Event S} {d : δ}
    (hw : e.what = .call ev d)
    : ∃ q, Started rest e.thread q ∧ guard q (eventsOf e.thread rest) ev.op := by
  rcases h.split he with ⟨m₁, m₂, h₁, hlog₁, _, hchange, hlog₂, _⟩
  cases hchange with
  | call i d q o k hrun =>
    simp only [hlog₁, List.cons.injEq, and_true] at hlog₂
    subst hlog₂ hlog₁
    injection hw with hev
    subst hev
    exact ⟨q, h₁.served.started i _ hrun, (h₁.conforms spec i q _ hrun).1⟩
  | finish i q a hrun =>
    simp only [hlog₁, List.cons.injEq, and_true] at hlog₂
    subst hlog₂
    injection hw
  | start i q hfree =>
    simp only [hlog₁, List.cons.injEq, and_true] at hlog₂
    subst hlog₂
    injection hw
  | _ => simp [hlog₁] at hlog₂

/--
Every response in the log was allowed by the discipline of the request it answers.
-/
theorem Reaches.finished (spec : ∀ q, (handler q).Conforms (guard q) (post q) []) {s : σ}
    {m : Machine S σ δ Req Resp} (h : Reaches I handler (init s) m) {e : Entry S σ δ Req Resp}
    {rest : List (Entry S σ δ Req Resp)} (he : e :: rest <:+ m.log) {a : Resp}
    (hw : e.what = .finish a)
    : ∃ q, Started rest e.thread q ∧ post q (eventsOf e.thread rest) a := by
  rcases h.split he with ⟨m₁, m₂, h₁, hlog₁, _, hchange, hlog₂, _⟩
  cases hchange with
  | finish i q a hrun =>
    simp only [hlog₁, List.cons.injEq, and_true] at hlog₂
    subst hlog₂ hlog₁
    injection hw with ha
    subst ha
    exact ⟨q, h₁.served.started i _ hrun, h₁.conforms spec i q _ hrun⟩
  | call i d q o k hrun =>
    simp only [hlog₁, List.cons.injEq, and_true] at hlog₂
    subst hlog₂
    injection hw
  | start i q hfree =>
    simp only [hlog₁, List.cons.injEq, and_true] at hlog₂
    subst hlog₂
    injection hw
  | _ => simp [hlog₁] at hlog₂

end Conforms

end Machine
end Interaction
