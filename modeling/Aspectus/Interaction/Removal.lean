import Aspectus.Interaction.Discipline

/-!
This module contains when the threads of an execution that are observed do not notice that others were
removed from it: if the operations of the threads that are not observed do not show.
-/

namespace Interaction
namespace Machine

variable {S : Signature} {σ δ Req Resp : Type} {I : Semantics S σ δ} {handler : Req → Prog S Resp}

/--
Whether an action does not concern a thread that is removed.
-/
def stays (kept : Nat → Bool) : Action δ Req → Bool
  | .start i _ => kept i
  | .step i _ => kept i
  | .tick _ => true

/--
The observed answers in the order they were given, newest first.
-/
def answered (observed : Nat → Bool) (log : List (Entry S σ δ Req Resp)) : List (Nat × Resp) :=
  log.filterMap fun e =>
    match e.what with
    | .finish a => if observed e.thread then some (e.thread, a) else none
    | _ => none

/--
The operations of the threads that are not observed do not show, as far as the log tells.
-/
def Unseen (observed : Nat → Bool) (U : S.Op → Prop) (log : List (Entry S σ δ Req Resp)) : Prop :=
  ∀ e ∈ log, observed e.thread = false → ∀ ev d, e.what = .call ev d → U ev.op

/--
The operations of the threads that are observed, as far as the log tells.
-/
def Seen (observed : Nat → Bool) (V : S.Op → Prop) (log : List (Entry S σ δ Req Resp)) : Prop :=
  ∀ e ∈ log, observed e.thread = true → ∀ ev d, e.what = .call ev d → V ev.op

/--
How the stores of two executions are related for the observed threads: time passes in both, what does not
show keeps the relation on either side, and what is observed answers the same in both.
-/
structure Unnoticing (I : Semantics S σ δ) (R : σ → σ → Prop) (U V : S.Op → Prop) : Prop where
  advance : ∀ n s s', R s s' → R (I.advance n s) (I.advance n s')
  left : ∀ o d s s', U o → R s s' → R (I.exec o d s).2 s'
  right : ∀ o d s s', U o → R s s' → R s (I.exec o d s').2
  seen : ∀ o d s s', V o → R s s' →
    (I.exec o d s).1 = (I.exec o d s').1 ∧ R (I.exec o d s).2 (I.exec o d s').2

/--
Two machines that the observed threads cannot tell apart.
-/
structure Agree (R : σ → σ → Prop) (observed : Nat → Bool) (m m' : Machine S σ δ Req Resp) : Prop
    where
  store : R m.store m'.store
  same : ∀ i, observed i = true → m.threads i = m'.threads i
  answers : answered observed m.log = answered observed m'.log

section Step

variable {R : σ → σ → Prop} {U V : S.Op → Prop} {observed kept : Nat → Bool}
variable {m m' : Machine S σ δ Req Resp}

theorem answered_cons_silent {e : Entry S σ δ Req Resp} {log : List (Entry S σ δ Req Resp)}
    (h : observed e.thread = false ∨ ∀ a, e.what ≠ .finish a)
    : answered observed (e :: log) = answered observed log := by
  unfold answered
  apply List.filterMap_cons_none
  split
  . next a hw =>
    rcases h with h | h
    . simp [h]
    . exact absurd hw (h a)
  . rfl

/--
The thread an action concerns.
-/
def thread? : Action δ Req → Option Nat
  | .start i _ => some i
  | .step i _ => some i
  | .tick _ => none

theorem act_threads_ne {a : Action δ Req} {i j : Nat} (ha : thread? a = some i) (hj : j ≠ i) :
    (act I handler m a).threads j = m.threads j := by
  cases a with
  | tick n => contradiction
  | start i' q =>
    injection ha with ha
    subst ha
    unfold act
    dsimp only
    split
    . rfl
    . simp [hj]
  | step i' d =>
    injection ha with ha
    subst ha
    unfold act
    dsimp only
    split
    . simp [hj]
    . simp [hj]
    . rfl

/--
The request of a thread stays the same once it was started.
-/
theorem act_request {m m' : Machine S σ δ Req Resp} {a : Action δ Req} {i : Nat}
    (ha : thread? a = some i)
    (h : (m.threads i).map (fun t => t.request) = (m'.threads i).map fun t => t.request)
    : ((act I handler m a).threads i).map (fun t => t.request)
        =
      ((act I handler m' a).threads i).map fun t => t.request := by
  have hkeeps : ∀ (m : Machine S σ δ Req Resp) d, ((act I handler m (.step i d)).threads i).map
      (fun t => t.request) = (m.threads i).map fun t => t.request := by
    intro m d
    unfold act
    dsimp only
    split
    . next hrun => simp [hrun]
    . next hrun => simp [hrun]
    . rfl
  have hstarts : ∀ (m : Machine S σ δ Req Resp) q, ((act I handler m (.start i q)).threads i).map
      (fun t => t.request) = some (((m.threads i).map fun t => t.request).getD q) := by
    intro m q
    unfold act
    dsimp only
    split
    . next t ht => simp [ht]
    . next hfree => simp [hfree]
  cases a with
  | tick n => contradiction
  | start i' q =>
    injection ha with ha
    subst ha
    rw [hstarts, hstarts, h]
  | step i' d =>
    injection ha with ha
    subst ha
    rw [hkeeps, hkeeps, h]

/--
What a thread that is not observed does is not among the answers, and only one of its operations can
change the store.
-/
theorem act_unobserved {a : Action δ Req} {i : Nat} (ha : thread? a = some i)
    (hi : observed i = false) (hunseen : Unseen observed U (act I handler m a).log)
    : answered observed (act I handler m a).log = answered observed m.log
        ∧ ((act I handler m a).store = m.store
          ∨ ∃ o d, U o ∧ (act I handler m a).store = (I.exec o d m.store).2) := by
  cases a with
  | tick n => contradiction
  | start i' q =>
    injection ha with ha
    subst ha
    unfold act
    dsimp only
    split
    . exact ⟨rfl, .inl rfl⟩
    . exact ⟨answered_cons_silent (.inl hi), .inl rfl⟩
  | step i' d =>
    injection ha with ha
    subst ha
    unfold act at hunseen ⊢
    dsimp only at hunseen ⊢
    split
    . next q o k hrun =>
      rw [hrun] at hunseen
      exact ⟨answered_cons_silent (.inl hi), .inr ⟨o, d, hunseen _ List.mem_cons_self hi _ _ rfl, rfl⟩⟩
    . exact ⟨answered_cons_silent (.inl hi), .inl rfl⟩
    . exact ⟨rfl, .inl rfl⟩

theorem stays_eq {a : Action δ Req} {i : Nat} (ha : thread? a = some i) : stays kept a = kept i := by
  cases a with
  | tick n => contradiction
  | start i' q =>
    injection ha with ha
    subst ha
    rfl
  | step i' d =>
    injection ha with ha
    subst ha
    rfl

theorem ne_of_kept {i j : Nat} (hi : kept i = false) (hj : kept j = true) : j ≠ i := by
  rintro rfl
  rw [hi] at hj
  contradiction

/--
An action of a thread that was removed.
-/
theorem Agree.act_removed (hI : Unnoticing I R U V)
    (hobserved : ∀ i, observed i = true → kept i = true) (h : Agree R observed m m')
    {a : Action δ Req} {i : Nat} (ha : thread? a = some i) (hi : kept i = false)
    (hunseen : Unseen observed U (act I handler m a).log)
    : Agree R observed (act I handler m a) m' := by
  have hi' : observed i = false := by
    by_contra hne
    rw [hobserved i (by simpa using hne)] at hi
    contradiction
  rcases act_unobserved ha hi' hunseen with ⟨hanswers, hstore⟩
  constructor
  . rcases hstore with hstore | ⟨o, d, ho, hstore⟩
    . rw [hstore]
      exact h.store
    . rw [hstore]
      exact hI.left o d _ _ ho h.store
  . intro j hj
    rw [act_threads_ne ha (ne_of_kept hi (hobserved j hj))]
    exact h.same j hj
  . rw [hanswers]
    exact h.answers

/--
An action of a thread that is not observed but stays in both executions.
-/
theorem Agree.act_unobserved (hI : Unnoticing I R U V) (h : Agree R observed m m')
    {a : Action δ Req} {i : Nat} (ha : thread? a = some i) (hi : observed i = false)
    (hunseen : Unseen observed U (act I handler m a).log)
    (hunseen' : Unseen observed U (act I handler m' a).log)
    : Agree R observed (act I handler m a) (act I handler m' a) := by
  rcases Machine.act_unobserved ha hi hunseen with ⟨hanswers, hstore⟩
  rcases Machine.act_unobserved ha hi hunseen' with ⟨hanswers', hstore'⟩
  have hleft : R (act I handler m a).store m'.store := by
    rcases hstore with hstore | ⟨o, d, ho, hstore⟩
    . rw [hstore]
      exact h.store
    . rw [hstore]
      exact hI.left o d _ _ ho h.store
  constructor
  . rcases hstore' with hstore' | ⟨o, d, ho, hstore'⟩
    . rw [hstore']
      exact hleft
    . rw [hstore']
      exact hI.right o d _ _ ho hleft
  . intro j hj
    have hne : j ≠ i := by
      rintro rfl
      rw [hi] at hj
      contradiction
    rw [act_threads_ne ha hne, act_threads_ne ha hne]
    exact h.same j hj
  . rw [hanswers, hanswers']
    exact h.answers

theorem answered_cons_finish {e : Entry S σ δ Req Resp} {log : List (Entry S σ δ Req Resp)} {a : Resp}
    (h : observed e.thread = true) (hw : e.what = .finish a)
    : answered observed (e :: log) = (e.thread, a) :: answered observed log := by
  unfold answered
  apply List.filterMap_cons_some
  rw [hw]
  simp [h]

/--
Both executions do the same with a thread that stays in them.
-/
theorem Agree.update (h : Agree R observed m m') {i : Nat} {t : Thread S Req Resp} {s s' : σ}
    {log log' : List (Entry S σ δ Req Resp)} (hstore : R s s')
    (hanswers : answered observed log = answered observed log')
    : Agree R observed ⟨s, Function.update m.threads i (some t), log⟩
        ⟨s', Function.update m'.threads i (some t), log'⟩ := by
  constructor
  . exact hstore
  . intro j hj
    by_cases hne : j = i
    . subst hne
      simp
    . simpa [hne] using h.same j hj
  . exact hanswers

/--
An action of a thread that is observed, which has the same to do in both executions.
-/
theorem Agree.act_observed (hI : Unnoticing I R U V) (h : Agree R observed m m')
    {a : Action δ Req} {i : Nat} (ha : thread? a = some i) (hi : observed i = true)
    (hseen : Seen observed V (act I handler m a).log)
    : Agree R observed (act I handler m a) (act I handler m' a) := by
  have hsame := h.same i hi
  have hcall : ∀ e e' : Entry S σ δ Req Resp, (∀ b, e.what ≠ .finish b) → (∀ b, e'.what ≠ .finish b) →
      answered observed (e :: m.log) = answered observed (e' :: m'.log) := by
    intro e e' he he'
    rw [answered_cons_silent (.inr he), answered_cons_silent (.inr he')]
    exact h.answers
  cases a with
  | tick n => contradiction
  | start i' q =>
    injection ha with ha
    subst ha
    unfold Machine.act
    dsimp only
    rw [← hsame]
    split
    . exact h
    . exact h.update h.store (hcall _ _ (by simp) (by simp))
  | step i' d =>
    injection ha with ha
    subst ha
    unfold Machine.act at hseen ⊢
    dsimp only at hseen ⊢
    rw [← hsame]
    split
    . next q o k hrun =>
      rw [hrun] at hseen
      have ho : V o := hseen _ List.mem_cons_self hi _ _ rfl
      rcases hI.seen o d _ _ ho h.store with ⟨hres, hstore⟩
      rw [← hres]
      exact h.update hstore (hcall _ _ (by simp) (by simp))
    . next q b hrun =>
      apply h.update h.store
      rw [answered_cons_finish hi rfl, answered_cons_finish hi rfl, h.answers]
    . exact h

/--
An action in an execution with all threads, which is left out of the other one if it concerns a thread that
is removed.
-/
theorem Agree.act (hI : Unnoticing I R U V) (hobserved : ∀ i, observed i = true → kept i = true)
    (h : Agree R observed m m') (a : Action δ Req)
    (hunseen : Unseen observed U (act I handler m a).log)
    (hunseen' : stays kept a = true → Unseen observed U (act I handler m' a).log)
    (hseen : Seen observed V (act I handler m a).log)
    : Agree R observed (act I handler m a)
        (if stays kept a then act I handler m' a else m') := by
  cases ha : thread? a with
  | none =>
    cases a with
    | tick n => exact ⟨hI.advance n _ _ h.store, h.same, h.answers⟩
    | _ => contradiction
  | some i =>
    cases hkept : kept i with
    | false =>
      rw [stays_eq ha, hkept]
      exact h.act_removed hI hobserved ha hkept hunseen
    | true =>
      rw [stays_eq ha, hkept]
      cases hi : observed i with
      | false => exact h.act_unobserved hI ha hi hunseen (hunseen' ((stays_eq ha).trans hkept))
      | true => exact h.act_observed hI ha hi hseen

/--
The threads of an execution from which some were removed.
-/
theorem runs_requests (kept : Nat → Bool) (m m' : Machine S σ δ Req Resp) (actions : List (Action δ Req))
    (hrequests : ∀ i, kept i = true →
      (m.threads i).map (fun t => t.request) = (m'.threads i).map fun t => t.request)
    (hremoved : ∀ i, kept i = false → m'.threads i = none)
    : (∀ i, kept i = true → ((runs I handler m actions).threads i).map (fun t => t.request)
          = ((runs I handler m' (actions.filter (stays kept))).threads i).map fun t => t.request)
        ∧ ∀ i, kept i = false →
          (runs I handler m' (actions.filter (stays kept))).threads i = none := by
  induction actions generalizing m m' with
  | nil => exact ⟨hrequests, hremoved⟩
  | cons a actions ih =>
    cases ha : thread? a with
    | none =>
      cases a with
      | tick n => exact ih (act I handler m (.tick n)) (act I handler m' (.tick n)) hrequests hremoved
      | _ => contradiction
    | some i =>
      cases hkept : kept i with
      | false =>
        rw [List.filter_cons_of_neg (by simp [stays_eq ha, hkept])]
        apply ih _ _ _ hremoved
        intro j hj
        rw [act_threads_ne ha (ne_of_kept hkept hj)]
        exact hrequests j hj
      | true =>
        rw [List.filter_cons_of_pos (by simp [stays_eq ha, hkept])]
        apply ih
        . intro j hj
          by_cases hne : j = i
          . subst hne
            exact act_request ha (hrequests j hj)
          . rw [act_threads_ne ha hne, act_threads_ne ha hne]
            exact hrequests j hj
        . intro j hj
          rw [act_threads_ne ha fun heq => ne_of_kept hj hkept heq.symm]
          exact hremoved j hj

theorem Unseen.of_suffix {log rest : List (Entry S σ δ Req Resp)} (h : Unseen observed U log)
    (hsuffix : rest <:+ log) : Unseen observed U rest :=
  fun e he => h e (hsuffix.mem he)

theorem Seen.of_suffix {log rest : List (Entry S σ δ Req Resp)} (h : Seen observed V log)
    (hsuffix : rest <:+ log) : Seen observed V rest :=
  fun e he => h e (hsuffix.mem he)

/--
Whatever the observed threads are told is the same in the execution from which some of the others were
removed.
-/
theorem runs_agree (hI : Unnoticing I R U V) (hobserved : ∀ i, observed i = true → kept i = true)
    (actions : List (Action δ Req)) (h : Agree R observed m m')
    (hunseen : Unseen observed U (runs I handler m actions).log)
    (hunseen' : Unseen observed U (runs I handler m' (actions.filter (stays kept))).log)
    (hseen : Seen observed V (runs I handler m actions).log)
    : Agree R observed (runs I handler m actions)
        (runs I handler m' (actions.filter (stays kept))) := by
  induction actions generalizing m m' with
  | nil => exact h
  | cons a actions ih =>
    have hsuffix : (Machine.act I handler m a).log
        <:+ (runs I handler (Machine.act I handler m a) actions).log :=
      (reaches_runs _ actions).suffix
    have hact := h.act hI hobserved a (hunseen.of_suffix hsuffix) ?_ (hseen.of_suffix hsuffix)
    . cases hstays : stays kept a with
      | true =>
        rw [List.filter_cons_of_pos hstays] at hunseen' ⊢
        rw [hstays] at hact
        exact ih hact hunseen hunseen' hseen
      | false =>
        rw [List.filter_cons_of_neg (by simp [hstays])] at hunseen' ⊢
        rw [hstays] at hact
        exact ih hact hunseen hunseen' hseen
    . intro hstays
      rw [List.filter_cons_of_pos hstays] at hunseen'
      exact hunseen'.of_suffix (reaches_runs (Machine.act I handler m' a) _).suffix

end Step

end Machine
end Interaction
