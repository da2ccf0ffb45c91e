import Aspectus.Security.TokenRows

/-!
This module contains where the requests for the service token of a project take effect.
-/

namespace Aspectus

open Interaction Prog Machine Statement

/--
Whenever a request stores a token, the project has an active token if and only if it had one when the
request has read the row.
-/
def Steady (p : Project) (log : List TokenEntry) : Prop :=
  ∀ e rest, e :: rest <:+ log →
    ∀ tokenHash tokenPrefix old, Did e (.serviceToken (.upsert p tokenHash tokenPrefix)) (.ok old) →
    ∀ r ∈ rest, r.thread = e.thread → ReadRow p r →
      (r.pre.rowState p).active = (e.pre.rowState p).active

section Points

variable (p : Project) (m : TokenMachine)

/--
Where a request takes effect: where it writes the row; where it has read the row, if it is answered
without writing it; or where it is answered, if it has not even read the row.
-/
def TakesEffect (e : TokenEntry) (_ : List TokenEntry) : Prop :=
  (∃ q, Started m.log e.thread q ∧ q.project = some p)
    ∧ (Wrote p e
      ∨ (ReadRow p e ∧ Finished m.log e.thread
        ∧ ∀ e' ∈ m.log, e'.thread = e.thread → ¬Wrote p e')
      ∨ ((∃ a, e.what = .finish a) ∧ ∀ e' ∈ m.log, e'.thread = e.thread → ¬ReadRow p e'))

end Points

theorem map_eq_pair {α β : Type} {f : α → β} {l : List α} {b c : β} (h : l.map f = [b, c])
    : ∃ x y, l = [x, y] ∧ f x = b ∧ f y = c := by
  rcases List.map_eq_cons_iff.mp h with ⟨x, l', rfl, hx, h⟩
  rcases List.map_eq_cons_iff.mp h with ⟨y, l', rfl, hy, h⟩
  cases List.map_eq_nil_iff.mp h
  exact ⟨x, y, rfl, hx, hy⟩

theorem map_eq_single {α β : Type} {f : α → β} {l : List α} {b : β} (h : l.map f = [b])
    : ∃ x, l = [x] ∧ f x = b := by
  rcases List.map_eq_cons_iff.mp h with ⟨x, l', rfl, hx, h⟩
  cases List.map_eq_nil_iff.mp h
  exact ⟨x, rfl, hx⟩

namespace TokenMachine

variable {cfg : Config} {s : Server} {p : Project} {m : TokenMachine}
  (hm : TokenMachine.Reachable cfg s m) {e : TokenEntry} {rest : List TokenEntry}
  (he : e :: rest <:+ m.log)
include hm he

/--
A request that has read the row is about a project whose tokens are managed.
-/
theorem managed_of_read {i : Nat} {q : ProjectTokenRequest} (hq : Started m.log i q)
    (hproject : q.project = some p) {token : Option StoredServiceToken}
    (hread : readRow p token ∈ eventsOf i rest) : p ≠ .aspectus := by
  rcases mem_eventsOf.mp hread with ⟨r, hr, rfl, d, hw⟩
  rcases suffix_of_mem hr with ⟨rest', hr'⟩
  exact (before_read hm (hr'.trans (suffix_tail he)) hq hproject ⟨_, d, hw⟩).1

/--
A request that stores a token could be served as a whole where it does so.
-/
theorem upsert_outcome (hsteady : Steady p m.log) {tokenHash tokenPrefix : String}
    {old : Option String} (hdid : Did e (.serviceToken (.upsert p tokenHash tokenPrefix)) (.ok old))
    (d₀ : Draw)
    : ∃ q, Started m.log e.thread q ∧ q.project = some p ∧ p ≠ .aspectus
        ∧ ServiceTokens.outcome cfg p (drawn d₀ e.thread m.log) (e.pre.rowState p) q
          = (q.storedStatus, (e.post (semantics cfg)).rowState p) := by
  rcases before_upsert hm he hdid with ⟨q, hq, token, raw, hproject, hexpects, rfl, rfl, hevents⟩
  have hread : readRow p token ∈ eventsOf e.thread rest := by simp [hevents]
  refine ⟨q, hq, hproject, managed_of_read hm he hq hproject hread, ?_⟩
  rw [eventsOf_eq_map] at hevents
  rcases map_eq_pair hevents with ⟨x₁, x₀, hx, hx₁, hx₀⟩
  have hmem : ∀ x ∈ [x₁, x₀], x ∈ executedBy e.thread m.log := by
    intro x hmem
    rw [← hx] at hmem
    exact (executedBy_suffix (suffix_tail he)).mem hmem
  rcases hdid with ⟨d, hw⟩
  -- The three draws of the request are the first ones it is given in its turn.
  have hsuffix := executedBy_suffix (i := e.thread) he
  rw [executedBy_cons_call hw, hx] at hsuffix
  have h0 : drawn d₀ e.thread m.log 0 = x₀.draw := drawn_of_suffix hsuffix rfl
  have h1 : drawn d₀ e.thread m.log 1 = x₁.draw := drawn_of_suffix hsuffix rfl
  have h2 : drawn d₀ e.thread m.log 2 = d := drawn_of_suffix hsuffix (x := ⟨_, d, e.pre⟩) rfl
  rcases executed_read hm (hmem x₀ (by simp)) hx₀ with ⟨hfault, hview⟩
  rcases executed_drew hm (hmem x₁ (by simp)) hx₁ with ⟨hdrawn, rfl⟩
  -- The row is as it was when it was read.
  have hactive : (RowState.ofStored token).active = (e.pre.rowState p).active := by
    have hx₀rest : x₀ ∈ executedBy e.thread rest := by simp [hx]
    rcases mem_executedBy.mp hx₀rest with ⟨r, hr, hi, hrw, hpre⟩
    rw [hx₀] at hrw
    rw [hview, ← hpre]
    exact hsteady e rest he _ _ _ ⟨d, hw⟩ r hr hi ⟨_, _, hrw⟩
  have hpost : e.post (semantics cfg) = _ := post_call hw
  have hsound := hm.sound e (he.mem List.mem_cons_self) _ d hw
  rcases exec_upsert cfg d e.pre p (ServiceTokenCreator.created cfg p x₁.draw.bytes.toList).tokenHash
    (ServiceTokenCreator.created cfg p x₁.draw.bytes.toList).tokenPrefix with
    ⟨e', _, hexec⟩ | ⟨old', s', hexecutes, hexec, hrow⟩
  . have hsound : Except.ok old = (Op.exec cfg (.serviceToken (.upsert p
        (ServiceTokenCreator.created cfg p x₁.draw.bytes.toList).tokenHash
        (ServiceTokenCreator.created cfg p x₁.draw.bytes.toList).tokenPrefix)) d e.pre).1 := hsound
    rw [hexec] at hsound
    contradiction
  . rw [hpost, hexec]
    dsimp only
    rw [hrow]
    have hstored : ServiceTokens.stored cfg p q.storedStatus (drawn d₀ e.thread m.log)
        (e.pre.rowState p) = (q.storedStatus,
          some ((ServiceTokenCreator.created cfg p x₁.draw.bytes.toList).tokenHash, true)) := by
      unfold ServiceTokens.stored
      rw [h1, h2]
      simp [hdrawn, hexecutes]
    rw [ServiceTokens.outcome_expects (h0 ▸ hfault) (hactive ▸ hexpects)]
    exact hstored

/--
A request that revokes the token, or finds none, could be served as a whole where it does so.
-/
theorem revoke_outcome {b : Bool} (hdid : Did e (.serviceToken (.revoke p)) (.ok b)) (d₀ : Draw)
    : ∃ q, Started m.log e.thread q ∧ q.project = some p ∧ p ≠ .aspectus
        ∧ ServiceTokens.outcome cfg p (drawn d₀ e.thread m.log) (e.pre.rowState p) q
          = (if b then 204 else 404, (e.post (semantics cfg)).rowState p) := by
  rcases before_revoke hm he hdid with ⟨q, hq, name, token, rfl, hproject, _, hevents⟩
  have hread : readRow p (some token) ∈ eventsOf e.thread rest := by simp [hevents]
  refine ⟨_, hq, hproject, managed_of_read hm he hq hproject hread, ?_⟩
  rw [eventsOf_eq_map] at hevents
  rcases map_eq_single hevents with ⟨x₀, hx, hx₀⟩
  have hmem : x₀ ∈ executedBy e.thread m.log :=
    (executedBy_suffix (suffix_tail he)).mem (by simp [hx])
  rcases hdid with ⟨d, hw⟩
  have hsuffix := executedBy_suffix (i := e.thread) he
  rw [executedBy_cons_call hw, hx] at hsuffix
  have h0 : drawn d₀ e.thread m.log 0 = x₀.draw := drawn_of_suffix hsuffix rfl
  have h1 : drawn d₀ e.thread m.log 1 = d := drawn_of_suffix hsuffix (x := ⟨_, d, e.pre⟩) rfl
  rcases executed_read hm hmem hx₀ with ⟨hfault, _⟩
  have hpost : e.post (semantics cfg) = _ := post_call hw
  have hsound := hm.sound e (he.mem List.mem_cons_self) _ d hw
  change Except.ok b = (Op.exec cfg (.serviceToken (.revoke p)) d e.pre).1 at hsound
  rcases exec_revoke cfg d e.pre p with ⟨e', _, hexec⟩ | ⟨s', hrevokes, hexec, hrow⟩
  . rw [hexec] at hsound
    contradiction
  . rw [hexec] at hsound
    injection hsound with hsound
    rw [hpost, hexec]
    dsimp only
    rw [hrow]
    unfold ServiceTokens.outcome
    rw [h0, h1, ← hsound, hfault, hrevokes]
    cases b with
    | true => rfl
    | false =>
      rw [RowState.revoked_of_inactive hsound.symm]
      rfl

/--
A request reads the row only once.
-/
theorem read_unique {q : ProjectTokenRequest} (hq : Started m.log e.thread q)
    (hproject : q.project = some p) (hread : ReadRow p e) {e' : TokenEntry} {rest' : List TokenEntry}
    (he' : e' :: rest' <:+ m.log) (hthread : e'.thread = e.thread) (hread' : ReadRow p e')
    : e' = e ∧ rest' = rest := by
  have hnone := (before_read hm he hq hproject hread).2
  have hnone' := (before_read hm he' (hthread ▸ hq) hproject hread').2
  rcases suffix_trichotomy he he' with ⟨heq, hrest⟩ | hold | hold
  . exact ⟨heq.symm, hrest.symm⟩
  . rcases hread' with ⟨r, d, hr⟩
    have hmem := mem_eventsOf.mpr ⟨e', hold.mem List.mem_cons_self, hthread, d, hr⟩
    rw [hnone] at hmem
    contradiction
  . rcases hread with ⟨r, d, hr⟩
    have hmem := mem_eventsOf.mpr ⟨e, hold.mem List.mem_cons_self, hthread.symm, d, hr⟩
    rw [hnone'] at hmem
    contradiction

/--
What a request has read of the row is what the row was at the entry where it has read it.
-/
theorem row_of_read {q : ProjectTokenRequest} (hq : Started m.log e.thread q)
    (hproject : q.project = some p) (hread : ReadRow p e) {x : Executed Api Server Draw}
    (hx : x ∈ executedBy e.thread m.log) {token : Option StoredServiceToken}
    (hevent : x.event = readRow p token)
    : x.draw.fault.isSome = false ∧ RowState.ofStored token = e.pre.rowState p := by
  rcases executed_read hm hx hevent with ⟨hfault, hview⟩
  rcases mem_executedBy.mp hx with ⟨e', he', hthread, hw, hpre⟩
  rcases suffix_of_mem he' with ⟨rest', hrest'⟩
  rw [hevent] at hw
  cases (read_unique hm he hq hproject hread hrest' hthread ⟨_, _, hw⟩).1
  exact ⟨hfault, hview.trans (by rw [hpre])⟩

/--
A request that is answered without having written the row could be served as a whole where it has read
the row.
-/
theorem read_outcome {q : ProjectTokenRequest} (hq : Started m.log e.thread q)
    (hproject : q.project = some p) (hread : ReadRow p e)
    (hunwritten : ∀ e' ∈ m.log, e'.thread = e.thread → ¬Wrote p e') {f : TokenEntry}
    {rest' : List TokenEntry} (hf : f :: rest' <:+ m.log) (hthread : f.thread = e.thread)
    {a : Response} (hw : f.what = .finish a) (d₀ : Draw)
    : ServiceTokens.outcome cfg p (drawn d₀ e.thread m.log) (e.pre.rowState p) q
        = (a.status, e.pre.rowState p) := by
  have hp := (before_read hm he hq hproject hread).1
  have hcourse := ((answered hm hf (hthread ▸ hq) hw).concluded p hproject hp).1
  have hunwritten' : ∀ x ∈ executedBy e.thread rest',
      (∀ tokenHash tokenPrefix old, x.event ≠ ⟨.serviceToken (.upsert p tokenHash tokenPrefix), .ok old⟩)
        ∧ ∀ b, x.event ≠ ⟨.serviceToken (.revoke p), .ok b⟩ := by
    intro x hx
    rcases mem_executedBy.mp hx with ⟨e', he', hi, hw', _⟩
    have hnot := hunwritten e' ((suffix_tail hf).mem he') hi
    constructor
    . intro tokenHash tokenPrefix old hevent
      rw [hevent] at hw'
      exact hnot (.inl ⟨_, _, _, _, hw'⟩)
    . intro b hevent
      rw [hevent] at hw'
      exact hnot (.inr ⟨_, _, hw'⟩)
  have hsuffix := executedBy_suffix (i := e.thread) (suffix_tail hf)
  have hmem : ∀ x ∈ executedBy e.thread rest', x ∈ executedBy e.thread m.log := fun x hx =>
    hsuffix.mem hx
  rw [hthread, eventsOf_eq_map] at hcourse
  generalize hevents : (executedBy e.thread rest').map Executed.event = events at hcourse
  generalize hstatus : a.status = status at hcourse
  cases hcourse with
  | unread error =>
    rcases map_eq_single hevents with ⟨x₀, hx, hx₀⟩
    rw [hx] at hsuffix hmem
    have h0 : drawn d₀ e.thread m.log 0 = x₀.draw := drawn_of_suffix hsuffix rfl
    have hfault := executed_unread hm (hmem x₀ (by simp)) hx₀
    exact ServiceTokens.outcome_unread hproject (h0 ▸ hfault)
  | taken token hcreate hactive =>
    rcases map_eq_single hevents with ⟨x₀, hx, hx₀⟩
    rw [hx] at hsuffix hmem
    have h0 : drawn d₀ e.thread m.log 0 = x₀.draw := drawn_of_suffix hsuffix rfl
    rcases row_of_read hm he hq hproject hread (hmem x₀ (by simp)) hx₀ with ⟨hfault, hview⟩
    exact ServiceTokens.outcome_taken (h0 ▸ hfault) hcreate (hview ▸ hactive)
  | missing token hcreate hactive =>
    rcases map_eq_single hevents with ⟨x₀, hx, hx₀⟩
    rw [hx] at hsuffix hmem
    have h0 : drawn d₀ e.thread m.log 0 = x₀.draw := drawn_of_suffix hsuffix rfl
    rcases row_of_read hm he hq hproject hread (hmem x₀ (by simp)) hx₀ with ⟨hfault, hview⟩
    exact ServiceTokens.outcome_missing hproject (h0 ▸ hfault) hcreate (hview ▸ hactive)
  | undrawn token error hexpects =>
    rcases map_eq_pair hevents with ⟨x₁, x₀, hx, hx₁, hx₀⟩
    rw [hx] at hsuffix hmem
    have h0 : drawn d₀ e.thread m.log 0 = x₀.draw := drawn_of_suffix hsuffix rfl
    have h1 : drawn d₀ e.thread m.log 1 = x₁.draw := drawn_of_suffix hsuffix rfl
    rcases row_of_read hm he hq hproject hread (hmem x₀ (by simp)) hx₀ with ⟨hfault, hview⟩
    have hundrawn := executed_undrawn hm (hmem x₁ (by simp)) hx₁
    rw [ServiceTokens.outcome_expects (h0 ▸ hfault) (hview ▸ hexpects)]
    unfold ServiceTokens.stored
    rw [h1, hundrawn]
    rfl
  | unstored token raw error hexpects =>
    rcases List.map_eq_cons_iff.mp hevents with ⟨x₂, xs, hx, hx₂, hevents⟩
    rcases map_eq_pair hevents with ⟨x₁, x₀, rfl, hx₁, hx₀⟩
    rw [hx] at hsuffix hmem
    have h0 : drawn d₀ e.thread m.log 0 = x₀.draw := drawn_of_suffix hsuffix rfl
    have h1 : drawn d₀ e.thread m.log 1 = x₁.draw := drawn_of_suffix hsuffix rfl
    have h2 : drawn d₀ e.thread m.log 2 = x₂.draw := drawn_of_suffix hsuffix rfl
    rcases row_of_read hm he hq hproject hread (hmem x₀ (by simp)) hx₀ with ⟨hfault, hview⟩
    rcases executed_drew hm (hmem x₁ (by simp)) hx₁ with ⟨hdrawn, rfl⟩
    have hfailed := executed_unstored hm (hmem x₂ (by simp)) hx₂
    rw [ServiceTokens.outcome_expects (h0 ▸ hfault) (hview ▸ hexpects)]
    unfold ServiceTokens.stored
    rw [h1, h2, hdrawn]
    dsimp only
    rw [hfailed]
    rfl
  | stored token raw old tokenHash tokenPrefix tail htail hforgotten =>
    have hstored : (⟨.serviceToken (.upsert p tokenHash tokenPrefix), .ok old⟩ : Event Api)
        ∈ (executedBy e.thread rest').map Executed.event := by simp [hevents]
    rcases List.mem_map.mp hstored with ⟨x, hx, hevent⟩
    exact absurd hevent ((hunwritten' x hx).1 _ _ _)
  | unrevoked token error hrevoke hactive =>
    rcases map_eq_pair hevents with ⟨x₁, x₀, hx, hx₁, hx₀⟩
    rw [hx] at hsuffix hmem
    have h0 : drawn d₀ e.thread m.log 0 = x₀.draw := drawn_of_suffix hsuffix rfl
    have h1 : drawn d₀ e.thread m.log 1 = x₁.draw := drawn_of_suffix hsuffix rfl
    rcases row_of_read hm he hq hproject hread (hmem x₀ (by simp)) hx₀ with ⟨hfault, hview⟩
    have hfailed := executed_unrevoked hm (hmem x₁ (by simp)) hx₁
    have hrow : (e.pre.rowState p).active = true := by
      rw [← hview, ServiceTokens.active_ofStored, Option.any_some, hactive]
    exact ServiceTokens.outcome_unrevoked hproject hrevoke (h0 ▸ hfault) (h1 ▸ hfailed) hrow
  | inactive token =>
    have hrevoked : (⟨.serviceToken (.revoke p), .ok false⟩ : Event Api)
        ∈ (executedBy e.thread rest').map Executed.event := by simp [hevents]
    rcases List.mem_map.mp hrevoked with ⟨x, hx, hevent⟩
    exact absurd hevent ((hunwritten' x hx).2 _)
  | revoked token tail htail hforgotten =>
    have hrevoked : (⟨.serviceToken (.revoke p), .ok true⟩ : Event Api)
        ∈ (executedBy e.thread rest').map Executed.event := by simp [hevents]
    rcases List.mem_map.mp hrevoked with ⟨x, hx, hevent⟩
    exact absurd hevent ((hunwritten' x hx).2 _)

end TokenMachine

section Course

variable {cfg : Config} {q : ProjectTokenRequest} {p : Project} {h : List (Event Api)} {status : Nat}

/--
An answered request about a project has read its row.
-/
theorem Course.read (hcourse : Course cfg q p h status) :
    ∃ r, Called h (.serviceToken (.getByProject p)) r := by
  have hlast : ∃ r, h.getLast? = some ⟨.serviceToken (.getByProject p), r⟩ := by
    cases hcourse with
    | stored => exact ⟨_, List.getLast?_append_of_ne_nil _ nofun⟩
    | revoked => exact ⟨_, List.getLast?_append_of_ne_nil _ nofun⟩
    | _ => exact ⟨_, rfl⟩
  rcases hlast with ⟨r, hr⟩
  exact ⟨r, List.mem_of_getLast? hr⟩

theorem not_mem_of_elsewhere {tail : List (Event Api)} (htail : ∀ ev ∈ tail, ServiceTokens.elsewhere ev.op)
    {o : ServiceTokenOp} {r : (Op.serviceToken o).Res}
    : (⟨.serviceToken o, r⟩ : Event Api) ∉ tail := fun hmem => htail _ hmem o rfl

/--
The status of a request that has stored a token.
-/
theorem Course.status_upsert (hcourse : Course cfg q p h status) {tokenHash tokenPrefix : String}
    {old : Option String}
    (hcalled : Called h (.serviceToken (.upsert p tokenHash tokenPrefix)) (.ok old))
    : status = q.storedStatus := by
  unfold Called at hcalled
  cases hcourse with
  | stored => rfl
  | revoked token tail htail =>
    rcases List.mem_append.mp hcalled with hmem | hmem
    . exact absurd hmem (not_mem_of_elsewhere htail)
    . simp [readRow] at hmem
  | _ => simp [readRow, drewBytes] at hcalled

/--
The status of a request that has revoked the token, or has found none.
-/
theorem Course.status_revoke (hcourse : Course cfg q p h status) {b : Bool}
    (hcalled : Called h (.serviceToken (.revoke p)) (.ok b)) : status = if b then 204 else 404 := by
  unfold Called at hcalled
  cases hcourse with
  | stored token raw old tokenHash tokenPrefix tail htail =>
    rcases List.mem_append.mp hcalled with hmem | hmem
    . exact absurd hmem (not_mem_of_elsewhere htail)
    . simp [readRow, drewBytes] at hmem
  | revoked token tail htail =>
    rcases List.mem_append.mp hcalled with hmem | hmem
    . exact absurd hmem (not_mem_of_elsewhere htail)
    . simp [readRow] at hmem
      simp [hmem]
  | inactive token =>
    simp [readRow] at hcalled
    simp [hcalled]
  | _ => simp [readRow, drewBytes] at hcalled

end Course

namespace TokenMachine

variable {cfg : Config} {s : Server} {p : Project} {m : TokenMachine}
  (hm : TokenMachine.Reachable cfg s m)

section Points

variable {e e' : TokenEntry} {rest rest' : List TokenEntry} (he : e :: rest <:+ m.log)
include hm he

/--
A request that writes the row has read it before.
-/
theorem read_of_wrote (hwrote : Wrote p e) :
    ∃ e' ∈ rest, e'.thread = e.thread ∧ ReadRow p e' := by
  have hread : ∃ token, readRow p token ∈ eventsOf e.thread rest := by
    rcases hwrote with ⟨_, _, _, hdid⟩ | ⟨_, hdid⟩
    . rcases before_upsert hm he hdid with ⟨q, _, token, raw, _, _, _, _, hevents⟩
      exact ⟨token, by simp [hevents]⟩
    . rcases before_revoke hm he hdid with ⟨q, _, name, token, _, _, _, hevents⟩
      exact ⟨some token, by simp [hevents]⟩
  rcases hread with ⟨token, htoken⟩
  rcases mem_eventsOf.mp htoken with ⟨e', he', hthread, d, hw⟩
  exact ⟨e', he', hthread, _, d, hw⟩

/--
A request writes the row only once.
-/
theorem wrote_unique (hwrote : Wrote p e) (he' : e' ∈ rest) (hthread : e'.thread = e.thread)
    : ¬Wrote p e' := by
  intro hwrote'
  have hevent : ∃ ev, ev ∈ eventsOf e.thread rest
      ∧ ((∃ tokenHash tokenPrefix r, ev = ⟨.serviceToken (.upsert p tokenHash tokenPrefix), r⟩)
        ∨ ∃ r, ev = ⟨.serviceToken (.revoke p), r⟩) := by
    rcases hwrote' with ⟨_, _, _, d, hw⟩ | ⟨_, d, hw⟩
    . exact ⟨_, mem_eventsOf.mpr ⟨e', he', hthread, d, hw⟩, .inl ⟨_, _, _, rfl⟩⟩
    . exact ⟨_, mem_eventsOf.mpr ⟨e', he', hthread, d, hw⟩, .inr ⟨_, rfl⟩⟩
  rcases hevent with ⟨ev, hev, hwritten⟩
  rcases hwrote with ⟨_, _, _, hdid⟩ | ⟨_, hdid⟩
  . rcases before_upsert hm he hdid with ⟨q, _, token, raw, _, _, _, _, hevents⟩
    rw [hevents] at hev
    rcases hwritten with ⟨_, _, _, rfl⟩ | ⟨_, rfl⟩
    . simp [readRow, drewBytes] at hev
    . simp [readRow, drewBytes] at hev
  . rcases before_revoke hm he hdid with ⟨q, _, name, token, _, _, _, hevents⟩
    rw [hevents] at hev
    rcases hwritten with ⟨_, _, _, rfl⟩ | ⟨_, rfl⟩
    . simp [readRow] at hev
    . simp [readRow] at hev

/--
A request takes effect only once.
-/
theorem effect_unique (heffect : TakesEffect p m e rest) (he' : e' :: rest' <:+ rest)
    (heffect' : TakesEffect p m e' rest') : e'.thread ≠ e.thread := by
  intro hthread
  rcases heffect with ⟨⟨q, hq, hproject⟩, heffect⟩
  have he'mem : e' ∈ rest := he'.mem List.mem_cons_self
  have helog : e ∈ m.log := he.mem List.mem_cons_self
  have he'log : e' ∈ m.log := (suffix_tail he).mem he'mem
  rcases heffect' with ⟨_, hwrote' | ⟨hread', _, hnot'⟩ | ⟨⟨a, ha⟩, _⟩⟩
  . rcases heffect with hwrote | ⟨_, _, hnot⟩ | ⟨_, hnot⟩
    . exact wrote_unique hm he hwrote he'mem hthread hwrote'
    . exact hnot e' he'log hthread hwrote'
    . rcases read_of_wrote hm (he'.trans (suffix_tail he)) hwrote' with ⟨r, hr, hrthread, hread⟩
      have hrlog := (suffix_tail (he'.trans (suffix_tail he))).mem hr
      exact hnot r hrlog (hrthread.trans hthread) hread
  . rcases heffect with hwrote | ⟨hread, _, _⟩ | ⟨_, hnot⟩
    . exact hnot' e helog hthread.symm hwrote
    . have hrest := (read_unique hm he hq hproject hread (he'.trans (suffix_tail he)) hthread hread').2
      have hlength := he'.length_le
      rw [hrest, List.length_cons] at hlength
      omega
    . exact hnot e' he'log hthread hread'
  . exact hm.finish_last he he'mem ha hthread.symm

end Points

/--
Every request that was answered has taken effect.
-/
theorem effect_complete {i : Nat} {q : ProjectTokenRequest} (hq : Started m.log i q)
    (hproject : q.project = some p) (hfinished : Finished m.log i)
    : ∃ e rest, e :: rest <:+ m.log ∧ TakesEffect p m e rest ∧ e.thread = i := by
  have hsome : ∀ e ∈ m.log, e.thread = i → ((Wrote p e
      ∨ (ReadRow p e ∧ Finished m.log e.thread ∧ ∀ e' ∈ m.log, e'.thread = e.thread → ¬Wrote p e')
      ∨ ((∃ a, e.what = .finish a) ∧ ∀ e' ∈ m.log, e'.thread = e.thread → ¬ReadRow p e'))) →
      ∃ e rest, e :: rest <:+ m.log ∧ TakesEffect p m e rest ∧ e.thread = i := by
    rintro e he rfl heffect
    rcases suffix_of_mem he with ⟨rest, hrest⟩
    exact ⟨e, rest, hrest, ⟨⟨q, hq, hproject⟩, heffect⟩, rfl⟩
  by_cases hwrote : ∃ e ∈ m.log, e.thread = i ∧ Wrote p e
  . rcases hwrote with ⟨e, he, hi, hwrote⟩
    exact hsome e he hi (.inl hwrote)
  . have hunwritten : ∀ e ∈ m.log, e.thread = i → ¬Wrote p e := by
      intro e he hi hw
      exact hwrote ⟨e, he, hi, hw⟩
    by_cases hread : ∃ e ∈ m.log, e.thread = i ∧ ReadRow p e
    . rcases hread with ⟨e, he, rfl, hread⟩
      exact hsome e he rfl (.inr (.inl ⟨hread, hfinished, hunwritten⟩))
    . rcases hfinished with ⟨e, he, rfl, ha⟩
      refine hsome e he rfl (.inr (.inr ⟨ha, ?_⟩))
      intro e' he' hi hread'
      exact hread ⟨e', he', hi, hread'⟩

include hm

/--
The row only changes where a request takes effect.
-/
theorem rowState_unchanged {e : TokenEntry} {rest : List TokenEntry} (he : e :: rest <:+ m.log)
    (heffect : ¬TakesEffect p m e rest)
    : (e.post (semantics cfg)).rowState p = e.pre.rowState p := by
  rcases row_cases hm he p with ⟨hkept, _⟩ | ⟨_, _, _, hdid, _⟩ | ⟨hdid, _⟩
  . exact hkept
  . rcases before_upsert hm he hdid with ⟨q, hq, token, raw, hproject, _⟩
    exact absurd ⟨⟨q, hq, hproject⟩, .inl (.inl ⟨_, _, _, hdid⟩)⟩ heffect
  . rcases before_revoke hm he hdid with ⟨q, hq, name, token, _, hproject, _⟩
    exact absurd ⟨⟨q, hq, hproject⟩, .inl (.inr ⟨_, hdid⟩)⟩ heffect

end TokenMachine

end Aspectus
