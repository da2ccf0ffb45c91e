import Aspectus.Discipline.ServiceTokens
import Aspectus.Interaction.Linearization
import Aspectus.Security.Log

/-!
This module contains what the statements do to the row of a project, and what the threads that manage
its token have executed.
-/

namespace Aspectus

open Interaction Prog Machine Statement

section Row

variable {cfg : Config} {s : Server} {p : Project} {d : Draw}

theorem RowState.revoked_of_inactive {row : RowState} (h : row.active = false) : row.revoked = row := by
  cases row with
  | none => rfl
  | some row =>
    rcases row with ⟨tokenHash, active⟩
    cases active with
    | false => rfl
    | true => contradiction

/--
Only the statements for this project change its row.
-/
theorem rowState_exec {o : Op}
    (hupsert : ∀ tokenHash tokenPrefix, o ≠ .serviceToken (.upsert p tokenHash tokenPrefix))
    (hrevoke : o ≠ .serviceToken (.revoke p)) (hseed : ∀ tokenHash, o ≠ .serviceToken (.seedAdmin tokenHash))
    : (o.exec cfg d s).2.rowState p = s.rowState p := by
  by_cases helse : ServiceTokens.elsewhere o
  . exact ServiceTokens.rowState_elsewhere helse d s p
  . unfold ServiceTokens.elsewhere at helse
    rcases not_forall.mp helse with ⟨o', ho'⟩
    cases not_not.mp ho'
    cases o' with
    | upsert p' tokenHash tokenPrefix =>
      have hne : p.toString ≠ p'.toString := by
        intro heq
        cases Project.toString_injective heq
        exact hupsert _ _ rfl
      apply run_store (P := fun s' : Server => s'.rowState p = s.rowState p) rfl
      intro _ s' h
      cases h
      unfold Server.rowState
      rw [AList.lookup_insert_ne hne]
    | revoke p' =>
      have hne : p.toString ≠ p'.toString := by
        intro heq
        cases Project.toString_injective heq
        exact hrevoke rfl
      apply run_store (P := fun s' : Server => s'.rowState p = s.rowState p) rfl
      intro _ s' h
      rcases revokeServiceToken_ok h with ⟨_, rfl, _⟩ | ⟨_, rfl, _⟩
      . rfl
      . unfold Server.rowState
        rw [Table.lookup_updateAt, if_neg hne]
    | seedAdmin tokenHash => exact absurd rfl (hseed tokenHash)
    | _ =>
      unfold Server.rowState
      simp only [Op.exec, ServiceTokenOp.exec, query_store]

end Row

section Outcome

variable {cfg : Config} {p : Project} {draws : Nat → Draw} {row : RowState} {q : ProjectTokenRequest}

theorem ServiceTokens.outcome_unread (hq : q.project = some p) (h : (draws 0).fault.isSome = true)
    : outcome cfg p draws row q = (500, row) := by
  cases q with
  | create name => simp [outcome, h]
  | rotate name => simp [outcome, h]
  | revoke name => simp [outcome, h]
  | _ => contradiction

/--
A request that finds the row as it expects it stores a token.
-/
theorem ServiceTokens.outcome_expects (h : (draws 0).fault.isSome = false)
    (hexpects : q.expects = some row.active)
    : outcome cfg p draws row q = stored cfg p q.storedStatus draws row := by
  cases q with
  | create name =>
    injection hexpects with hactive
    simp only [outcome, h, ← hactive]
    rfl
  | rotate name =>
    injection hexpects with hactive
    simp only [outcome, h, ← hactive]
    rfl
  | _ => contradiction

theorem ServiceTokens.outcome_taken (h : (draws 0).fault.isSome = false)
    (hcreate : q.expects = some false) (hactive : row.active = true)
    : outcome cfg p draws row q = (409, row) := by
  cases q with
  | create name => simp [outcome, h, hactive]
  | rotate name =>
    injection hcreate
    contradiction
  | _ => contradiction

theorem ServiceTokens.outcome_unrevoked (hq : q.project = some p) (hrevoke : q.expects = none)
    (h : (draws 0).fault.isSome = false) (hfailed : (draws 1).fault.isSome = true)
    (hactive : row.active = true) : outcome cfg p draws row q = (500, row) := by
  cases q with
  | revoke name => simp [outcome, h, hfailed, hactive]
  | _ => contradiction

theorem ServiceTokens.outcome_missing (hq : q.project = some p) (h : (draws 0).fault.isSome = false)
    (hcreate : q.expects ≠ some false) (hactive : row.active = false)
    : outcome cfg p draws row q = (404, row) := by
  cases q with
  | create name => contradiction
  | rotate name => simp [outcome, h, hactive]
  | revoke name => simp [outcome, h, hactive]
  | _ => contradiction

/--
A request that fails leaves the row as it is.
-/
theorem ServiceTokens.outcome_failed (h : 400 ≤ (outcome cfg p draws row q).1)
    : (outcome cfg p draws row q).2 = row := by
  unfold outcome stored at h ⊢
  cases q with
  | create name => grind
  | rotate name => grind
  | revoke name => grind
  | _ => rfl

/--
A request that stores a token and succeeds leaves the token that it has drawn.
-/
theorem ServiceTokens.outcome_succeeded (hexpects : q.expects ≠ none)
    (h : (outcome cfg p draws row q).1 < 400)
    : (outcome cfg p draws row q).2
        = some ((ServiceTokenCreator.created cfg p (draws 1).bytes.toList).tokenHash, true) := by
  unfold outcome stored at h ⊢
  cases q with
  | create name => grind
  | rotate name => grind
  | _ => contradiction

end Outcome

/--
The entry stores or revokes the token of the project. A statement that finds no active token to revoke
counts as well.
-/
def Wrote (p : Project) (e : TokenEntry) : Prop :=
  (∃ tokenHash tokenPrefix old, Did e (.serviceToken (.upsert p tokenHash tokenPrefix)) (.ok old))
    ∨ ∃ b, Did e (.serviceToken (.revoke p)) (.ok b)

/--
The entry reads the row of the project.
-/
def ReadRow (p : Project) (e : TokenEntry) : Prop :=
  ∃ r, Did e (.serviceToken (.getByProject p)) r

namespace TokenMachine

variable {cfg : Config} {s : Server} {p : Project} {m : TokenMachine}
  (hm : TokenMachine.Reachable cfg s m) {e : TokenEntry} {rest : List TokenEntry}
  (he : e :: rest <:+ m.log)
include hm he

/--
What a request has done before it stores a token.
-/
theorem before_upsert {tokenHash tokenPrefix : String} {r : Result (Option String)}
    (hdid : Did e (.serviceToken (.upsert p tokenHash tokenPrefix)) r)
    : ∃ q, Started m.log e.thread q ∧ MayStore cfg q (eventsOf e.thread rest) p tokenHash tokenPrefix := by
  rcases hdid with ⟨d, hw⟩
  rcases hm.called (ProjectTokenRequest.handle_conforms cfg) he hw with ⟨q, hq, hallowed⟩
  exact ⟨q, hq.of_suffix (suffix_tail he), hallowed⟩

theorem before_revoke {r : Result Bool} (hdid : Did e (.serviceToken (.revoke p)) r)
    : ∃ q, Started m.log e.thread q ∧ MayRetire q (eventsOf e.thread rest) p := by
  rcases hdid with ⟨d, hw⟩
  rcases hm.called (ProjectTokenRequest.handle_conforms cfg) he hw with ⟨q, hq, hallowed⟩
  exact ⟨q, hq.of_suffix (suffix_tail he), hallowed⟩

/--
A request only reads the row of its own project, and nothing before that.
-/
theorem before_read {q : ProjectTokenRequest} (hq : Started m.log e.thread q)
    (hproject : q.project = some p) (hread : ReadRow p e)
    : p ≠ .aspectus ∧ eventsOf e.thread rest = [] := by
  rcases hread with ⟨r, d, hw⟩
  rcases hm.called (ProjectTokenRequest.handle_conforms cfg) he hw with ⟨q', hq', hallowed⟩
  have := hm.started_unique hq (hq'.of_suffix (suffix_tail he))
  subst this
  rcases hallowed p hproject with ⟨_, hp, hnone⟩
  exact ⟨hp, hnone⟩

theorem answered {q : ProjectTokenRequest} (hq : Started m.log e.thread q) {a : Response}
    (hw : e.what = .finish a) : TokenAnswered cfg q (eventsOf e.thread rest) a := by
  rcases hm.finished (ProjectTokenRequest.handle_conforms cfg) he hw with ⟨q', hq', hanswered⟩
  have := hm.started_unique hq (hq'.of_suffix (suffix_tail he))
  subst this
  exact hanswered

end TokenMachine

namespace TokenMachine

variable {cfg : Config} {s : Server} {p : Project} {m : TokenMachine}
  (hm : TokenMachine.Reachable cfg s m)
include hm

/--
The calls of a thread were answered by what they are executed on.
-/
theorem executed_sound {i : Nat} {x : Executed Api Server Draw} (hx : x ∈ executedBy i m.log)
    : x.event.res = (x.event.op.exec cfg x.draw x.pre).1 := by
  rcases mem_executedBy.mp hx with ⟨e, he, _, hw, hpre⟩
  rw [← hpre]
  exact hm.sound e he _ _ hw

/--
A row that was read is the one that was there.
-/
theorem executed_read {i : Nat} {x : Executed Api Server Draw} (hx : x ∈ executedBy i m.log)
    {token : Option StoredServiceToken} (hevent : x.event = readRow p token)
    : x.draw.fault.isSome = false ∧ RowState.ofStored token = x.pre.rowState p := by
  have hsound := executed_sound hm hx
  rw [hevent] at hsound
  rcases exec_getByProject cfg x.draw x.pre p with ⟨e, _, hexec⟩ | ⟨token', hfault, hview, hexec⟩
  . change Except.ok token = (Op.exec cfg (.serviceToken (.getByProject p)) x.draw x.pre).1 at hsound
    rw [hexec] at hsound
    contradiction
  . change Except.ok token = (Op.exec cfg (.serviceToken (.getByProject p)) x.draw x.pre).1 at hsound
    rw [hexec] at hsound
    injection hsound with hsound
    subst hsound
    exact ⟨hfault, hview⟩

theorem executed_unread {i : Nat} {x : Executed Api Server Draw} (hx : x ∈ executedBy i m.log)
    {e : String} (hevent : x.event = ⟨.serviceToken (.getByProject p), .error e⟩)
    : x.draw.fault.isSome = true := by
  have hsound := executed_sound hm hx
  rw [hevent] at hsound
  change Except.error e = (Op.exec cfg (.serviceToken (.getByProject p)) x.draw x.pre).1 at hsound
  rcases exec_getByProject cfg x.draw x.pre p with ⟨e, hfault, _⟩ | ⟨token', _, _, hexec⟩
  . exact hfault
  . rw [hexec] at hsound
    contradiction

theorem executed_drew {i : Nat} {x : Executed Api Server Draw} (hx : x ∈ executedBy i m.log)
    {raw : List UInt8} (hevent : x.event = drewBytes raw)
    : x.draw.hostFault.isSome = false ∧ raw = x.draw.bytes.toList := by
  have hsound := executed_sound hm hx
  rw [hevent] at hsound
  change Except.ok raw = (Op.exec cfg (.host .random) x.draw x.pre).1 at hsound
  rcases exec_random cfg x.draw x.pre with ⟨e, _, hexec⟩ | ⟨hfault, hexec⟩
  . rw [hexec] at hsound
    contradiction
  . rw [hexec] at hsound
    injection hsound with hsound
    exact ⟨hfault, hsound⟩

theorem executed_undrawn {i : Nat} {x : Executed Api Server Draw} (hx : x ∈ executedBy i m.log)
    {e : String} (hevent : x.event = ⟨.host .random, .error e⟩) : x.draw.hostFault.isSome = true := by
  have hsound := executed_sound hm hx
  rw [hevent] at hsound
  change Except.error e = (Op.exec cfg (.host .random) x.draw x.pre).1 at hsound
  rcases exec_random cfg x.draw x.pre with ⟨e, hfault, _⟩ | ⟨_, hexec⟩
  . exact hfault
  . rw [hexec] at hsound
    contradiction

theorem executed_unstored {i : Nat} {x : Executed Api Server Draw} (hx : x ∈ executedBy i m.log)
    {tokenHash tokenPrefix e : String}
    (hevent : x.event = ⟨.serviceToken (.upsert p tokenHash tokenPrefix), .error e⟩)
    : x.draw.executes [p.toString, tokenHash, tokenPrefix] = false := by
  have hsound := executed_sound hm hx
  rw [hevent] at hsound
  have hsound : Except.error e
      = (Op.exec cfg (.serviceToken (.upsert p tokenHash tokenPrefix)) x.draw x.pre).1 := hsound
  rcases exec_upsert cfg x.draw x.pre p tokenHash tokenPrefix with
    ⟨e', hexecutes, _⟩ | ⟨old, s', _, hexec, _⟩
  . exact hexecutes
  . rw [hexec] at hsound
    contradiction

theorem executed_unrevoked {i : Nat} {x : Executed Api Server Draw} (hx : x ∈ executedBy i m.log)
    {e : String} (hevent : x.event = ⟨.serviceToken (.revoke p), .error e⟩)
    : x.draw.fault.isSome = true := by
  have hsound := executed_sound hm hx
  rw [hevent] at hsound
  have hsound : Except.error e = (Op.exec cfg (.serviceToken (.revoke p)) x.draw x.pre).1 := hsound
  rcases exec_revoke cfg x.draw x.pre p with ⟨e', hfault, _⟩ | ⟨s', _, hexec, _⟩
  . exact hfault
  . rw [hexec] at hsound
    contradiction

/--
What an entry does to the row of the project.
-/
theorem row_cases {e : TokenEntry} {rest : List TokenEntry} (he : e :: rest <:+ m.log) (p : Project) :
    ((e.post (semantics cfg)).rowState p = e.pre.rowState p ∧ ¬Wrote p e)
      ∨ (∃ tokenHash tokenPrefix old, Did e (.serviceToken (.upsert p tokenHash tokenPrefix)) (.ok old)
        ∧ (e.post (semantics cfg)).rowState p = some (tokenHash, true))
      ∨ (Did e (.serviceToken (.revoke p)) (.ok (e.pre.rowState p).active)
        ∧ (e.post (semantics cfg)).rowState p = (e.pre.rowState p).revoked) := by
  by_cases hcall : ∃ ev d, e.what = .call ev d
  . rcases hcall with ⟨⟨o, r⟩, d, hw⟩
    have hpost : e.post (semantics cfg) = (Op.exec cfg o d e.pre).2 := post_call hw
    have hsound : r = (Op.exec cfg o d e.pre).1 := hm.sound e (he.mem List.mem_cons_self) _ d hw
    by_cases hupsert : ∃ tokenHash tokenPrefix, o = .serviceToken (.upsert p tokenHash tokenPrefix)
    . rcases hupsert with ⟨tokenHash, tokenPrefix, rfl⟩
      rcases exec_upsert cfg d e.pre p tokenHash tokenPrefix with
        ⟨_, _, hexec⟩ | ⟨old, s', _, hexec, hrow⟩
      . rw [hexec] at hpost hsound
        refine .inl ⟨by rw [hpost], ?_⟩
        rintro (⟨_, _, _, _, hw'⟩ | ⟨_, _, hw'⟩)
        . rw [hw, hsound] at hw'
          cases hw'
        . rw [hw] at hw'
          cases hw'
      . rw [hexec] at hpost hsound
        subst hsound
        exact .inr (.inl ⟨tokenHash, tokenPrefix, old, ⟨d, hw⟩, by rw [hpost, hrow]⟩)
    . by_cases hrevoke : o = .serviceToken (.revoke p)
      . subst hrevoke
        rcases exec_revoke cfg d e.pre p with ⟨_, _, hexec⟩ | ⟨s', _, hexec, hrow⟩
        . rw [hexec] at hpost hsound
          refine .inl ⟨by rw [hpost], ?_⟩
          rintro (⟨_, _, _, _, hw'⟩ | ⟨_, _, hw'⟩)
          . rw [hw] at hw'
            cases hw'
          . rw [hw, hsound] at hw'
            cases hw'
        . rw [hexec] at hpost hsound
          subst hsound
          exact .inr (.inr ⟨⟨d, hw⟩, by rw [hpost, hrow]⟩)
      . refine .inl ⟨?_, ?_⟩
        . rw [hpost]
          apply rowState_exec
          . intro tokenHash tokenPrefix ho
            exact hupsert ⟨tokenHash, tokenPrefix, ho⟩
          . exact hrevoke
          . rintro tokenHash rfl
            rcases hm.called (ProjectTokenRequest.handle_conforms cfg) he hw with ⟨q, _, hallowed⟩
            exact hallowed
        . rintro (⟨tokenHash, tokenPrefix, _, hdid⟩ | ⟨_, hdid⟩)
          . exact hupsert ⟨tokenHash, tokenPrefix, Did.unique ⟨d, hw⟩ hdid⟩
          . exact hrevoke (Did.unique ⟨d, hw⟩ hdid)
  . refine .inl ⟨?_, ?_⟩
    . rcases e.post_cases (semantics cfg) with hpost | ⟨ev, d, hw, _⟩
      . rw [hpost]
      . exact absurd ⟨ev, d, hw⟩ hcall
    . rintro (⟨_, _, _, d, hw⟩ | ⟨_, d, hw⟩)
      . exact hcall ⟨_, d, hw⟩
      . exact hcall ⟨_, d, hw⟩

end TokenMachine

end Aspectus
