import Aspectus.Discipline.Calls
import Aspectus.Interaction.Run
import Aspectus.Store.Rows

/-!
This module contains what the requests for the service token of a project do to its row, if each of them
is served on its own.
-/

namespace Aspectus

open Interaction Prog Statement

/--
The project whose service token a request creates, rotates or revokes.
-/
def ProjectTokenRequest.project : ProjectTokenRequest → Option Project
  | .create project => Project.parse project
  | .rotate project => Project.parse project
  | .revoke project => Project.parse project
  | _ => none

/--
The hash of a project's token, and whether the token is active.
-/
abbrev RowState : Type := Option (String × Bool)

namespace RowState

def active (row : RowState) : Bool :=
  row.any fun row => row.2

def revoked (row : RowState) : RowState :=
  row.map fun row => (row.1, false)

/--
What a request has read of the row.
-/
def ofStored (token : Option StoredServiceToken) : RowState :=
  token.map fun token => (token.tokenHash, token.isActive)

end RowState

def Server.rowState (s : Server) (p : Project) : RowState :=
  (s.serviceTokens.lookup p.toString).map fun row => (row.tokenHash, row.revokedAt.isNone)

/--
A statement with these parameters is executed.
-/
def Draw.executes (d : Draw) (params : List String) : Bool :=
  d.fault.isNone && params.all storable

namespace ServiceTokens

/--
The status of a request that stores a new token, and the row after it.
-/
def stored (cfg : Config) (p : Project) (status : Nat) (draws : Nat → Draw) (row : RowState) :
    Nat × RowState :=
  let created := ServiceTokenCreator.created cfg p (draws 1).bytes.toList
  if (draws 1).hostFault.isSome then
    (500, row)
  else if (draws 2).executes [p.toString, created.tokenHash, created.tokenPrefix] then
    (status, some (created.tokenHash, true))
  else
    (500, row)

/--
The status of a request about the project, and the row after it.
-/
def outcome (cfg : Config) (p : Project) (draws : Nat → Draw) (row : RowState) :
    ProjectTokenRequest → Nat × RowState
  | .create _ =>
    if (draws 0).fault.isSome then
      (500, row)
    else if row.active then
      (409, row)
    else
      stored cfg p 201 draws row
  | .rotate _ =>
    if (draws 0).fault.isSome then
      (500, row)
    else if row.active then
      stored cfg p 200 draws row
    else
      (404, row)
  | .revoke _ =>
    if (draws 0).fault.isSome then
      (500, row)
    else if row.active then
      if (draws 1).fault.isSome then (500, row) else (204, row.revoked)
    else
      (404, row)
  | _ => (200, row)

end ServiceTokens

section Statements

variable {d : Draw} {s : Server} {p : Project}

theorem run_executes {α : Type} {params : List String} {f : Server → Result (α × Server)} {a : α}
    {s' : Server} (h : d.executes params = true) (hf : f s = .ok (a, s'))
    : Statement.run d params f s = (.ok a, s') := by
  unfold Draw.executes at h
  rw [Bool.and_eq_true, Option.isNone_iff_eq_none] at h
  exact run_healthy h.1 h.2 hf

theorem run_not_executes {α : Type} {params : List String} {f : Server → Result (α × Server)}
    (h : d.executes params = false) : ∃ e, Statement.run d params f s = (.error e, s) := by
  unfold Draw.executes at h
  unfold Statement.run
  cases hfault : d.fault with
  | some e => exact ⟨e, rfl⟩
  | none =>
    simp only [hfault, Option.isNone_none, Bool.true_and] at h
    simp only [h]
    exact ⟨_, rfl⟩

theorem executes_project (d : Draw) (p : Project) :
    d.executes [p.toString] = d.fault.isNone := by
  have hstorable : storable p.toString = true := by
    cases p with
    | _ => decide
  simp [Draw.executes, hstorable]

theorem ofStored_lookup (s : Server) (p : Project) :
    RowState.ofStored ((s.serviceTokens.lookup p.toString).bind (decodeServiceToken p.toString))
      = s.rowState p := by
  unfold RowState.ofStored Server.rowState
  cases s.serviceTokens.lookup p.toString with
  | none => rfl
  | some row =>
    simp only [Option.bind_some, Option.map_some, decodeServiceToken, Project.parse_toString]
    rfl

/--
The row is read as it is, unless there is a fault.
-/
theorem exec_getByProject (cfg : Config) (d : Draw) (s : Server) (p : Project) :
    (∃ e, d.fault.isSome = true ∧ Op.exec cfg (.serviceToken (.getByProject p)) d s = (.error e, s))
      ∨ ∃ token, d.fault.isSome = false ∧ RowState.ofStored token = s.rowState p
        ∧ Op.exec cfg (.serviceToken (.getByProject p)) d s = (.ok token, s) := by
  cases hfault : d.fault with
  | some e =>
    have hexec : d.executes [p.toString] = false := by simp [executes_project, hfault]
    rcases run_not_executes (s := s) (f := fun s => (getServiceToken p s).map fun a => (a, s))
      hexec with ⟨e', he'⟩
    exact .inl ⟨e', rfl, he'⟩
  | none =>
    have hexec : d.executes [p.toString] = true := by simp [executes_project, hfault]
    refine .inr ⟨_, rfl, ofStored_lookup s p, ?_⟩
    exact run_executes (f := fun s => (getServiceToken p s).map fun a => (a, s)) hexec rfl

theorem exec_random (cfg : Config) (d : Draw) (s : Server) :
    (∃ e, d.hostFault.isSome = true ∧ Op.exec cfg (.host .random) d s = (.error e, s))
      ∨ (d.hostFault.isSome = false
        ∧ Op.exec cfg (.host .random) d s = (.ok d.bytes.toList, s)) := by
  change (∃ e, _ ∧ (d.host d.bytes.toList, s) = (.error e, s))
    ∨ (_ ∧ (d.host d.bytes.toList, s) = (.ok d.bytes.toList, s))
  unfold Draw.host
  cases d.hostFault with
  | some e => exact .inl ⟨e, rfl, rfl⟩
  | none => exact .inr ⟨rfl, rfl⟩

/--
A token that is stored is active.
-/
theorem exec_upsert (cfg : Config) (d : Draw) (s : Server) (p : Project)
    (tokenHash tokenPrefix : String) :
    (∃ e, d.executes [p.toString, tokenHash, tokenPrefix] = false
        ∧ Op.exec cfg (.serviceToken (.upsert p tokenHash tokenPrefix)) d s = (.error e, s))
      ∨ ∃ old s', d.executes [p.toString, tokenHash, tokenPrefix] = true
        ∧ Op.exec cfg (.serviceToken (.upsert p tokenHash tokenPrefix)) d s = (.ok old, s')
        ∧ s'.rowState p = some (tokenHash, true) := by
  cases hexec : d.executes [p.toString, tokenHash, tokenPrefix] with
  | false =>
    rcases run_not_executes (s := s) (f := upsertServiceToken p tokenHash tokenPrefix) hexec with
      ⟨e, he⟩
    exact .inl ⟨e, rfl, he⟩
  | true =>
    refine .inr ⟨_, _, rfl, run_executes (f := upsertServiceToken p tokenHash tokenPrefix) hexec rfl, ?_⟩
    unfold Server.rowState
    rw [AList.lookup_insert]
    rfl

/--
Only an active token is revoked.
-/
theorem exec_revoke (cfg : Config) (d : Draw) (s : Server) (p : Project) :
    (∃ e, d.fault.isSome = true ∧ Op.exec cfg (.serviceToken (.revoke p)) d s = (.error e, s))
      ∨ ∃ s', d.fault.isSome = false
        ∧ Op.exec cfg (.serviceToken (.revoke p)) d s = (.ok (s.rowState p).active, s')
        ∧ s'.rowState p = (s.rowState p).revoked := by
  cases hfault : d.fault with
  | some e =>
    have hexec : d.executes [p.toString] = false := by simp [executes_project, hfault]
    rcases run_not_executes (s := s) (f := revokeServiceToken p) hexec with ⟨e', he'⟩
    exact .inl ⟨e', rfl, he'⟩
  | none =>
    have hexec : d.executes [p.toString] = true := by simp [executes_project, hfault]
    have hrevoke : ∃ s', revokeServiceToken p s = .ok ((s.rowState p).active, s')
        ∧ s'.rowState p = (s.rowState p).revoked := by
      unfold revokeServiceToken Server.rowState RowState.active RowState.revoked
      cases hrow : s.serviceTokens.lookup p.toString with
      | none => exact ⟨s, rfl, by rw [hrow]; rfl⟩
      | some row =>
        cases hrevoked : row.revokedAt with
        | none =>
          refine ⟨_, by simp [hrevoked]; rfl, ?_⟩
          simp [hrow]
        | some t =>
          refine ⟨s, by simp [hrevoked], ?_⟩
          simp [hrow, hrevoked]
    rcases hrevoke with ⟨s', hs', hrow⟩
    exact .inr ⟨s', rfl, run_executes (f := revokeServiceToken p) hexec hs', hrow⟩

end Statements

namespace ServiceTokens

variable {cfg : Config} {p : Project}

theorem managed_ok (hp : p ≠ .aspectus) (next : Project → App Response) :
    managed (.ok p) next = next p := by
  unfold managed rejectAspectus
  dsimp only
  rw [if_neg hp]

theorem parseProject_ok {name : String} (h : Project.parse name = some p) :
    parseProject name = .ok p := by
  unfold parseProject
  rw [h]

theorem parseProjectParam_ok {name : String} (h : Project.parse name = some p) :
    parseProjectParam name = .ok p := by
  unfold parseProjectParam
  rw [h]

/--
An operation that does not concern service tokens.
-/
def elsewhere (o : Op) : Prop :=
  ∀ o', o ≠ .serviceToken o'

theorem auditEvent_elsewhere (params : AuditAuthParams) :
    (auditEvent params).Uses fun (o : Op) => elsewhere o :=
  auditEvent_uses nofun nofun fun _ _ _ _ => nofun

/--
What is done after the row was written concerns other tables, and determines no status.
-/
theorem respond_conforms (status : Nat) (action : String) (created : CreatedServiceToken)
    (h : List (Event Api)) :
    (respond status action created).Conforms (fun _ o => elsewhere o)
      (fun _ a => a.status = status) h := by
  unfold respond appendAuditLog
  apply (auditEvent_elsewhere _).conforms_bind
  . intro new o _ ho
    exact ho
  . intro new _ _
    apply conforms_perform_bind nofun
    intro now
    exact rfl

theorem rowState_elsewhere {o : Op} (ho : elsewhere o) (d : Draw) (s : Server) (p : Project) :
    (o.exec cfg d s).2.rowState p = s.rowState p := by
  unfold Server.rowState
  rw [(o.exec_framed cfg d s).serviceTokens ho]

theorem run_elsewhere {prog : App Response} {status : Nat}
    (h : prog.Conforms (fun _ o => elsewhere o) (fun _ a => a.status = status) [])
    (draws : Nat → Draw) (s : Server) (p : Project)
    : (prog.run (semantics cfg) draws s).1.status = status
        ∧ (prog.run (semantics cfg) draws s).2.2.rowState p = s.rowState p := by
  have hstep : ∀ (h : List (Event Api)) (o : Op) d (s' : Server), elsewhere o →
      s'.rowState p = s.rowState p → ((semantics cfg).exec o d s').2.rowState p = s.rowState p := fun _ o d s' ho hs' =>
    (rowState_elsewhere ho d s' p).trans hs'
  rcases run_inv h draws (P := fun _ (s' : Server) => s'.rowState p = s.rowState p) rfl hstep with
    ⟨_, hstatus, hrow⟩
  exact ⟨hstatus, hrow⟩

section Run

variable (draws : Nat → Draw) (s : Server)

/--
Storing a new token, followed by something that concerns other tables.
-/
theorem store_run (next : CreatedServiceToken → App Response) {failed : Response} {status : Nat}
    (hfailed : failed.status = 500)
    (hnext : ∀ created, (next created).Conforms (fun _ o => elsewhere o)
      (fun _ a => a.status = status) [])
    {prog : App Response} (hprog : prog = do
      match ← ServiceTokenCreator.create cfg p with
      | .error e => return (ProblemDetails.ofCoreError e).intoResponse
      | .ok created =>
        match ← App.serviceToken (.upsert created.project created.tokenHash created.tokenPrefix) with
        | .ok _ => next created
        | .error _ => return failed)
    : (prog.run (semantics cfg) (fun n => draws (n + 1)) s).1.status
          = (stored cfg p status draws (s.rowState p)).1
        ∧ (prog.run (semantics cfg) (fun n => draws (n + 1)) s).2.2.rowState p
          = (stored cfg p status draws (s.rowState p)).2 := by
  subst hprog
  unfold ServiceTokenCreator.create App.host App.serviceToken stored
  dsimp only
  rw [run_bind, run_perform_bind]
  rcases exec_random cfg (draws 1) s with ⟨e, hfault, hexec⟩ | ⟨hfault, hexec⟩
  . have hexec : (semantics cfg).exec (.host .random) (draws (0 + 1)) s = _ := hexec
    rw [hexec, hfault]
    exact ⟨rfl, rfl⟩
  . have hexec : (semantics cfg).exec (.host .random) (draws (0 + 1)) s = _ := hexec
    rw [hexec, hfault]
    dsimp only
    rw [pure_def, run_pure]
    dsimp only
    have hproject : (ServiceTokenCreator.created cfg p (draws 1).bytes.toList).project = p := rfl
    generalize ServiceTokenCreator.created cfg p (draws 1).bytes.toList = created at hproject
    subst hproject
    rw [run_perform_bind]
    rcases exec_upsert cfg (draws 2) s created.project created.tokenHash created.tokenPrefix with
      ⟨e, hexecutes, hstore⟩ | ⟨old, s', hexecutes, hstore, hrow⟩
    . have hstore : (semantics cfg).exec (.serviceToken (.upsert created.project created.tokenHash
          created.tokenPrefix)) (draws (0 + 1 + 1)) s = _ := hstore
      rw [hstore, hexecutes]
      exact ⟨hfailed, rfl⟩
    . have hstore : (semantics cfg).exec (.serviceToken (.upsert created.project created.tokenHash
          created.tokenPrefix)) (draws (0 + 1 + 1)) s = _ := hstore
      rw [hstore, hexecutes]
      dsimp only
      rcases run_elsewhere (hnext created) (fun n => draws (n + 1 + 1 + 1)) s' created.project with
        ⟨hstatus, hkept⟩
      exact ⟨hstatus, hkept.trans hrow⟩

theorem persist_run (p : Project) :
    ((persist cfg p).run (semantics cfg) (fun n => draws (n + 1)) s).1.status
        = (stored cfg p 201 draws (s.rowState p)).1
      ∧ ((persist cfg p).run (semantics cfg) (fun n => draws (n + 1)) s).2.2.rowState p
        = (stored cfg p 201 draws (s.rowState p)).2 :=
  store_run draws s _ rfl (fun created => respond_conforms 201 _ created []) rfl

theorem replace_run (p : Project) (existing : StoredServiceToken) :
    ((replace cfg p existing).run (semantics cfg) (fun n => draws (n + 1)) s).1.status
        = (stored cfg p 200 draws (s.rowState p)).1
      ∧ ((replace cfg p existing).run (semantics cfg) (fun n => draws (n + 1)) s).2.2.rowState p
        = (stored cfg p 200 draws (s.rowState p)).2 := by
  refine store_run draws s (fun created => do
    ServiceTokenVerifier.invalidateByHash existing.tokenHash
    respond 200 "service_token.rotated" created) rfl (fun created => ?_) rfl
  apply conforms_perform_bind nofun
  intro deleted
  apply respond_conforms

theorem retire_run (existing : StoredServiceToken) (hactive : (s.rowState p).active = true) :
    ((retire p existing).run (semantics cfg) (fun n => draws (n + 1)) s).1.status
        = (if (draws 1).fault.isSome then 500 else 204)
      ∧ ((retire p existing).run (semantics cfg) (fun n => draws (n + 1)) s).2.2.rowState p
        = (if (draws 1).fault.isSome then s.rowState p else (s.rowState p).revoked) := by
  unfold retire App.serviceToken
  rw [run_perform_bind]
  rcases exec_revoke cfg (draws 1) s p with ⟨e, hfault, hexec⟩ | ⟨s', hfault, hexec, hrow⟩
  . have hexec : (semantics cfg).exec (.serviceToken (.revoke p)) (draws (0 + 1)) s = _ := hexec
    rw [hexec, hfault]
    exact ⟨rfl, rfl⟩
  . have hexec : (semantics cfg).exec (.serviceToken (.revoke p)) (draws (0 + 1)) s = _ := hexec
    rw [hexec, hfault, hactive]
    dsimp only
    have hrest : (ServiceTokenVerifier.invalidateByHash existing.tokenHash >>= fun _ =>
        appendAuditLog "service_token.revoked" p [] >>= fun _ =>
          (Pure.pure Response.noContent : App Response)).Conforms (fun _ o => elsewhere o)
            (fun _ a => a.status = 204) [] := by
      apply conforms_perform_bind nofun
      intro deleted
      apply (auditEvent_elsewhere _).conforms_bind
      . intro new o _ ho
        exact ho
      . intro new _ _
        exact rfl
    rcases run_elsewhere hrest (fun n => draws (n + 1 + 1)) s' p with ⟨hstatus, hkept⟩
    exact ⟨hstatus, hkept.trans hrow⟩

theorem active_ofStored (token : Option StoredServiceToken) :
    (RowState.ofStored token).active = token.any StoredServiceToken.isActive := by
  cases token with
  | _ => rfl

/--
A request that needs an active token, which `found` is the outcome for.
-/
theorem withActive_run {next : StoredServiceToken → App Response} (found : Nat × RowState)
    (hnext : (s.rowState p).active = true → ∀ existing,
      ((next existing).run (semantics cfg) (fun n => draws (n + 1)) s).1.status = found.1
        ∧ ((next existing).run (semantics cfg) (fun n => draws (n + 1)) s).2.2.rowState p = found.2)
    (result : Nat × RowState) (hresult : result = if (draws 0).fault.isSome then (500, s.rowState p)
      else if (s.rowState p).active then found else (404, s.rowState p))
    : ((withActive p next).run (semantics cfg) draws s).1.status = result.1
        ∧ ((withActive p next).run (semantics cfg) draws s).2.2.rowState p = result.2 := by
  subst hresult
  unfold withActive App.serviceToken
  rw [run_perform_bind]
  rcases exec_getByProject cfg (draws 0) s p with ⟨e, hfault, hexec⟩ | ⟨token, hfault, hview, hexec⟩
  . have hexec : (semantics cfg).exec (.serviceToken (.getByProject p)) (draws 0) s = _ := hexec
    rw [hexec, hfault]
    exact ⟨rfl, rfl⟩
  . have hexec : (semantics cfg).exec (.serviceToken (.getByProject p)) (draws 0) s = _ := hexec
    have hactive : (s.rowState p).active = token.any StoredServiceToken.isActive := by
      rw [← hview, active_ofStored]
    rw [hexec, hfault, hactive]
    cases token with
    | none => exact ⟨rfl, rfl⟩
    | some existing =>
      dsimp only
      rw [Option.any_some] at hactive ⊢
      by_cases hexisting : existing.isActive = true
      . rw [if_pos hexisting]
        simp only [hexisting]
        exact hnext (hactive.trans hexisting) existing
      . rw [if_neg hexisting]
        simp only [hexisting]
        exact ⟨rfl, rfl⟩

variable (cfg) in
/--
Every request about a project does to its row what its outcome says.
-/
theorem run_outcome {q : ProjectTokenRequest} (hq : q.project = some p) (hp : p ≠ .aspectus) :
    ((q.handle cfg).run (semantics cfg) draws s).1.status
        = (outcome cfg p draws (s.rowState p) q).1
      ∧ ((q.handle cfg).run (semantics cfg) draws s).2.2.rowState p
        = (outcome cfg p draws (s.rowState p) q).2 := by
  cases q with
  | create name =>
    unfold ProjectTokenRequest.handle create outcome
    dsimp only
    rw [parseProject_ok hq, managed_ok hp]
    unfold App.serviceToken
    rw [run_perform_bind]
    rcases exec_getByProject cfg (draws 0) s p with ⟨e, hfault, hexec⟩ | ⟨token, hfault, hview, hexec⟩
    . have hexec : (semantics cfg).exec (.serviceToken (.getByProject p)) (draws 0) s = _ := hexec
      rw [hexec, hfault]
      exact ⟨rfl, rfl⟩
    . have hexec : (semantics cfg).exec (.serviceToken (.getByProject p)) (draws 0) s = _ := hexec
      rw [hexec, hfault, ← hview, active_ofStored]
      cases token with
      | none =>
        rw [hview]
        exact persist_run draws s p
      | some existing =>
        cases hactive : existing.isActive with
        | true =>
          simp only [Option.any_some, hactive]
          exact ⟨rfl, hview.symm⟩
        | false =>
          simp only [Option.any_some, hactive]
          rw [hview]
          exact persist_run draws s p
  | rotate name =>
    unfold ProjectTokenRequest.handle rotate outcome
    dsimp only
    rw [parseProjectParam_ok hq, managed_ok hp]
    exact withActive_run draws s _ (fun _ existing => replace_run draws s p existing) _ rfl
  | revoke name =>
    unfold ProjectTokenRequest.handle revoke outcome
    dsimp only
    rw [parseProjectParam_ok hq, managed_ok hp]
    refine withActive_run draws s (if (draws 1).fault.isSome then 500 else 204,
      if (draws 1).fault.isSome then s.rowState p else (s.rowState p).revoked) (fun hactive existing => retire_run draws s existing hactive) _ ?_
    split
    . rfl
    . split
      . split
        . rfl
        . rfl
      . rfl
  | _ => contradiction

end Run

end ServiceTokens

end Aspectus
