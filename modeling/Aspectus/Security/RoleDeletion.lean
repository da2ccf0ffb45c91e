import Aspectus.Discipline.Passwords
import Aspectus.Routes.RoleDeletion
import Aspectus.Security.Sample
import Aspectus.Store.Frame

/-!
This module contains what the deletion of a role leaves behind, whatever happens between its statements: either the
role is gone and nothing refers to it, or nothing was changed.
-/

namespace Aspectus

open Interaction Prog Statement

variable {cfg : Config} {s s' : Server} {d : Draw} {f : Option Failure} {w w' : Uncommitted} {id : String}

/--
The role does not exist, and no row refers to it.
-/
structure RoleGone (id : String) (s : Server) : Prop where
  role : s.roles.lookup id = none
  users : ∀ k ur, s.usersRoles.lookup k = some ur → ur.roleId ≠ id
  scopes : ∀ k rs, s.rolesScopes.lookup k = some rs → rs.roleId ≠ id

/--
Only rows that were deleted in the transaction refer to the roles that were.
-/
def Unreferenced (s : Server) (w : Uncommitted) : Prop :=
  ∀ id ∈ w.roles, (∀ k ur, s.usersRoles.lookup k = some ur → ur.roleId ≠ id)
    ∧ ∀ k rs, s.rolesScopes.lookup k = some rs → rs.roleId = id → k ∈ w.rolesScopes

section Discipline

abbrev DeletionEvent : Type :=
  Event (Api.tx Deletion)

def Deleted (id : String) (n : Nat) : DeletionEvent :=
  ⟨.statement (.deleteRole id), .ok n⟩

def Committed (h : List DeletionEvent) : Prop :=
  (⟨.commit, .ok ()⟩ : DeletionEvent) ∈ h

/--
What the deletion may do after the events `h`: it only commits right after it has deleted the role, and only then
does anything outside of the transaction.
-/
def DeletionAllowed (id : String) (h : List DeletionEvent) : TxOp Api Deletion → Prop
  | .statement _ => True
  | .commit => ∃ n rest, h = Deleted id (n + 1) :: rest
  | .outside o => Committed h ∧ o.isAfterthought = true

/--
The commit was answered with an error.
-/
def CommitFailed (h : List DeletionEvent) (e : String) : Prop :=
  (⟨.commit, .error e⟩ : DeletionEvent) ∈ h

/--
The commit was not tried yet.
-/
def Untried (h : List DeletionEvent) : Prop :=
  ∀ r, (⟨.commit, r⟩ : DeletionEvent) ∉ h

/--
The answer says whether the commit was answered with success, and passes on its error otherwise.
-/
structure DeletionAnswered (h : List DeletionEvent) (a : Response) : Prop where
  status : a.status = 204 ↔ Committed h
  failed : ∀ e, CommitFailed h e → a = internalError e

theorem Untried.answered {h : List DeletionEvent} (hopen : Untried h) {a : Response} (ha : a.status ≠ 204) :
    DeletionAnswered h a :=
  ⟨iff_of_false ha (hopen _), fun _ he => absurd he (hopen _)⟩

theorem outside_uses {U : Op → Prop} {p : App Unit} (hp : p.Uses U) :
    (p.outside : Prog (Api.tx Deletion) Unit).Uses fun o : TxOp Api Deletion => ∃ o', o = .outside o' ∧ U o' := by
  induction p with
  | pure a => trivial
  | call o k ih => exact ⟨⟨o, rfl, hp.1⟩, fun r => ih r (hp.2 r)⟩

theorem audit_afterthought (tenantId action roleId : String) (metadata : List (String × Json)) :
    (roles.audit tenantId action roleId metadata).Uses fun o : Op => o.isAfterthought = true :=
  auditEvent_afterthought _

theorem Untried.statement {h : List DeletionEvent} (hopen : Untried h) (o : DeletionStatement) (r : o.Res) :
    Untried (⟨.statement o, r⟩ :: h) := by
  intro r'
  refine List.not_mem_cons_of_ne_of_not_mem ?_ (hopen r')
  intro heq
  injection heq with heq
  contradiction

/--
The rule for a statement of the transaction.
-/
theorem conforms_statement {o : DeletionStatement} {k : o.Res → Prog (Api.tx Deletion) Response}
    {h : List DeletionEvent} (hopen : Untried h)
    (hk : ∀ r, Untried (⟨.statement o, r⟩ :: h) →
      (k r).Conforms (DeletionAllowed id) DeletionAnswered (⟨.statement o, r⟩ :: h))
    : (roles.deletion.statement o >>= k).Conforms (DeletionAllowed id) DeletionAnswered h :=
  conforms_perform_bind (by trivial) fun r => hk r (hopen.statement o r)

namespace roles.deletion

variable {role : Role} {h : List DeletionEvent}

theorem finish_conforms {n : Nat} (hopen : Untried (Deleted id (n + 1) :: h)) :
    (finish id role).Conforms (DeletionAllowed id) DeletionAnswered (Deleted id (n + 1) :: h) := by
  unfold finish
  refine conforms_perform_bind ⟨n, h, rfl⟩ ?_
  rintro (e | _)
  . constructor
    . refine iff_of_false nofun (List.not_mem_cons_of_ne_of_not_mem ?_ (hopen _))
      intro heq
      injection heq with _ heq
      cases heq
    . intro e' he'
      rcases List.mem_cons.mp he' with heq | hold
      . injection heq with _ heq
        cases heq
        rfl
      . exact absurd hold (hopen _)
  . apply (outside_uses (audit_afterthought "" "role.deleted" id [("name", .str role.name)])).conforms_bind
    . rintro new _ _ ⟨o, rfl, ho⟩
      exact ⟨List.mem_append_right _ List.mem_cons_self, ho⟩
    . intro new _ hnew
      refine ⟨iff_of_true rfl (List.mem_append_right _ List.mem_cons_self), fun e he => ?_⟩
      exfalso
      rcases List.mem_append.mp he with hmem | hmem
      . rcases hnew _ hmem with ⟨o, ho, _⟩
        cases ho
      . rcases List.mem_cons.mp hmem with heq | hold
        . injection heq with _ heq
          cases heq
        . exact hopen _ hold

theorem deleteRows_conforms (hopen : Untried h) :
    (deleteRows id role).Conforms (DeletionAllowed id) DeletionAnswered h := by
  unfold deleteRows
  apply conforms_statement hopen
  rintro (e | _) hopen
  . exact hopen.answered nofun
  . apply conforms_statement hopen
    rintro (e | _ | n) hopen
    . exact hopen.answered nofun
    . exact hopen.answered nofun
    . exact finish_conforms hopen

end roles.deletion

open roles.deletion in
theorem deletion_conforms (id : String) :
    (roles.deletion id).Conforms (DeletionAllowed id) DeletionAnswered [] := by
  unfold roles.deletion
  apply conforms_statement fun _ => List.not_mem_nil
  rintro (e | _) hopen
  . exact hopen.answered nofun
  . unfold checkRole
    apply conforms_statement hopen
    rintro (e | _ | role) hopen
    . exact hopen.answered nofun
    . exact hopen.answered nofun
    . dsimp only
      split
      . exact hopen.answered nofun
      . unfold checkAssignments
        apply conforms_statement hopen
        intro users hopen
        dsimp only
        split
        . exact hopen.answered nofun
        . exact deleteRows_conforms hopen

end Discipline

section References

/--
Rows that refer to a role are only added for a role that exists, and no role comes into being.
-/
structure Refers (o : Op) (s s' : Server) : Prop where
  roles : ∀ id, s.roles.lookup id = none → s'.roles.lookup id = none
  users : ∀ k ur, s'.usersRoles.lookup k = some ur → s.usersRoles.lookup k = some ur
    ∨ (∃ r, s.roles.lookup ur.roleId = some r) ∧ ∀ w, Uncommitted.waits o s w = false → ur.roleId ∉ w.roles
  scopes : ∀ k rs, s'.rolesScopes.lookup k = some rs → s.rolesScopes.lookup k = some rs
    ∨ (∃ r, s.roles.lookup rs.roleId = some r) ∧ ∀ w, Uncommitted.waits o s w = false → rs.roleId ∉ w.roles

/--
The operation does not insert a role.
-/
def Op.createsNoRole : Op → Bool
  | .role (.insert ..) => false
  | _ => true

theorem Refers.refl (o : Op) (s : Server) : Refers o s s :=
  ⟨fun _ hid => hid, fun _ _ hrow => .inl hrow, fun _ _ hrow => .inl hrow⟩

theorem Refers.of_eq {o : Op} (hroles : s'.roles = s.roles) (husers : s'.usersRoles = s.usersRoles)
    (hscopes : s'.rolesScopes = s.rolesScopes) : Refers o s s' := by
  refine ⟨?_, ?_, ?_⟩
  . rw [hroles]
    exact fun _ hid => hid
  . rw [husers]
    exact fun _ _ hrow => .inl hrow
  . rw [hscopes]
    exact fun _ _ hrow => .inl hrow

theorem Refers.of_assigned {o : Op} {rowId userId roleId : String} (h : Assigned rowId userId roleId s s')
    (hwaits : ∀ w : Uncommitted, Uncommitted.waits o s w = false → roleId ∉ w.roles) : Refers o s s' := by
  rcases h.store with ⟨usersRoles, hnew, rfl⟩
  rcases h.role with ⟨r, hrole, _⟩
  refine ⟨fun _ hid => hid, ?_, fun _ _ hrow => .inl hrow⟩
  intro k ur hrow
  simp only [Table.lookup_insertNew hnew] at hrow
  split at hrow
  . injection hrow with hrow
    subst hrow
    exact .inr ⟨⟨r, hrole⟩, hwaits⟩
  . exact .inl hrow

theorem lookup_of_deleteWhere {κ ρ : Type} [DecidableEq κ] {p : κ → ρ → Bool} {tbl : Table κ ρ} {k : κ} {r : ρ}
    (h : (tbl.deleteWhere p).lookup k = some r) : tbl.lookup k = some r ∧ p k r = false := by
  rw [Table.lookup_deleteWhere, Option.filter_eq_some_iff] at h
  simpa using h

theorem RoleOp.exec_refers (o : RoleOp) (ho : Op.createsNoRole (.role o) = true) :
    Refers (.role o) s (o.exec cfg d s).2 := by
  cases o with
  | insert id name description roleType => contradiction
  | assign rowId userId roleId =>
    apply run_store (P := Refers (.role (.assign rowId userId roleId)) s) (.refl _ _)
    intro _ s' h
    exact .of_assigned (assignRole_ok h) fun w hw => of_decide_eq_false hw
  | assignDefault rowId userId roleId =>
    apply run_store (P := Refers (.role (.assignDefault rowId userId roleId)) s) (.refl _ _)
    intro _ s' h
    rcases assignDefaultRole_ok h with ⟨rfl, _⟩ | hassigned
    . exact .refl _ _
    . exact .of_assigned hassigned fun w hw => of_decide_eq_false hw
  | remove userId roleId =>
    apply run_store (P := Refers (.role (.remove userId roleId)) s) (.refl _ _)
    intro _ s' h
    cases h
    exact ⟨fun _ hid => hid, fun _ _ hrow => .inl (lookup_of_deleteWhere hrow).1, fun _ _ hrow => .inl hrow⟩
  | update id description roleType =>
    apply run_store (P := Refers (.role (.update id description roleType)) s) (.refl _ _)
    intro _ s' h
    rcases updateRole_ok h with ⟨_, _, _, _, rfl⟩
    refine ⟨?_, fun _ _ hrow => .inl hrow, fun _ _ hrow => .inl hrow⟩
    intro id' hid
    rw [Table.lookup_updateAt, hid]
    split <;> rfl
  | delete id =>
    apply run_store (P := Refers (.role (.delete id)) s) (.refl _ _)
    intro _ s' h
    rcases deleteRole_ok h with ⟨_, rfl, _⟩ | ⟨_, _, rfl⟩
    . exact .refl _ _
    . refine ⟨?_, fun _ _ hrow => .inl hrow, fun _ _ hrow => .inl (lookup_of_deleteWhere hrow).1⟩
      intro id' hid
      by_cases heq : id' = id
      . subst heq
        exact AList.lookup_erase _ _
      . rw [AList.lookup_erase_ne heq]
        exact hid
  | deleteScopes id =>
    apply run_store (P := Refers (.role (.deleteScopes id)) s) (.refl _ _)
    intro _ s' h
    cases h
    exact ⟨fun _ hid => hid, fun _ _ hrow => .inl hrow, fun _ _ hrow => .inl (lookup_of_deleteWhere hrow).1⟩
  | addScope rowId roleId scopeId =>
    apply run_store (P := Refers (.role (.addScope rowId roleId scopeId)) s) (.refl _ _)
    intro _ s' h
    rcases addRoleScope_ok h with ⟨rfl, _⟩ | ⟨_, hrole, _, rolesScopes, hnew, rfl⟩
    . exact .refl _ _
    . refine ⟨fun _ hid => hid, fun _ _ hrow => .inl hrow, ?_⟩
      intro k rs hrow
      simp only [Table.lookup_insertNew hnew] at hrow
      split at hrow
      . injection hrow with hrow
        subst hrow
        refine .inr ⟨hrole, ?_⟩
        intro w hw
        exact of_decide_eq_false (Bool.or_eq_false_iff.mp hw).1
      . exact .inl hrow
  | insertScope id name =>
    apply run_store (P := Refers (.role (.insertScope id name)) s) (.refl _ _)
    intro _ s' h
    rcases insertScope_ok h with ⟨_, _, _, _, _, rfl⟩
    exact .of_eq rfl rfl rfl
  | _ => exact query_keeps (P := Refers _ s) (.refl _ _)

theorem Op.exec_refers (o : Op) (ho : o.createsNoRole = true) : Refers o s (o.exec cfg d s).2 := by
  by_cases hgroup : ∃ o', o = .role o'
  . rcases hgroup with ⟨o', rfl⟩
    exact o'.exec_refers ho
  . have hframed := Op.exec_framed cfg d s o
    exact .of_eq (hframed.roles (by simpa using hgroup)) (hframed.usersRoles (by simpa using hgroup))
      (hframed.rolesScopes (by simpa using hgroup))

theorem Unreferenced.exec {o : Op} (h : Unreferenced s w) (ho : o.createsNoRole = true)
    (hwaits : Uncommitted.waits o s w = false) : Unreferenced (o.exec cfg d s).2 w := by
  have hrefers := @Op.exec_refers cfg s d o ho
  intro id hid
  constructor
  . rintro k ur hrow rfl
    rcases hrefers.users k ur hrow with hold | ⟨_, hfree⟩
    . exact (h _ hid).1 k ur hold rfl
    . exact hfree w hwaits hid
  . rintro k rs hrow rfl
    rcases hrefers.scopes k rs hrow with hold | ⟨_, hfree⟩
    . exact (h _ hid).2 k rs hold rfl
    . exact absurd hid (hfree w hwaits)

/--
Nothing refers to a role that does not exist any more.
-/
theorem RoleGone.exec {o : Op} (h : RoleGone id s) (ho : o.createsNoRole = true) :
    RoleGone id (o.exec cfg d s).2 := by
  have hrefers := @Op.exec_refers cfg s d o ho
  refine ⟨hrefers.roles id h.role, ?_, ?_⟩
  . rintro k ur hrow rfl
    rcases hrefers.users k ur hrow with hold | ⟨⟨r, hrole⟩, _⟩
    . exact h.users k ur hold rfl
    . rw [h.role] at hrole
      contradiction
  . rintro k rs hrow rfl
    rcases hrefers.scopes k rs hrow with hold | ⟨⟨r, hrole⟩, _⟩
    . exact h.scopes k rs hold rfl
    . rw [h.role] at hrole
      contradiction

end References

section Statements

/--
A statement is answered with an error and leaves the writes as they are or gives them up, or it was executed.
-/
theorem Uncommitted.run_cases {α : Type} (f : Option Failure) (params : List String) (w : Uncommitted)
    (statement : Result (α × Uncommitted)) :
    ((∃ e, (w.run f params statement).1 = .error e)
        ∧ ((w.run f params statement).2 = w ∨ (w.run f params statement).2 = ⟨[], [], true⟩))
      ∨ ∃ a, statement = .ok (a, (w.run f params statement).2)
        ∧ ∀ b, (w.run f params statement).1 = .ok b → b = a := by
  unfold run
  split
  . exact .inl ⟨⟨_, rfl⟩, .inl rfl⟩
  . split
    . split
      . exact .inl ⟨⟨_, rfl⟩, .inr rfl⟩
      . exact .inl ⟨⟨_, rfl⟩, .inr rfl⟩
      . exact .inr ⟨_, rfl, nofun⟩
      . refine .inr ⟨_, rfl, ?_⟩
        rintro _ ⟨⟩
        rfl
    . exact .inl ⟨⟨_, rfl⟩, .inr rfl⟩

theorem Unreferenced.aborted : Unreferenced s ⟨[], [], true⟩ := by
  intro id hid
  contradiction

theorem Unreferenced.deleteScopes (h : Unreferenced s w) : Unreferenced s (w.deleteScopes id s) := by
  intro id' hid
  refine ⟨(h id' hid).1, ?_⟩
  intro k rs hrow heq
  exact List.mem_append_left _ ((h id' hid).2 k rs hrow heq)

/--
A row is only deleted from `roles` if no row refers to it any more.
-/
theorem Uncommitted.deleteRole_ok {n : Nat} (hok : w.deleteRole id s = .ok (n, w')) :
    (n = 0 ∧ w' = w) ∨ (w' = { w with roles := id :: w.roles }
      ∧ (∀ k ur, s.usersRoles.lookup k = some ur → ur.roleId ≠ id)
      ∧ ∀ k rs, s.rolesScopes.lookup k = some rs → rs.roleId = id → k ∈ w.rolesScopes) := by
  unfold deleteRole at hok
  split at hok
  . cases hok
    exact .inl ⟨rfl, rfl⟩
  . simp only [bind_eq_ok, require_ok] at hok
    rcases hok with ⟨_, husers, _, hscopes, hok⟩
    cases hok
    refine .inr ⟨rfl, ?_, ?_⟩
    . rintro k ur hrow rfl
      have hmem : ur.userId ∈ roleUsers ur.roleId (w.view s) :=
        List.mem_map.mpr ⟨(k, ur), Table.mem_select.mpr ⟨hrow, decide_eq_true rfl⟩, rfl⟩
      rw [List.isEmpty_iff.mp husers] at hmem
      contradiction
    . rintro k rs hrow rfl
      by_contra hmem
      have hvisible : (w.view s).rolesScopes.lookup k = some rs := by
        unfold view
        simp [Table.lookup_deleteWhere, hrow, hmem]
      have hselected : (k, rs) ∈ (w.view s).rolesScopes.select fun _ rs' => rs'.roleId = rs.roleId :=
        Table.mem_select.mpr ⟨hvisible, decide_eq_true rfl⟩
      rw [List.isEmpty_iff.mp hscopes] at hselected
      contradiction

theorem Unreferenced.deleteRole {n : Nat} (h : Unreferenced s w) (hok : w.deleteRole id s = .ok (n, w')) :
    Unreferenced s w' := by
  rcases Uncommitted.deleteRole_ok hok with ⟨_, rfl⟩ | ⟨rfl, hfree⟩
  . exact h
  . intro id' hid
    rcases List.mem_cons.mp hid with rfl | hold
    . exact hfree
    . exact h id' hold

theorem Unreferenced.run {α : Type} {params : List String} {statement : Result (α × Uncommitted)}
    (h : Unreferenced s w) (hok : ∀ a w', statement = .ok (a, w') → Unreferenced s w')
    : Unreferenced s (w.run f params statement).2 := by
  rcases Uncommitted.run_cases f params w statement with ⟨_, hsame | haborted⟩ | ⟨a, hdone, _⟩
  . rw [hsame]
    exact h
  . rw [haborted]
    exact .aborted
  . exact hok a _ hdone

/--
Every statement keeps it that only rows that were deleted refer to the roles that were.
-/
theorem Unreferenced.statement (h : Unreferenced s w) (o : DeletionStatement) :
    Unreferenced s (o.exec f s w).2 := by
  cases o with
  | deleteScopes id =>
    apply h.run
    rintro _ _ ⟨⟩
    exact h.deleteScopes
  | deleteRole id =>
    apply h.run
    intro n w' hok
    exact h.deleteRole hok
  | _ =>
    apply h.run
    rintro _ _ ⟨⟩
    exact h

theorem deleteRole_deleted {n : Nat}
    (hok : (DeletionStatement.exec (.deleteRole id) f s w).1 = .ok (n + 1))
    : id ∈ (DeletionStatement.exec (.deleteRole id) f s w).2.roles := by
  rcases Uncommitted.run_cases f [id] w (w.deleteRole id s) with ⟨⟨e, herror⟩, _⟩ | ⟨m, hdone, hsame⟩
  . have hboth := hok.symm.trans herror
    contradiction
  . have hm := hsame _ hok
    subst hm
    rcases Uncommitted.deleteRole_ok hdone with ⟨hzero, _⟩ | ⟨hw, _⟩
    . contradiction
    . change id ∈ (w.run f [id] (w.deleteRole id s)).2.roles
      rw [hw]
      exact List.mem_cons_self

/--
After the commit nothing refers to a role that was deleted.
-/
theorem Unreferenced.committed (h : Unreferenced s w) (hid : id ∈ w.roles) : RoleGone id (w.view s) := by
  refine ⟨?_, (h id hid).1, ?_⟩
  . unfold Uncommitted.view
    rw [Table.lookup_deleteWhere]
    simp [hid]
  . intro k rs hrow heq
    have hvisible := lookup_of_deleteWhere hrow
    have hmem := (h id hid).2 k rs hvisible.1 heq
    simp [hmem] at hvisible

end Statements

section Executions

variable {t : DeletionMachine}

/--
What holds while a role is deleted: only rows that were deleted refer to it, it is among the rows that were deleted
when the transaction commits, and it stays gone after that.
-/
structure DeletionInv (id : String) (t : DeletionMachine) : Prop where
  unreferenced : Unreferenced t.others.store t.writes
  deleted : t.rest.isSome = true → ∀ n rest, t.events = Deleted id (n + 1) :: rest → id ∈ t.writes.roles
  gone : t.committed = true → RoleGone id t.others.store

abbrev Roleless {α : Type} (p : App α) : Prop :=
  p.Uses fun o : Op => o.createsNoRole = true

theorem RoleRequest.MayCall.createsNoRole {q : RoleRequest} {o : Op} (ho : q.MayCall o)
    (hq : ∀ req, q ≠ .createRole req) : o.createsNoRole = true := by
  unfold Op.createsNoRole
  split
  . rcases ho with ⟨req, hcreate⟩
    exact absurd hcreate (hq req)
  . rfl

theorem RoleChange.handle_roleless (q : RoleChange) : Roleless q.handle := by
  cases q with
  | assign userId roleId => exact (roles.assign_mayCall userId roleId).mono fun _ ho => ho.createsNoRole nofun
  | remove userId roleId => exact (roles.remove_mayCall userId roleId).mono fun _ ho => ho.createsNoRole nofun
  | update id req => exact (roles.update_mayCall id req).mono fun _ ho => ho.createsNoRole nofun

/--
An action of the others keeps what holds of the store, if every operation that does not wait keeps it.
-/
theorem other_keeps {P : Server → Prop} (hm : DeletionMachine.Reachable cfg id s t) {a : Action Draw RoleChange}
    (hfree : t.blocked transactional a = false) (ht : P t.others.store)
    (hadvance : ∀ n s, P s → P (s.advance n))
    (hexec : ∀ (o : Op) d, o.createsNoRole = true → Uncommitted.waits o t.others.store t.writes = false →
      P (o.exec cfg d t.others.store).2)
    : P (t.others.act (semantics cfg) RoleChange.handle a).store := by
  rcases TxMachine.other_store (I := semantics cfg) hfree with
    hsame | ⟨n, hstore⟩ | ⟨i, q, o, k, d, hrun, hwaits, hstore⟩
  . rw [hsame]
    exact ht
  . rw [hstore]
    exact hadvance n _ ht
  . rw [hstore]
    exact hexec o d (hm.uses RoleChange.handle_roleless i q _ hrun).1 hwaits

/--
What is done after the commit neither creates a role nor waits.
-/
theorem afterthought_harmless {o : Op} (ho : o.isAfterthought = true) :
    o.createsNoRole = true ∧ ∀ s w, Uncommitted.waits o s w = false := by
  unfold Op.isAfterthought at ho
  split at ho
  . exact ⟨rfl, fun _ _ => rfl⟩
  . exact ⟨rfl, fun _ _ => rfl⟩
  . exact ⟨rfl, fun _ _ => rfl⟩
  . contradiction

theorem DeletionMachine.Reachable.inv (ht : DeletionMachine.Reachable cfg id s t) : DeletionInv id t := by
  refine TxMachine.Reaches.inv (P := DeletionInv id) ht ⟨?_, ?_, nofun⟩ ?_
  . intro id' hid
    contradiction
  . intro _ n rest hevents
    cases hevents
  . intro t t' hm ih hchange
    have hkept := hm.kept (deletion_conforms id)
    cases hchange with
    | none => exact ih
    | other a hfree =>
      refine ⟨?_, ih.deleted, ?_⟩
      . exact other_keeps hm hfree (P := fun s => Unreferenced s t.writes) ih.unreferenced (fun _ _ hs => hs)
          fun o d ho hwaits => ih.unreferenced.exec ho hwaits
      . intro hcommitted
        exact other_keeps hm hfree (ih.gone hcommitted) (fun _ _ hs => ⟨hs.role, hs.users, hs.scopes⟩)
          fun o d ho _ => (ih.gone hcommitted).exec ho
    | answer a hrest =>
      refine ⟨?_, nofun, ih.gone⟩
      intro id' hid
      contradiction
    | statement f o k hrest =>
      refine ⟨ih.unreferenced.statement o, ?_, ih.gone⟩
      intro _ n rest hevents
      injection hevents with hev _
      injection hev with ho hr
      injection ho with ho
      subst ho
      exact deleteRole_deleted (eq_of_heq hr)
    | commit r k hrest =>
      rcases (hkept.rest _ hrest).1.1 with ⟨n, rest, hevents⟩
      have hdeleted := ih.deleted (by rw [hrest]; rfl) n rest hevents
      refine ⟨?_, ?_, fun _ => ih.unreferenced.committed hdeleted⟩
      . intro id' hid
        contradiction
      . intro _ n rest hevents
        injection hevents with hev _
        injection hev with ho _
        contradiction
    | fail e k hrest =>
      refine ⟨?_, ?_, ih.gone⟩
      . intro id' hid
        contradiction
      . intro _ n rest hevents
        injection hevents with hev _
        injection hev with ho _
        contradiction
    | outside d o k hrest =>
      rcases (hkept.rest _ hrest).1.1 with ⟨_, hafter⟩
      rcases afterthought_harmless hafter with ⟨hcreates, hwaits⟩
      refine ⟨ih.unreferenced.exec hcreates (hwaits _ _), ?_, fun hcommitted => (ih.gone hcommitted).exec hcreates⟩
      intro _ n rest hevents
      injection hevents with hev _
      injection hev with ho _
      contradiction

/--
The deletion itself takes no role away from anybody.
-/
theorem DeletionMachine.Reachable.keeps_users (ht : DeletionMachine.Reachable cfg id s t) (d : Draw)
    (f : Option Failure) :
    (TxMachine.act (semantics cfg) transactional RoleChange.handle t (.step d f)).others.store.usersRoles
      = t.others.store.usersRoles := by
  have hkept := ht.kept (deletion_conforms id)
  unfold TxMachine.act
  dsimp only
  split
  . rfl
  . rfl
  . rfl
  . split
    . rfl
    . rfl
    . rfl
  . next o k hrest =>
    have hafter := (hkept.rest _ hrest).1.1.2
    apply (Op.exec_framed cfg d t.others.store o).usersRoles
    rintro o' rfl
    contradiction

end Executions

/--
The transaction has committed, but the answer of the commit was lost.
-/
def CommitLost (t : DeletionMachine) (e : String) : Prop :=
  t.committed = true ∧ CommitFailed t.events e

/--
In every execution among any changes of roles, with any failures, the deletion of a role takes no role away from
anybody. Once it is answered either the role is gone and nothing refers to it, or everything is as the other
requests alone have left it. The status says which, unless the answer of the commit was lost: then the role is gone,
and the error is passed on.
-/
theorem role_deletion (cfg : Config) (id : String) (s : Server) (t : DeletionMachine)
    (ht : DeletionMachine.Reachable cfg id s t) :
    (∀ d f, (TxMachine.act (semantics cfg) transactional RoleChange.handle t (.step d f)).others.store.usersRoles
        = t.others.store.usersRoles)
      ∧ ∀ a, t.answer = some a →
        (a.status = 204 ∧ RoleGone id t.others.store)
          ∨ (a.status ≠ 204
            ∧ t.others = (Machine.init s).runs (semantics cfg) RoleChange.handle t.actions)
          ∨ ∃ e, CommitLost t e ∧ a = internalError e ∧ RoleGone id t.others.store := by
  have hkept := ht.kept (deletion_conforms id)
  refine ⟨ht.keeps_users, ?_⟩
  intro a ha
  have hanswer := hkept.answer a ha
  cases hcommitted : t.committed with
  | true =>
    have hgone := ht.inv.gone hcommitted
    rcases hkept.committed hcommitted with ⟨r, hmem⟩
    cases r with
    | ok _ => exact .inl ⟨hanswer.status.mpr hmem, hgone⟩
    | error e => exact .inr (.inr ⟨e, ⟨hcommitted, hmem⟩, hanswer.failed e hmem, hgone⟩)
  | false =>
    refine .inr (.inl ⟨?_, ht.alone (deletion_conforms id) (fun _ _ ho => ho.1) hcommitted⟩)
    intro hstatus
    rw [hkept.done (hanswer.status.mp hstatus)] at hcommitted
    contradiction

namespace Sample

def reviewerId : String :=
  "2zGv5rOlEiDgHiJkLmNoPqRsTuV"

/--
A role with a scope that nobody holds.
-/
def reviewerServer : Server :=
  { server with
    roles := (∅ : Table String Role).insert reviewerId ⟨"reviewer", none, .both, false, false⟩
    scopes := (∅ : Table String Scope).insert "sc_pa_session_read" ⟨"pandaria:session:read"⟩
    rolesScopes := (∅ : Table String RoleScope).insert "rs1" ⟨reviewerId, "sc_pa_session_read"⟩ }

def deletionSteps (n : Nat) : List (TxAction Draw (Option Failure) RoleChange) :=
  List.replicate n (.step (draw 1) none)

/--
The role is given to the user after the deletion has seen that nobody holds it.
-/
def deletionRaced : DeletionMachine :=
  TxMachine.runs (semantics config) transactional RoleChange.handle
    (TxMachine.init transactional (roles.deletion reviewerId) reviewerServer)
    (deletionSteps 3 ++ [.other (.start 1 (.assign userId reviewerId))]
      ++ List.replicate 3 (.other (.step 1 (draw 2))) ++ deletionSteps 3)

end Sample

open Sample in
theorem role_deletion_raced :
    ∃ a, deletionRaced.answer = some a ∧ a.status ≠ 204 ∧ deletionRaced.others
      = (Machine.init reviewerServer).runs (semantics config) RoleChange.handle deletionRaced.actions := by
  have hrun : deletionRaced.answer.any (fun a => a.status = 500) = true ∧ deletionRaced.committed = false := by
    decide +kernel
  rcases hrun with ⟨hstatus, hopen⟩
  rcases (Option.any_eq_true _ _).mp hstatus with ⟨a, ha, hstatus⟩
  have hstatus : a.status = 500 := of_decide_eq_true hstatus
  have hreachable : DeletionMachine.Reachable config reviewerId reviewerServer deletionRaced :=
    TxMachine.reaches_runs _ _
  rcases (role_deletion config reviewerId reviewerServer deletionRaced hreachable).2 a ha with
    ⟨hdone, _⟩ | hundone | ⟨e, ⟨hcommitted, _⟩, _⟩
  . rw [hstatus] at hdone
    contradiction
  . exact ⟨a, ha, hundone⟩
  . rw [hopen] at hcommitted
    contradiction

namespace Sample

/--
Nobody else is there, but the answer of the commit is lost.
-/
def deletionLost : DeletionMachine :=
  TxMachine.runs (semantics config) transactional RoleChange.handle
    (TxMachine.init transactional (roles.deletion reviewerId) reviewerServer)
    (deletionSteps 5 ++ [.step (draw 1) (some (.lost "connection closed"))] ++ deletionSteps 1)

end Sample

open Sample in
/--
The role is gone although the request is answered with an error.
-/
theorem role_deletion_lost :
    DeletionMachine.Reachable config reviewerId reviewerServer deletionLost
      ∧ (deletionLost.answer.map fun a => a.status) = some 500
      ∧ deletionLost.others.store.roles.lookup reviewerId = none
      ∧ (((Machine.init reviewerServer).runs (semantics config) RoleChange.handle
        deletionLost.actions).store.roles.lookup reviewerId).isSome = true :=
  ⟨TxMachine.reaches_runs _ _, by decide +kernel, by decide +kernel, by decide +kernel⟩

/--
On its own the deletion succeeds.
-/
example :
    ((TxMachine.runs (semantics Sample.config) transactional RoleChange.handle
      (TxMachine.init transactional (roles.deletion Sample.reviewerId) Sample.reviewerServer :
        DeletionMachine) (Sample.deletionSteps 10)).answer.any fun a => a.status = 204) = true := by
  decide +kernel

end Aspectus
