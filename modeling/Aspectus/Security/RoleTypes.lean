import Aspectus.Security.Coherence

/-!
This module contains when users may have a role: its type is checked when the role is assigned to a user, but
not when the type of an assigned role is changed.
-/

namespace Aspectus

open Interaction Prog Statement

/--
Users only have roles whose type permits users.
-/
def Server.Permitted (s : Server) : Prop :=
  ∀ id ur, s.usersRoles.lookup id = some ur →
    ∃ role, s.roles.lookup ur.roleId = some role ∧ role.roleType.permitsUsers = true

/--
Every operation but an update of a role to a type that does not permit users.
-/
def Op.Typed : Op → Prop
  | .role (.update _ _ roleType) => roleType.permitsUsers = true
  | _ => True

section Ops

variable {cfg : Config} {d : Draw} {s s' : Server}

theorem Statement.Assigned.permitted {id u r : String} (h : Assigned id u r s s') (hs : s.Permitted) :
    s'.Permitted := by
  rcases h.store with ⟨usersRoles, husersRoles, rfl⟩
  intro id' ur hrow
  simp only [Table.lookup_insertNew husersRoles] at hrow
  split at hrow
  . injection hrow with hrow
    subst hrow
    exact h.role
  . exact hs id' ur hrow

/--
The type of a role may be changed as long as no user has the role.
-/
theorem updateRole_permitted {id : String} {description : Option String} {roleType : RoleType} {role : Role}
    (h : updateRole id description roleType s = .ok (role, s')) (hs : s.Permitted)
    : s'.Permitted ↔ roleType.permitsUsers = true ∨ roleUsers id s = [] := by
  rcases updateRole_ok h with ⟨old, stored, hold, _, rfl⟩
  constructor
  . intro hs'
    rw [or_iff_not_imp_right]
    intro hused
    rcases List.exists_mem_of_ne_nil _ hused with ⟨u, hu⟩
    rcases mem_roleUsers.mp hu with ⟨id', hrow⟩
    rcases hs' id' _ hrow with ⟨role, hrole, hpermits⟩
    simp only [Table.lookup_updateAt, if_true, hold, Option.map_some, Option.some.injEq] at hrole
    subst hrole
    exact hpermits
  . intro hor id' ur hrow
    rcases hs id' ur hrow with ⟨role, hrole, hpermits⟩
    by_cases hid : ur.roleId = id
    . have hroleType : roleType.permitsUsers = true := by
        refine hor.resolve_right fun hunused => ?_
        have hmem : ur.userId ∈ roleUsers id s := mem_roleUsers.mpr ⟨id', hid ▸ hrow⟩
        rw [hunused] at hmem
        contradiction
      refine ⟨{ role with description := stored, roleType := roleType }, ?_, hroleType⟩
      subst hid
      simp only [Table.lookup_updateAt, if_true, hrole, Option.map_some]
    . refine ⟨role, ?_, hpermits⟩
      simpa [Table.lookup_updateAt, hid] using hrole

/--
The operations that change neither a role nor an assignment of one.
-/
def Op.LeavesRoles : Op → Prop
  | .role (.assignDefault ..) => False
  | .role (.assign ..) => False
  | .role (.remove ..) => False
  | .role (.insert ..) => False
  | .role (.update ..) => False
  | .role (.delete ..) => False
  | _ => True

/--
Neither a role nor an assignment of one is changed.
-/
def SameRoles (s s' : Server) : Prop :=
  s'.roles = s.roles ∧ s'.usersRoles = s.usersRoles

theorem SameRoles.permitted (h : SameRoles s s') : s'.Permitted ↔ s.Permitted := by
  unfold Server.Permitted
  rw [h.1, h.2]

theorem RoleOp.exec_sameRoles (o : RoleOp) (ho : Op.LeavesRoles (.role o)) :
    SameRoles s (o.exec cfg d s).2 := by
  have hs : SameRoles s s := ⟨rfl, rfl⟩
  cases o with
  | assignDefault id userId roleId => exact ho.elim
  | assign id userId roleId => exact ho.elim
  | remove userId roleId => exact ho.elim
  | insert id name description roleType => exact ho.elim
  | update id description roleType => exact ho.elim
  | delete id => exact ho.elim
  | deleteScopes id =>
    apply run_store hs
    intro _ s' h
    cases h
    exact ⟨rfl, rfl⟩
  | addScope id roleId scopeId =>
    apply run_store hs
    intro _ s' h
    rcases addRoleScope_ok h with ⟨rfl, _⟩ | ⟨_, _, _, rolesScopes, _, rfl⟩ <;> exact ⟨rfl, rfl⟩
  | insertScope id name =>
    apply run_store hs
    intro _ s' h
    rcases insertScope_ok h with ⟨_, scopes, _, _, _, rfl⟩
    exact ⟨rfl, rfl⟩
  | _ =>
    change SameRoles s (query _ _ _ s).2
    rw [query_store]
    exact hs

theorem Op.exec_sameRoles {o : Op} (ho : o.LeavesRoles) : SameRoles s (o.exec cfg d s).2 := by
  by_cases hgroup : ∃ o', o = .role o'
  . rcases hgroup with ⟨o', rfl⟩
    exact o'.exec_sameRoles ho
  . have hframed := Op.exec_framed cfg d s o
    exact ⟨hframed.roles (by simpa using hgroup), hframed.usersRoles (by simpa using hgroup)⟩

theorem RoleOp.exec_permitted (o : RoleOp) (ho : Op.Typed (.role o)) (hs : s.Permitted) :
    (o.exec cfg d s).2.Permitted := by
  cases o with
  | assignDefault id userId roleId =>
    apply run_store hs
    intro _ s' h
    rcases assignDefaultRole_ok h with ⟨rfl, _⟩ | hassigned
    . exact hs
    . exact hassigned.permitted hs
  | assign id userId roleId =>
    apply run_store hs
    intro _ s' h
    exact (assignRole_ok h).permitted hs
  | remove userId roleId =>
    apply run_store hs
    intro _ s' h
    cases h
    intro id ur hrow
    simp only [Table.lookup_deleteWhere, Option.filter_eq_some_iff] at hrow
    exact hs id ur hrow.1
  | insert id name description roleType =>
    apply run_store hs
    intro _ s' h
    rcases insertRole_ok h with ⟨_, roles, hroles, rfl⟩
    intro id' ur hrow
    rcases hs id' ur hrow with ⟨role, hrole, hpermits⟩
    exact ⟨role, Table.lookup_insertNew_of_some hroles hrole, hpermits⟩
  | update id description roleType =>
    apply run_store hs
    intro _ s' h
    exact (updateRole_permitted h hs).mpr (.inl ho)
  | delete id =>
    apply run_store hs
    intro _ s' h
    rcases deleteRole_ok h with ⟨_, rfl, _⟩ | ⟨_, hunused, rfl⟩
    . exact hs
    . intro id' ur hrow
      rcases hs id' ur hrow with ⟨role, hrole, hpermits⟩
      refine ⟨role, ?_, hpermits⟩
      dsimp only
      rw [AList.lookup_erase_ne]
      . exact hrole
      . intro hid
        have hmem : ur.userId ∈ roleUsers id s := mem_roleUsers.mpr ⟨id', hid ▸ hrow⟩
        rw [hunused] at hmem
        contradiction
  | _ =>
    apply (SameRoles.permitted ?_).mpr hs
    exact RoleOp.exec_sameRoles _ trivial

theorem Op.exec_permitted {o : Op} (ho : o.Typed) (hs : s.Permitted) : (o.exec cfg d s).2.Permitted := by
  by_cases hgroup : ∃ o', o = .role o'
  . rcases hgroup with ⟨o', rfl⟩
    exact o'.exec_permitted ho hs
  . refine (Op.exec_sameRoles ?_).permitted.mpr hs
    cases o with
    | role o' => exact absurd ⟨o', rfl⟩ hgroup
    | _ => trivial

end Ops

section Handlers

variable {cfg : Config}

/--
A program that does not update the type of a role to one that does not permit users.
-/
abbrev Typed {α : Type} (p : App α) : Prop :=
  p.Uses Op.Typed

theorem auditEvent_leavesRoles (params : AuditAuthParams) : (auditEvent params).Uses Op.LeavesRoles :=
  auditEvent_uses trivial trivial fun _ _ _ _ => trivial

theorem respond_leavesRoles (status : Nat) (id : String) (role : Role) (action : String)
    (metadata : List (String × Json))
    : (roles.respond status id role action metadata).Uses Op.LeavesRoles :=
  respondRole_uses trivial fun params _ => auditEvent_leavesRoles params

theorem replaceScopes_leavesRoles (id : String) (role : Role) (scopes : List String) :
    (roles.replaceScopes id role scopes).Uses Op.LeavesRoles := by
  unfold roles.replaceScopes roles.invalidateUsersWithRole
  apply uses_perform_bind trivial
  rintro (e | _)
  . trivial
  . apply Uses.bind
    . exact insertRoleScopes_uses (fun _ => trivial) trivial (fun _ _ => trivial) fun _ _ => trivial
    . rintro (e | _)
      . trivial
      . apply Uses.bind
        . exact uses_perform_bind trivial fun _ => invalidateUsers_uses fun _ => trivial
        . intro _
          apply respond_leavesRoles

/--
Only an update may change the type of a role.
-/
theorem RoleRequest.handle_typed (q : RoleRequest)
    (hq : ∀ id req, q = .updateRole id req → RoleType.parse req.roleType ≠ some .serviceAccount)
    : Typed (q.handle cfg) := by
  refine q.handle_calls.mono fun o ho => ?_
  unfold Op.Typed
  split
  . next id description roleType =>
    rcases ho with ⟨req, hreq, htype⟩
    cases roleType with
    | serviceAccount => exact absurd htype (hq id req hreq)
    | _ => rfl
  . trivial

end Handlers

/--
The requests that take the permission for users from a role while users have it: the role is found, it is no
system role, and its update succeeds.
-/
def Strands (cfg : Config) (s : Server) (v : Visit RoleRequest Draw) : Prop :=
  ∃ id req, v.request = .updateRole id req
    ∧ roles.validateRoleScopes req.scopes = none
    ∧ RoleType.parse req.roleType = some .serviceAccount
    ∧ (∃ role, (RoleOp.exec cfg (v.draws 0) s (.getById id)).1 = .ok (some role) ∧ role.isSystem = false)
    ∧ (∃ role, (RoleOp.exec cfg (v.draws 1) s (.update id req.description .serviceAccount)).1 = .ok role)
    ∧ roleUsers id s ≠ []

section Visits

variable {cfg : Config} {s : Server}

/--
An update to a type that does not permit users.
-/
theorem updateRole_stranded {id : String} {req : roles.UpdateRoleRequest} {draws : Nat → Draw}
    (hs : s.Permitted)
    : ((roles.updateRole id req .serviceAccount).run (semantics cfg) draws s).2.2.Permitted
        ↔
      ¬((∃ role, (RoleOp.exec cfg (draws 0) s (.getById id)).1 = .ok (some role) ∧ role.isSystem = false)
        ∧ (∃ role, (RoleOp.exec cfg (draws 1) s (.update id req.description .serviceAccount)).1 = .ok role)
        ∧ roleUsers id s ≠ []) := by
  have hrest : ∀ (role : Role) draws s',
      (Prog.run (semantics cfg) (roles.replaceScopes id role req.scopes) draws s').2.2.Permitted
        ↔ s'.Permitted := by
    intro role draws s'
    have hsame : SameRoles s' (Prog.run (semantics cfg) (roles.replaceScopes id role req.scopes) draws
        s').2.2 := by
      refine (replaceScopes_leavesRoles id role req.scopes).run_keeps ?_ ⟨rfl, rfl⟩
      intro o d s'' ho hs''
      have hstep : SameRoles s'' (o.exec cfg d s'').2 := Op.exec_sameRoles ho
      exact ⟨hstep.1.trans hs''.1, hstep.2.trans hs''.2⟩
    exact hsame.permitted
  rcases hget : RoleOp.exec cfg (draws 0) s (.getById id) with ⟨found, s'⟩
  have hread : (RoleOp.exec cfg (draws 0) s (.getById id)).2 = s := query_store ..
  rw [hget] at hread
  change s' = s at hread
  subst hread
  unfold roles.updateRole App.role
  rw [run_perform_bind_of hget]
  rcases found with e | _ | role
  . simpa using hs
  . simpa using hs
  . dsimp only
    split
    . next hsystem => simpa [hsystem] using hs
    . next hsystem =>
      rcases hupdate : RoleOp.exec cfg (draws 1) s' (.update id req.description .serviceAccount) with
        ⟨updated, s''⟩
      rw [run_perform_bind_of hupdate]
      change Statement.run _ _ (Statement.updateRole id req.description .serviceAccount) s' = _ at hupdate
      rcases run_cases (draws 1) _ (Statement.updateRole id req.description .serviceAccount) s'
        with ⟨e, hrun⟩ | ⟨stored, s₁, _, _, hok, hrun⟩
      . cases hupdate.symm.trans hrun
        simpa using hs
      . cases hupdate.symm.trans hrun
        rw [hrest, updateRole_permitted hok hs]
        simp [hsystem, RoleType.permitsUsers]

/--
A request keeps the roles of users permitted exactly when it does not strand them.
-/
theorem visit_permitted (v : Visit RoleRequest Draw) (hs : s.Permitted) :
    ((semantics cfg).advance v.wait
        ((v.request.handle cfg).run (semantics cfg) v.draws s).2.2).Permitted ↔ ¬Strands cfg s v := by
  change ((v.request.handle cfg).run (semantics cfg) v.draws s).2.2.Permitted ↔ _
  by_cases hretype : ∃ id req, v.request = .updateRole id req
      ∧ RoleType.parse req.roleType = some .serviceAccount
  . rcases hretype with ⟨id, req, hrequest, htype⟩
    unfold Strands
    simp only [hrequest, RoleRequest.handle, run_bind, RoleRequest.updateRole.injEq]
    change ((roles.update id req).run (semantics cfg) v.draws s).2.2.Permitted ↔ _
    unfold roles.update
    rw [htype]
    cases hscopes : roles.validateRoleScopes req.scopes with
    | some msg =>
      refine iff_of_true hs ?_
      rintro ⟨_, _, ⟨rfl, rfl⟩, hvalid, _⟩
      rw [hscopes] at hvalid
      contradiction
    | none =>
      refine (updateRole_stranded hs).trans (not_congr ?_)
      constructor
      . rintro ⟨hfound, hupdated, hused⟩
        exact ⟨id, req, ⟨rfl, rfl⟩, hscopes, htype, hfound, hupdated, hused⟩
      . rintro ⟨_, _, ⟨rfl, rfl⟩, _, _, hfound, hupdated, hused⟩
        exact ⟨hfound, hupdated, hused⟩
  . refine iff_of_true ?_ ?_
    . have htyped := @RoleRequest.handle_typed cfg v.request fun id req hrequest htype =>
        hretype ⟨id, req, hrequest, htype⟩
      exact htyped.run_keeps (P := Server.Permitted) (fun o d s ho hs => Op.exec_permitted ho hs) hs
    . rintro ⟨id, req, hrequest, _, htype, _⟩
      exact hretype ⟨id, req, hrequest, htype⟩

end Visits

/--
A scope that the user has because of a role that permits users.
-/
def Server.GrantedToUser (s : Server) (userId name : String) : Prop :=
  ∃ roleId role, s.HasRole userId roleId ∧ s.roles.lookup roleId = some role
    ∧ role.roleType.permitsUsers = true ∧ s.Contains roleId name

theorem Server.Permitted.grantedToUser {cfg : Config} {s : Server} {userId name : String} (hs : s.Permitted)
    (hname : name ∈ s.scopeNames cfg userId) : s.GrantedToUser userId name := by
  rcases mem_scopeNames.mp hname with ⟨roleId, ⟨id, hrow⟩, hcontains⟩
  rcases hs id _ hrow with ⟨role, hrole, hpermits⟩
  exact ⟨roleId, role, ⟨id, hrow⟩, hrole, hpermits, hcontains⟩

/--
However requests that change roles and their assignments, that create users or that ask for scopes follow each
other, and whichever of their statements fail: users only have roles whose type permits users, at all times,
exactly when no request changes the type of a role to one that does not permit users while users have the role.
In that case every scope a user is answered is one of a role that permits users, also when the answer comes from
the cache, where all statements and Redis commands have to succeed for the cache to be up to date.
-/
theorem users_roles_permit_users (cfg : Config) (s : Server) (hs : s.Permitted)
    (vs : List (Visit RoleRequest Draw))
    : ((∀ vs', vs' <+: vs → (administered cfg vs' s).Permitted
          ∧ ∀ userId name, name ∈ (administered cfg vs' s).scopeNames cfg userId →
            (administered cfg vs' s).GrantedToUser userId name)
        ↔
      ∀ vs' v, vs' ++ [v] <+: vs → ¬Strands cfg (administered cfg vs' s) v)
    ∧ ((∀ vs' v, vs' ++ [v] <+: vs → ¬Strands cfg (administered cfg vs' s) v) →
        s.Intact →
        (∀ u v, s.cached (ScopeExpander.cacheKey u) = some v →
          v = .text (s.expansion cfg u) ∧ ∃ user, s.users.lookup u = some user) →
        AllSucceed cfg vs s → Unguessed vs →
        ∀ userId draws, (∀ c ∈ trace (semantics cfg) (ScopeExpander.expand userId) draws
          (administered cfg vs s), Succeeded c) →
        ∃ names : List String,
          ((ScopeExpander.expand userId).run (semantics cfg) draws (administered cfg vs s)).1
              = join " " names
            ∧ ∀ name ∈ names, (administered cfg vs s).GrantedToUser userId name) := by
  have hruns : (∀ vs', vs' <+: vs → (administered cfg vs' s).Permitted)
      ↔ ∀ vs' v, vs' ++ [v] <+: vs → ¬Strands cfg (administered cfg vs' s) v :=
    serveAll_inv_iff (fun v _ hs => visit_permitted v hs) hs
  constructor
  . rw [← hruns]
    exact ⟨fun h vs' hvs' => (h vs' hvs').1,
      fun h vs' hvs' => ⟨h vs' hvs', fun _ _ hname => (h vs' hvs').grantedToUser hname⟩⟩
  . intro hkept hintact hcached hall hunguessed userId draws hexpand
    refine ⟨(administered cfg vs s).scopeNames cfg userId,
      expand_answers hintact hcached hall hunguessed hexpand, fun name hname => ?_⟩
    exact (hruns.mpr hkept vs List.prefix_rfl).grantedToUser hname

namespace Sample

/--
The role of the user becomes one for service accounts.
-/
def retypeVisits : List (Visit RoleRequest Draw) :=
  [⟨.updateRole reviewer ⟨none, "service_account", ["pandaria:session:read"]⟩, draw, 1000000⟩]

theorem roleServer_permitted : roleServer.Permitted := by
  intro id ur h
  have hmem := Table.mem_entries.mpr h
  have hentries : roleServer.usersRoles.entries = [⟨"ur1", ⟨userId, reviewer⟩⟩] := rfl
  rw [hentries, List.mem_singleton] at hmem
  cases hmem
  exact ⟨_, rfl, rfl⟩

theorem retypeVisits_succeed : AllSucceed config retypeVisits roleServer := by
  refine ⟨?_, trivial⟩
  decide +kernel

/--
The rows after the change.
-/
theorem retypeVisits_rows :
    (administered config retypeVisits roleServer).usersRoles.entries = [⟨"ur1", ⟨userId, reviewer⟩⟩]
      ∧ ((administered config retypeVisits roleServer).roles.lookup reviewer).map Role.roleType
        = some .serviceAccount := by
  constructor
  . rfl
  . decide +kernel

theorem roleVisits_kept : ∀ vs' v, vs' ++ [v] <+: roleVisits →
    ¬Strands config (administered config vs' roleServer) v := by
  rintro vs' v hv ⟨id, req, hrequest, _, htype, _⟩
  have hmem : v ∈ roleVisits := hv.subset (by simp)
  rcases List.mem_pair.mp hmem with rfl | rfl
  . cases hrequest
  . cases hrequest
    revert htype
    decide

end Sample

open Sample in
theorem users_roles_permit_users_reviewer :
    ∃ names : List String,
      ((ScopeExpander.expand userId).run (semantics config) draw (administered config roleVisits
        roleServer)).1 = join " " names
        ∧ ∀ name ∈ names, (administered config roleVisits roleServer).GrantedToUser userId name :=
  (users_roles_permit_users config roleServer roleServer_permitted roleVisits).2 roleVisits_kept
    roleServer_intact (fun _ _ hv => absurd ((roleServer_uncached _).symm.trans hv) nofun)
    roleVisits_succeed roleVisits_unguessed userId draw expand_succeeds

open Sample in
/--
The user keeps a role that was made one for service accounts, and is answered its scopes.
-/
theorem users_roles_permit_users_retyped :
    roleServer.Permitted
      ∧ AllSucceed config retypeVisits roleServer
      ∧ ¬(administered config retypeVisits roleServer).Permitted
      ∧ ((ScopeExpander.expand userId).run (semantics config) draw (administered config retypeVisits
          roleServer)).1 = "pandaria:session:read"
      ∧ ¬(administered config retypeVisits roleServer).GrantedToUser userId "pandaria:session:read" := by
  rcases retypeVisits_rows with ⟨hentries, hrole⟩
  rcases Option.map_eq_some_iff.mp hrole with ⟨role, hrole, htype⟩
  refine ⟨roleServer_permitted, retypeVisits_succeed, ?_, by decide +kernel, ?_⟩
  . intro hpermitted
    have hrow := Table.mem_entries.mp (hentries ▸ List.mem_singleton_self _)
    rcases hpermitted "ur1" _ hrow with ⟨role', hrole', hpermits⟩
    cases hrole.symm.trans hrole'
    rw [htype] at hpermits
    contradiction
  . rintro ⟨roleId, role', ⟨id, hrow⟩, hrole', hpermits, _⟩
    have hmem := Table.mem_entries.mpr hrow
    rw [hentries, List.mem_singleton] at hmem
    cases hmem
    cases hrole.symm.trans hrole'
    rw [htype] at hpermits
    contradiction

/--
The user has the scope of its role before that.
-/
example : ((ScopeExpander.expand Sample.userId).run (semantics Sample.config) Sample.draw
    Sample.roleServer).1 = "pandaria:session:read" := by
  decide +kernel

end Aspectus
