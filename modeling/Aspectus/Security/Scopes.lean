import Mathlib.Data.List.Dedup
import Aspectus.Routes.Roles
import Aspectus.Store.Rows

/-!
This module contains which scopes a user has, and what the operations do to them: only statements about
assignments and about the scopes of roles change the expansion of a user, and only of some users.
-/

namespace Aspectus

open Interaction Statement

namespace Server

def HasRole (s : Server) (userId roleId : String) : Prop :=
  ∃ id, s.usersRoles.lookup id = some ⟨userId, roleId⟩

def Attached (s : Server) (roleId scopeId : String) : Prop :=
  ∃ id, s.rolesScopes.lookup id = some ⟨roleId, scopeId⟩

/--
Some scope of the role has this name.
-/
def Contains (s : Server) (roleId name : String) : Prop :=
  ∃ scopeId, s.Attached roleId scopeId ∧ s.scopes.lookup scopeId = some ⟨name⟩

/--
A role that is assigned to the user has a scope of this name.
-/
def Granted (s : Server) (userId name : String) : Prop :=
  ∃ roleId, s.HasRole userId roleId ∧ s.Contains roleId name

/--
The names of the scopes of a user as the database answers them.
-/
def scopeNames (s : Server) (cfg : Config) (userId : String) : List String :=
  ((s.scopes.select fun id _ => grants s userId id).map fun row => row.2.name).dedup.mergeSort cfg.collation

def expansion (s : Server) (cfg : Config) (userId : String) : String :=
  join " " (s.scopeNames cfg userId)

/--
The references of the roles of users and of the scopes of roles.
-/
structure Intact (s : Server) : Prop where
  roles : ∀ id ur, s.usersRoles.lookup id = some ur → ∃ r, s.roles.lookup ur.roleId = some r
  scopes : ∀ id rs, s.rolesScopes.lookup id = some rs → ∃ sc, s.scopes.lookup rs.scopeId = some sc

end Server

section Meaning

variable {s s' : Server} {userId roleId scopeId name : String}

theorem isEmpty_assignments : (assignments userId roleId s).isEmpty = false ↔ s.HasRole userId roleId := by
  unfold assignments Server.HasRole
  rw [Table.isEmpty_select]
  constructor
  . rintro ⟨id, ⟨u, r⟩, hlookup, hp⟩
    simp only [Bool.decide_and, Bool.and_eq_true, decide_eq_true_eq] at hp
    rcases hp with ⟨rfl, rfl⟩
    exact ⟨id, hlookup⟩
  . rintro ⟨id, hlookup⟩
    exact ⟨id, _, hlookup, by simp⟩

theorem assignments_eq_nil : assignments userId roleId s = [] ↔ ¬s.HasRole userId roleId := by
  rw [← isEmpty_assignments, Bool.not_eq_false, List.isEmpty_iff]

theorem mem_roleUsers : userId ∈ roleUsers roleId s ↔ s.HasRole userId roleId := by
  unfold roleUsers Server.HasRole
  simp only [List.mem_map, Prod.exists, Table.mem_select, decide_eq_true_eq]
  constructor
  . rintro ⟨id, ⟨u, r⟩, ⟨hlookup, rfl⟩, rfl⟩
    exact ⟨id, hlookup⟩
  . rintro ⟨id, hlookup⟩
    exact ⟨id, _, ⟨hlookup, rfl⟩, rfl⟩

theorem grants_iff :
    grants s userId scopeId = true ↔ ∃ roleId, s.HasRole userId roleId ∧ s.Attached roleId scopeId := by
  unfold grants
  rw [Bool.not_eq_true', Table.isEmpty_select]
  simp only [Bool.decide_and, Bool.and_eq_true, decide_eq_true_eq, Bool.not_eq_true',
    isEmpty_assignments]
  constructor
  . rintro ⟨id, ⟨r, sc⟩, hlookup, rfl, hrole⟩
    exact ⟨r, hrole, id, hlookup⟩
  . rintro ⟨r, hrole, id, hlookup⟩
    exact ⟨id, _, hlookup, rfl, hrole⟩

/--
The names that are answered are exactly those the roles of the user grant.
-/
theorem mem_scopeNames {cfg : Config} : name ∈ s.scopeNames cfg userId ↔ s.Granted userId name := by
  unfold Server.scopeNames Server.Granted Server.Contains
  simp only [List.mem_mergeSort, List.mem_dedup, List.mem_map, Prod.exists, Table.mem_select, grants_iff]
  constructor
  . rintro ⟨scopeId, ⟨_⟩, ⟨hscope, roleId, hrole, hattached⟩, rfl⟩
    exact ⟨roleId, hrole, scopeId, hattached, hscope⟩
  . rintro ⟨roleId, hrole, scopeId, hattached, hscope⟩
    exact ⟨scopeId, _, ⟨hscope, roleId, hrole, hattached⟩, rfl⟩

theorem nodup_scopeNames (cfg : Config) : (s.scopeNames cfg userId).Nodup :=
  (List.mergeSort_perm _ _).nodup_iff.mpr (List.nodup_dedup _)

theorem selectScopes_eq (cfg : Config) (userId : String) (s : Server) :
    selectScopes cfg.collation userId s = .ok (s.scopeNames cfg userId) := by
  rfl

end Meaning

section Expansion

variable {cfg : Config} {s s' : Server} {userId roleId : String}

theorem expansion_congr (hscopes : s'.scopes = s.scopes)
    (hgrants : ∀ scopeId, grants s' userId scopeId = grants s userId scopeId)
    : s'.expansion cfg userId = s.expansion cfg userId := by
  unfold Server.expansion Server.scopeNames
  rw [hscopes]
  simp only [hgrants]

/--
The expansion only depends on the roles of the user and the scopes of these roles.
-/
theorem expansion_of_same (hscopes : s'.scopes = s.scopes)
    (hroles : ∀ roleId, s'.HasRole userId roleId ↔ s.HasRole userId roleId)
    (hattached : ∀ roleId, s.HasRole userId roleId →
      ∀ scopeId, s'.Attached roleId scopeId ↔ s.Attached roleId scopeId)
    : s'.expansion cfg userId = s.expansion cfg userId := by
  apply expansion_congr hscopes
  intro scopeId
  rw [Bool.eq_iff_iff, grants_iff, grants_iff]
  constructor
  . rintro ⟨roleId, hrole, hscope⟩
    have hrole' := (hroles roleId).mp hrole
    exact ⟨roleId, hrole', (hattached roleId hrole' scopeId).mp hscope⟩
  . rintro ⟨roleId, hrole, hscope⟩
    exact ⟨roleId, (hroles roleId).mpr hrole, (hattached roleId hrole scopeId).mpr hscope⟩

/--
A scope that no role has yet does not show in any expansion.
-/
theorem expansion_insertScope {scopes : Table String Scope} {id : String} {sc : Scope}
    (hintact : s.Intact) (h : s.scopes.insertNew id sc = some scopes)
    : Server.expansion { s with scopes := scopes } cfg userId = s.expansion cfg userId := by
  have hnew : grants s userId id = false := by
    rw [← Bool.not_eq_true, grants_iff]
    rintro ⟨roleId, _, rowId, hrow⟩
    rcases hintact.scopes rowId _ hrow with ⟨sc', hsc'⟩
    rw [(Table.insertNew_eq_some.mp h).1] at hsc'
    contradiction
  unfold Server.expansion Server.scopeNames
  have hselect := Table.select_insertNew h fun id _ => grants s userId id
  simp only [hnew, Bool.false_eq_true, if_false] at hselect
  change join " " (((scopes.select fun id _ => grants s userId id).map _).dedup.mergeSort _) = _
  rw [hselect]

end Expansion

section Steps

variable {cfg : Config} {s s' : Server} {userId roleId scopeId : String}

theorem Statement.Assigned.hasRole {id u r u' r' : String} (h : Assigned id u r s s') :
    s'.HasRole u' r' ↔ s.HasRole u' r' ∨ (u' = u ∧ r' = r) := by
  rcases h.store with ⟨usersRoles, husersRoles, rfl⟩
  unfold Server.HasRole
  simp only [Table.lookup_insertNew husersRoles]
  constructor
  . rintro ⟨id', hrow⟩
    split at hrow
    . injection hrow with hrow
      injection hrow with hu hr
      exact .inr ⟨hu.symm, hr.symm⟩
    . exact .inl ⟨id', hrow⟩
  . rintro (⟨id', hrow⟩ | ⟨rfl, rfl⟩)
    . refine ⟨id', ?_⟩
      rw [if_neg]
      . exact hrow
      . rintro rfl
        rw [(Table.insertNew_eq_some.mp husersRoles).1] at hrow
        contradiction
    . exact ⟨id, if_pos rfl⟩

theorem Statement.Assigned.expansion {id u r : String} (h : Assigned id u r s s') (hne : userId ≠ u) :
    s'.expansion cfg userId = s.expansion cfg userId := by
  rcases h.store with ⟨usersRoles, _, hs'⟩
  refine expansion_of_same (by rw [hs']) ?_ ?_
  . intro r'
    rw [h.hasRole]
    simp [hne]
  . intro r' _ sc
    rw [hs']
    rfl

theorem Statement.Assigned.intact {id u r : String} (h : Assigned id u r s s') (hintact : s.Intact) : s'.Intact := by
  rcases h.store with ⟨usersRoles, husersRoles, rfl⟩
  refine ⟨?_, hintact.scopes⟩
  intro id' ur hrow
  simp only [Table.lookup_insertNew husersRoles] at hrow
  split at hrow
  . injection hrow with hrow
    subst hrow
    exact h.role.imp fun _ hr => hr.1
  . exact hintact.roles id' ur hrow

theorem removeRole_hasRole {u r u' r' : String} :
    Server.HasRole { s with usersRoles := s.usersRoles.deleteWhere fun _ ur =>
      ur.userId = u ∧ ur.roleId = r } u' r' ↔ s.HasRole u' r' ∧ ¬(u' = u ∧ r' = r) := by
  unfold Server.HasRole
  simp only [Table.lookup_deleteWhere, Option.filter_eq_some_iff]
  constructor
  . rintro ⟨id, hrow, hp⟩
    exact ⟨⟨id, hrow⟩, by simpa only [Bool.not_eq_true', decide_eq_false_iff_not] using hp⟩
  . rintro ⟨⟨id, hrow⟩, hp⟩
    exact ⟨id, hrow, by simpa only [Bool.not_eq_true', decide_eq_false_iff_not] using hp⟩

theorem deleteRoleScopes_attached {r r' sc : String} :
    (deleteRoleScopes r s).Attached r' sc ↔ s.Attached r' sc ∧ r' ≠ r := by
  unfold deleteRoleScopes Server.Attached
  simp only [Table.lookup_deleteWhere, Option.filter_eq_some_iff]
  constructor
  . rintro ⟨id, hrow, hp⟩
    exact ⟨⟨id, hrow⟩, by simpa using hp⟩
  . rintro ⟨⟨id, hrow⟩, hp⟩
    exact ⟨id, hrow, by simpa using hp⟩

theorem deleteRoleScopes_expansion {r : String} (hne : ¬s.HasRole userId r) :
    (deleteRoleScopes r s).expansion cfg userId = s.expansion cfg userId := by
  refine expansion_of_same rfl (fun _ => Iff.rfl) ?_
  intro r' hrole sc
  rw [deleteRoleScopes_attached]
  exact and_iff_left fun heq => hne (heq ▸ hrole)

theorem deleteRoleScopes_intact {r : String} (hintact : s.Intact) : (deleteRoleScopes r s).Intact := by
  refine ⟨hintact.roles, ?_⟩
  intro id rs hrow
  unfold deleteRoleScopes at hrow
  simp only [Table.lookup_deleteWhere, Option.filter_eq_some_iff] at hrow
  exact hintact.scopes id rs hrow.1

theorem addRoleScope_attached {id r sc r' sc' : String} {rolesScopes : Table String RoleScope}
    (h : s.rolesScopes.insertNew id ⟨r, sc⟩ = some rolesScopes)
    : Server.Attached { s with rolesScopes := rolesScopes } r' sc'
        ↔
      s.Attached r' sc' ∨ (r' = r ∧ sc' = sc) := by
  unfold Server.Attached
  simp only [Table.lookup_insertNew h]
  constructor
  . rintro ⟨id', hrow⟩
    split at hrow
    . injection hrow with hrow
      injection hrow with hr hsc
      exact .inr ⟨hr.symm, hsc.symm⟩
    . exact .inl ⟨id', hrow⟩
  . rintro (⟨id', hrow⟩ | ⟨rfl, rfl⟩)
    . refine ⟨id', ?_⟩
      rw [if_neg]
      . exact hrow
      . rintro rfl
        rw [(Table.insertNew_eq_some.mp h).1] at hrow
        contradiction
    . exact ⟨id, if_pos rfl⟩

theorem addRoleScope_expansion {id r sc : String} {rolesScopes : Table String RoleScope}
    (h : s.rolesScopes.insertNew id ⟨r, sc⟩ = some rolesScopes) (hne : ¬s.HasRole userId r)
    : Server.expansion { s with rolesScopes := rolesScopes } cfg userId = s.expansion cfg userId := by
  refine expansion_of_same rfl (fun _ => Iff.rfl) ?_
  intro r' hrole sc'
  rw [addRoleScope_attached h]
  exact or_iff_left fun heq => hne (heq.1 ▸ hrole)

end Steps

/--
The users whose expansion an operation may change.
-/
def Op.Touches (s : Server) : Op → String → Prop
  | .role (.assignDefault _ userId _), u => u = userId
  | .role (.assign _ userId _), u => u = userId
  | .role (.remove userId _), u => u = userId
  | .role (.deleteScopes roleId), u => s.HasRole u roleId
  | .role (.addScope _ roleId _), u => s.HasRole u roleId
  | _, _ => False

section Exec

variable {cfg : Config} {d : Draw} {s : Server}

/--
The references stay intact, and the expansions of the other users stay the same.
-/
def ScopesStep (cfg : Config) (touched : String → Prop) (s s' : Server) : Prop :=
  s'.Intact ∧ ∀ u, ¬touched u → s'.expansion cfg u = s.expansion cfg u

theorem ScopesStep.refl {touched : String → Prop} (hintact : s.Intact) : ScopesStep cfg touched s s :=
  ⟨hintact, fun _ _ => rfl⟩

theorem RoleOp.exec_scopesStep (o : RoleOp) (hintact : s.Intact) :
    ScopesStep cfg (Op.Touches s (.role o)) s (o.exec cfg d s).2 := by
  have hs : ScopesStep cfg (Op.Touches s (.role o)) s s := .refl hintact
  cases o with
  | assignDefault id userId roleId =>
    apply run_store hs
    intro _ s' h
    rcases assignDefaultRole_ok h with ⟨rfl, _⟩ | hassigned
    . exact hs
    . exact ⟨hassigned.intact hintact, fun u hu => hassigned.expansion hu⟩
  | assign id userId roleId =>
    apply run_store hs
    intro _ s' h
    have hassigned := assignRole_ok h
    exact ⟨hassigned.intact hintact, fun u hu => hassigned.expansion hu⟩
  | remove userId roleId =>
    apply run_store hs
    intro _ s' h
    cases h
    constructor
    . refine ⟨?_, hintact.scopes⟩
      intro id ur hrow
      simp only [Table.lookup_deleteWhere, Option.filter_eq_some_iff] at hrow
      exact hintact.roles id ur hrow.1
    . intro u hu
      refine expansion_of_same rfl (fun r => ?_) fun _ _ _ => Iff.rfl
      rw [removeRole_hasRole]
      exact and_iff_left fun heq => hu heq.1
  | insert id name description roleType =>
    apply run_store hs
    intro _ s' h
    rcases insertRole_ok h with ⟨_, roles, hroles, rfl⟩
    refine ⟨⟨?_, hintact.scopes⟩, fun _ _ => rfl⟩
    intro id' ur hrow
    rcases hintact.roles id' ur hrow with ⟨r, hr⟩
    exact ⟨r, Table.lookup_insertNew_of_some hroles hr⟩
  | update id description roleType =>
    apply run_store hs
    intro _ s' h
    rcases updateRole_ok h with ⟨old, stored, _, _, rfl⟩
    refine ⟨⟨?_, hintact.scopes⟩, fun _ _ => rfl⟩
    intro id' ur hrow
    rcases hintact.roles id' ur hrow with ⟨r, hr⟩
    dsimp only
    rw [Table.lookup_updateAt, hr]
    split
    . exact ⟨_, rfl⟩
    . exact ⟨r, rfl⟩
  | delete id =>
    apply run_store hs
    intro _ s' h
    rcases deleteRole_ok h with ⟨_, rfl, _⟩ | ⟨_, hunused, rfl⟩
    . exact hs
    . have hnone : ∀ u, ¬s.HasRole u id := by
        intro u hrole
        rw [← mem_roleUsers, hunused] at hrole
        contradiction
      constructor
      . refine ⟨?_, (deleteRoleScopes_intact hintact).scopes⟩
        intro id' ur hrow
        rcases hintact.roles id' ur hrow with ⟨r, hr⟩
        refine ⟨r, ?_⟩
        dsimp only
        rw [AList.lookup_erase_ne]
        . exact hr
        . intro heq
          exact hnone ur.userId ⟨id', heq ▸ hrow⟩
      . intro u _
        have hsame := @expansion_congr cfg (deleteRoleScopes id s) { deleteRoleScopes id s with roles := s.roles.erase id }
          u rfl fun _ => rfl
        exact hsame.trans (deleteRoleScopes_expansion (hnone u))
  | deleteScopes id =>
    apply run_store hs
    intro _ s' h
    cases h
    exact ⟨deleteRoleScopes_intact hintact, fun u hu => deleteRoleScopes_expansion hu⟩
  | addScope id roleId scopeId =>
    apply run_store hs
    intro _ s' h
    rcases addRoleScope_ok h with ⟨rfl, _⟩ | ⟨_, _, hscope, rolesScopes, hrolesScopes, rfl⟩
    . exact hs
    . refine ⟨⟨hintact.roles, ?_⟩, fun u hu => addRoleScope_expansion hrolesScopes hu⟩
      intro id' rs hrow
      simp only [Table.lookup_insertNew hrolesScopes] at hrow
      split at hrow
      . injection hrow with hrow
        subst hrow
        exact hscope
      . exact hintact.scopes id' rs hrow
  | insertScope id name =>
    apply run_store hs
    intro _ s' h
    rcases insertScope_ok h with ⟨_, scopes, _, _, hscopes, rfl⟩
    refine ⟨⟨hintact.roles, ?_⟩, fun u _ => expansion_insertScope hintact hscopes⟩
    intro id' rs hrow
    rcases hintact.scopes id' rs hrow with ⟨sc, hsc⟩
    exact ⟨sc, Table.lookup_insertNew_of_some hscopes hsc⟩
  | _ =>
    change ScopesStep _ _ s (query _ _ _ s).2
    rw [query_store]
    exact hs

theorem Op.exec_scopesStep (o : Op) (hintact : s.Intact) :
    ScopesStep cfg (o.Touches s) s (o.exec cfg d s).2 := by
  by_cases hgroup : ∃ o', o = .role o'
  . rcases hgroup with ⟨o', rfl⟩
    apply RoleOp.exec_scopesStep o' hintact
  . have hframed := Op.exec_framed cfg d s o
    have hroles := hframed.roles (by simpa using hgroup)
    have hscopes := hframed.scopes (by simpa using hgroup)
    have hrolesScopes := hframed.rolesScopes (by simpa using hgroup)
    have husersRoles := hframed.usersRoles (by simpa using hgroup)
    constructor
    . constructor
      . rw [husersRoles, hroles]
        exact hintact.roles
      . rw [hrolesScopes, hscopes]
        exact hintact.scopes
    . intro u _
      refine expansion_of_same hscopes (fun r => ?_) fun r _ sc => ?_
      . unfold Server.HasRole
        rw [husersRoles]
      . unfold Server.Attached
        rw [hrolesScopes]

end Exec

end Aspectus
