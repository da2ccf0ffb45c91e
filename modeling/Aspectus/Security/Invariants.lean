import Aspectus.Discipline.Writes
import Aspectus.Interaction.Reliance
import Aspectus.Security.Coherence
import Aspectus.Security.Ownership

/-!
This module contains what the server keeps, whichever requests there are and however they interleave: system roles
do not change, passwords meet the policy, the audit log only grows, but not by the events of the handlers that change
roles, and what was used or revoked stays so.
-/

namespace Aspectus

open Interaction Prog Machine Statement

/--
The cleanup only writes the tables of tokens.
-/
theorem CleanupOp.exec_frame (d : Draw) (s : Server) (o : CleanupOp) :
    ∃ refreshTokens resetTokens, (CleanupOp.exec d s o).2
      = { s with refreshTokens := refreshTokens, passwordResetTokens := resetTokens } := by
  cases o with
  | deleteRefreshTokens =>
    rcases run_cases d [] deleteExpiredRefreshTokens s with ⟨e, hrun⟩ | ⟨n, s', _, _, hok, hrun⟩
    . exact ⟨_, _, congrArg Prod.snd hrun⟩
    . cases hok
      exact ⟨_, _, congrArg Prod.snd hrun⟩
  | deleteResetTokens =>
    rcases run_cases d [] deleteSpentResetTokens s with ⟨e, hrun⟩ | ⟨n, s', _, _, hok, hrun⟩
    . exact ⟨_, _, congrArg Prod.snd hrun⟩
    . cases hok
      exact ⟨_, _, congrArg Prod.snd hrun⟩

/--
The role and its scopes are in `s` what they were in `s₀`.
-/
structure RoleKept (s₀ : Server) (id : String) (role : Role) (s : Server) : Prop where
  role : s.roles.lookup id = some role
  attached : ∀ scopeId, s.Attached id scopeId ↔ s₀.Attached id scopeId
  scopes : ∀ scopeId sc, s₀.scopes.lookup scopeId = some sc → s.scopes.lookup scopeId = some sc

/--
The operation does not write the role with this id.
-/
def Op.SparesRole (id : String) : Op → Prop
  | .role (.update id' ..) => id' ≠ id
  | .role (.delete id') => id' ≠ id
  | .role (.deleteScopes id') => id' ≠ id
  | .role (.addScope _ id' _) => id' ≠ id
  | _ => True

def SparesRole (id : String) (o : ServerApi.Op) : Prop :=
  ∀ o', o = SumOp.left o' → o'.SparesRole id

/--
The answer does not say that the role with this id may be changed.
-/
structure Reserves (id : String) (ev : Event ServerApi) : Prop where
  found : ∀ id' role, ev = ⟨.left (.role (.getById id')), .ok (some role)⟩ → role.isSystem = false →
    id' ≠ id
  created : ∀ id' name description roleType role,
    ev = ⟨.left (.role (.insert id' name description roleType)), .ok role⟩ → id' ≠ id

section Step

variable {cfg : Config} {d : Draw} {s₀ s s' : Server} {id : String} {role : Role}

theorem RoleKept.of_same (h : RoleKept s₀ id role s) (hroles : s'.roles = s.roles)
    (hscopes : s'.scopes = s.scopes) (hrolesScopes : s'.rolesScopes = s.rolesScopes)
    : RoleKept s₀ id role s' := by
  constructor
  . rw [hroles]
    exact h.role
  . intro scopeId
    unfold Server.Attached
    rw [hrolesScopes]
    exact h.attached scopeId
  . rw [hscopes]
    exact h.scopes

theorem RoleKept.exec_role {o : RoleOp} (h : RoleKept s₀ id role s) (ho : Op.SparesRole id (.role o)) :
    RoleKept s₀ id role (o.exec cfg d s).2 := by
  cases o with
  | insert id' name description roleType =>
    apply run_store (P := RoleKept s₀ id role) h
    intro _ s' hs'
    rcases insertRole_ok hs' with ⟨_, roles, hroles, rfl⟩
    exact ⟨Table.lookup_insertNew_of_some hroles h.role, h.attached, h.scopes⟩
  | update id' description roleType =>
    apply run_store (P := RoleKept s₀ id role) h
    intro _ s' hs'
    rcases updateRole_ok hs' with ⟨_, _, _, _, rfl⟩
    refine ⟨?_, h.attached, h.scopes⟩
    rw [Table.lookup_updateAt, if_neg (Ne.symm ho)]
    exact h.role
  | delete id' =>
    apply run_store (P := RoleKept s₀ id role) h
    intro _ s' hs'
    rcases deleteRole_ok hs' with ⟨_, rfl, _⟩ | ⟨_, _, rfl⟩
    . exact h
    . refine ⟨?_, fun scopeId => ?_, h.scopes⟩
      . exact (AList.lookup_erase_ne (Ne.symm ho)).trans h.role
      . change (deleteRoleScopes id' s).Attached id scopeId ↔ s₀.Attached id scopeId
        rw [deleteRoleScopes_attached, ← h.attached]
        exact and_iff_left (Ne.symm ho)
  | deleteScopes id' =>
    apply run_store (P := RoleKept s₀ id role) h
    intro _ s' hs'
    cases hs'
    refine ⟨h.role, fun scopeId => ?_, h.scopes⟩
    rw [deleteRoleScopes_attached, ← h.attached]
    exact and_iff_left (Ne.symm ho)
  | addScope rowId id' scopeId =>
    apply run_store (P := RoleKept s₀ id role) h
    intro _ s' hs'
    rcases addRoleScope_ok hs' with ⟨rfl, _⟩ | ⟨_, _, _, rolesScopes, hrolesScopes, rfl⟩
    . exact h
    . refine ⟨h.role, fun scopeId' => ?_, h.scopes⟩
      rw [addRoleScope_attached hrolesScopes, ← h.attached]
      exact or_iff_left fun hrow => ho hrow.1.symm
  | insertScope scopeId name =>
    apply run_store (P := RoleKept s₀ id role) h
    intro _ s' hs'
    rcases insertScope_ok hs' with ⟨_, scopes, _, _, hscopes, rfl⟩
    exact ⟨h.role, h.attached, fun scopeId' sc hsc =>
      Table.lookup_insertNew_of_some hscopes (h.scopes scopeId' sc hsc)⟩
  | assignDefault rowId userId roleId =>
    apply run_store (P := RoleKept s₀ id role) h
    intro _ s' hs'
    rcases assignDefaultRole_ok hs' with ⟨rfl, _⟩ | ⟨_, _, _, _, _, rfl⟩
    . exact h
    . exact ⟨h.role, h.attached, h.scopes⟩
  | assign rowId userId roleId =>
    apply run_store (P := RoleKept s₀ id role) h
    intro _ s' hs'
    rcases assignRole_ok hs' with ⟨_, _, _, _, _, rfl⟩
    exact ⟨h.role, h.attached, h.scopes⟩
  | remove userId roleId =>
    apply run_store (P := RoleKept s₀ id role) h
    intro _ s' hs'
    cases hs'
    exact ⟨h.role, h.attached, h.scopes⟩
  | _ => exact query_keeps (P := RoleKept s₀ id role) h

theorem RoleKept.exec {o : Op} (h : RoleKept s₀ id role s) (ho : o.SparesRole id) :
    RoleKept s₀ id role (o.exec cfg d s).2 := by
  by_cases hgroup : ∃ o', o = .role o'
  . rcases hgroup with ⟨o, rfl⟩
    exact h.exec_role ho
  . have hframed := Op.exec_framed cfg d s o
    have hother : ∀ o', o ≠ .role o' := by simpa using hgroup
    exact h.of_same (hframed.roles hother) (hframed.scopes hother) (hframed.rolesScopes hother)

/--
The role is read as a system role, and it is not created again.
-/
theorem RoleKept.reserves (h : RoleKept s₀ id role s) (hsystem : role.isSystem = true) (o : ServerApi.Op) :
    Reserves id ⟨o, ((serverSemantics cfg).exec o d s).1⟩ := by
  constructor
  . rintro id' found heq hcustom rfl
    injection heq with ho hr
    subst ho
    have hrow := query_ok (eq_of_heq hr)
    injection hrow with hrow
    rw [h.role] at hrow
    injection hrow with hrow
    subst hrow
    rw [hsystem] at hcustom
    contradiction
  . rintro id' name description roleType created heq rfl
    injection heq with ho hr
    subst ho
    rcases insertRole_ok (run_ok (eq_of_heq hr)) with ⟨_, roles, hroles, _⟩
    have hfree := (Table.insertNew_eq_some.mp hroles).1
    rw [h.role] at hfree
    contradiction

theorem RoleKept.exec_server {o : ServerApi.Op} (h : RoleKept s₀ id role s) (ho : SparesRole id o) :
    RoleKept s₀ id role ((serverSemantics cfg).exec o d s).2 := by
  cases o with
  | left o => exact h.exec (ho o rfl)
  | right o =>
    rcases CleanupOp.exec_frame d s o with ⟨_, _, hframe⟩
    change RoleKept s₀ id role (CleanupOp.exec d s o).2
    rw [hframe]
    exact ⟨h.role, h.attached, h.scopes⟩

end Step

section Tasks

variable {cfg : Config} {id : String} {h : List (Event ServerApi)}

theorem FoundCustom.ne {id' : String} (hfound : FoundCustom (leftEvents h) id')
    (hreserves : ∀ ev ∈ h, Reserves id ev) : id' ≠ id := by
  rcases hfound with ⟨found, hcalled, hcustom⟩ | ⟨name, description, roleType, created, hcalled⟩
  . exact (hreserves _ (mem_leftEvents.mp hcalled)).found id' found rfl hcustom
  . exact (hreserves _ (mem_leftEvents.mp hcalled)).created id' name description roleType created rfl

/--
A task that was told which roles may be changed only writes these.
-/
theorem Task.relies_roles (id : String) (task : Task) :
    (task.handle cfg).Conforms (Relies (Reserves id) (SparesRole id)) (fun _ _ => True) [] := by
  apply task.handle_prudently.mono
  . rintro new o hprudent hreserves o' rfl
    rcases hprudent with ⟨_, heq⟩ | ⟨o', heq, hprudent⟩
    . cases heq
    . cases heq
      unfold Op.SparesRole
      split
      . exact hprudent.ne hreserves
      . exact hprudent.ne hreserves
      . exact hprudent.ne hreserves
      . exact hprudent.ne hreserves
      . trivial
  . exact fun _ _ _ => trivial

end Tasks

/--
A system role keeps its row and its scopes, whichever requests there are and however they interleave: it is never
modified, not even if it is looked up while somebody else creates or deletes roles.
-/
theorem system_roles_kept (cfg : Config) (s : Server) (hintact : s.Intact) (m : ServerMachine)
    (hm : ServerMachine.Reachable cfg s m) (id : String) (role : Role) (hrole : s.roles.lookup id = some role)
    (hsystem : role.isSystem = true)
    : m.store.roles.lookup id = some role ∧ ∀ name, m.store.Contains id name ↔ s.Contains id name := by
  have hkept : RoleKept s id role m.store := by
    refine (Reaches.relies (C := fun _ => True) (P := RoleKept s id role) (fun task _ => task.relies_roles id)
      ?_ ?_ ⟨hrole, fun _ => Iff.rfl, fun _ _ hsc => hsc⟩ hm fun _ _ _ => trivial).1
    . exact fun o d s ho h => ⟨h.exec_server ho, h.reserves hsystem o⟩
    . exact fun n s h => ⟨h.role, h.attached, h.scopes⟩
  refine ⟨hkept.role, fun name => ?_⟩
  constructor
  . rintro ⟨scopeId, hattached, hname⟩
    rcases (hkept.attached scopeId).mp hattached with ⟨rowId, hrow⟩
    rcases hintact.scopes rowId _ hrow with ⟨sc, hsc⟩
    have hsame := hkept.scopes scopeId sc hsc
    rw [hname] at hsame
    injection hsame with hsame
    subst hsame
    exact ⟨scopeId, ⟨rowId, hrow⟩, hsc⟩
  . rintro ⟨scopeId, hattached, hname⟩
    exact ⟨scopeId, (hkept.attached scopeId).mpr hattached, hkept.scopes scopeId _ hname⟩

namespace Sample

/--
The role of the user is a system role.
-/
def systemServer : Server :=
  { roleServer with
    roles := (∅ : Table String Role).insert reviewer ⟨"reviewer", none, .user, false, true⟩ }

theorem systemServer_intact : systemServer.Intact := by
  refine ⟨?_, roleServer_intact.scopes⟩
  intro id ur h
  have hmem := Table.mem_entries.mpr h
  have hentries : systemServer.usersRoles.entries = [⟨"ur1", ⟨userId, reviewer⟩⟩] := rfl
  rw [hentries, List.mem_singleton] at hmem
  cases hmem
  exact ⟨_, rfl⟩

/--
Two requests that take turns.
-/
def turns (s : Server) (q q' : RoleRequest) : ServerMachine :=
  runs (serverSemantics config) (Task.handle config) (init s)
    (.start 0 (.role q) :: .start 1 (.role q')
      :: (List.replicate 12 [Action.step 0 (draw 1), .step 1 (draw 2)]).flatten)

/--
The statuses of the responses, the last one first.
-/
def statuses (m : ServerMachine) : List Nat :=
  m.log.filterMap fun e => match e.what with
    | .finish (.role (.response a)) => some a.status
    | _ => none

/--
A system role is to be updated and deleted at the same time.
-/
def attacked : ServerMachine :=
  turns systemServer (.updateRole reviewer (reviewerScopes ["constell:agent:read"])) (.deleteRole reviewer)

end Sample

open Sample in
/--
A system role is neither updated nor deleted, and it has its scope as before.
-/
theorem system_roles_kept_attacked :
    statuses attacked = [403, 403] ∧ attacked.store.Contains reviewer "pandaria:session:read" := by
  refine ⟨by decide +kernel, ?_⟩
  have h := system_roles_kept config systemServer systemServer_intact attacked (reaches_runs _ _) reviewer
    ⟨"reviewer", none, .user, false, true⟩ rfl rfl
  apply (h.2 "pandaria:session:read").mpr
  exact ⟨"sc_pa_session_read", ⟨"rs1", rfl⟩, rfl⟩

/--
The hash is the one of a password that meets the policy.
-/
def MeetsPolicy (cfg : Config) (hash : String) : Prop :=
  ∃ password salt, cfg.passwordPolicy.validate password = .ok () ∧ hash = cfg.hashPassword salt password

/--
All passwords meet the policy.
-/
def PolicyKept (cfg : Config) (s : Server) : Prop :=
  ∀ id user hash, s.users.lookup id = some user → user.passwordHash = some hash → MeetsPolicy cfg hash

/--
The operation only sets a password that meets the policy.
-/
def Op.KeepsPolicy (cfg : Config) : Op → Prop
  | .user (.insert _ _ _ hash _) => MeetsPolicy cfg hash
  | .user (.setPassword _ hash) => MeetsPolicy cfg hash
  | _ => True

def KeepsPolicy (cfg : Config) (o : ServerApi.Op) : Prop :=
  ∀ o', o = SumOp.left o' → o'.KeepsPolicy cfg

/--
What is answered as the hash of a password is one.
-/
def HashesTruly (cfg : Config) (ev : Event ServerApi) : Prop :=
  ∀ password hash, ev = ⟨.left (.host (.hashPassword password)), .ok hash⟩ →
    ∃ salt, hash = cfg.hashPassword salt password

section Policy

variable {cfg : Config} {d : Draw} {s : Server}

theorem PolicyKept.exec {o : Op} (hs : PolicyKept cfg s) (ho : o.KeepsPolicy cfg) :
    PolicyKept cfg (o.exec cfg d s).2 := by
  intro id user hash huser hhash
  rcases Op.exec_users cfg d s o id user huser with
    ⟨old, hold, hchanged⟩ | ⟨_, tenantId, email, hash', displayName, rfl, _, hhash', _⟩
  . rcases hchanged.passwordHash with hsame | ⟨hash', rfl, hhash'⟩
    . exact hs id old hash hold (hsame ▸ hhash)
    . rw [hhash'] at hhash
      injection hhash with hhash
      exact hhash ▸ ho
  . rw [hhash'] at hhash
    injection hhash with hhash
    exact hhash ▸ ho

theorem PolicyKept.exec_server {o : ServerApi.Op} (hs : PolicyKept cfg s) (ho : KeepsPolicy cfg o) :
    PolicyKept cfg ((serverSemantics cfg).exec o d s).2 := by
  cases o with
  | left o => exact hs.exec (ho o rfl)
  | right o =>
    rcases CleanupOp.exec_frame d s o with ⟨_, _, hframe⟩
    change PolicyKept cfg (CleanupOp.exec d s o).2
    rw [hframe]
    exact hs

theorem hashesTruly_exec (o : ServerApi.Op) : HashesTruly cfg ⟨o, ((serverSemantics cfg).exec o d s).1⟩ := by
  intro password hash heq
  injection heq with ho hr
  subst ho
  have hhash : d.host (cfg.hashPassword d.salt password) = .ok hash := eq_of_heq hr
  unfold Draw.host at hhash
  split at hhash
  . contradiction
  . injection hhash with hhash
    exact ⟨d.salt, hhash.symm⟩

theorem Hashed.meetsPolicy {h : List (Event ServerApi)} {hash : String}
    (hhashed : Hashed cfg (leftEvents h) hash)
    (htruly : ∀ ev ∈ h, HashesTruly cfg ev) : MeetsPolicy cfg hash := by
  rcases hhashed with ⟨password, hvalid, hcalled⟩
  rcases htruly _ (mem_leftEvents.mp hcalled) password hash rfl with ⟨salt, hhash⟩
  exact ⟨password, salt, hvalid, hhash⟩

/--
Whatever sets a password has checked it and has hashed it.
-/
theorem Task.relies_policy (task : Task) :
    (task.handle cfg).Conforms (Relies (HashesTruly cfg) (KeepsPolicy cfg)) (fun _ _ => True) [] := by
  apply task.handle_prudently.mono
  . rintro new o hprudent htruly o' rfl
    rcases hprudent with ⟨_, heq⟩ | ⟨o', heq, hprudent⟩
    . cases heq
    . cases heq
      unfold Op.KeepsPolicy
      split
      . exact hprudent.meetsPolicy htruly
      . exact hprudent.meetsPolicy htruly
      . trivial
  . exact fun _ _ _ => trivial

end Policy

/--
Every stored password meets the policy, so a password that breaks it opens no account: whatever stores the hash of
a password has checked this password before.
-/
theorem passwords_meet_policy (cfg : Config) (s : Server) (hs : PolicyKept cfg s)
    (hverify : ∀ salt password password',
      cfg.verifyPassword password' (cfg.hashPassword salt password) = .ok (decide (password' = password)))
    (m : ServerMachine) (hm : ServerMachine.Reachable cfg s m)
    : PolicyKept cfg m.store ∧ ∀ id user hash password msg, m.store.users.lookup id = some user →
        user.passwordHash = some hash → cfg.passwordPolicy.validate password = .error msg →
        cfg.verifyPassword password hash = .ok false := by
  have hkept : PolicyKept cfg m.store :=
    (Reaches.relies (C := fun _ => True) (P := PolicyKept cfg) (fun task _ => task.relies_policy)
      (fun o d s ho hs => ⟨hs.exec_server ho, hashesTruly_exec o⟩) (fun n s hs => hs) hs hm
      fun _ _ _ => trivial).1
  refine ⟨hkept, fun id user hash password msg huser hhash hweak => ?_⟩
  rcases hkept id user hash huser hhash with ⟨password', salt, hvalid, rfl⟩
  rw [hverify, decide_eq_false]
  rintro rfl
  rw [hweak] at hvalid
  contradiction

namespace Sample

theorem server_policyKept : PolicyKept config server := by
  intro id user hash huser hhash
  rcases lookup_single huser with ⟨_, rfl⟩
  injection hhash with hhash
  subst hhash
  have hvalid : config.passwordPolicy.validate password = .ok () := by
    decide +kernel
  exact ⟨password, salt, hvalid, rfl⟩

/--
A user with a weak password and one with a strong password are created at the same time.
-/
def created : ServerMachine :=
  turns server (.createUser ⟨"default", "eve@app.example", "short", none⟩)
    (.createUser ⟨"default", "bob@app.example", "Passw0rdPassw0rd", none⟩)

/--
The user has the password that has this hash.
-/
def hasHash (s : Server) (id hash : String) : Bool :=
  match s.users.lookup id with
  | some user => user.passwordHash == some hash
  | none => false

theorem of_hasHash {s : Server} {id hash : String} (h : hasHash s id hash = true) :
    ∃ user, s.users.lookup id = some user ∧ user.passwordHash = some hash := by
  unfold hasHash at h
  split at h
  . next user huser => exact ⟨user, huser, by simpa using h⟩
  . contradiction

end Sample

open Sample in
/--
Only the strong password is accepted, and the weak one does not open the account that was there before.
-/
theorem passwords_meet_policy_created :
    statuses created = [201, 422] ∧ PolicyKept config created.store
      ∧ config.verifyPassword "short" passwordHash = .ok false := by
  have hchecks : statuses created = [201, 422] ∧ hasHash created.store userId passwordHash = true
      ∧ config.passwordPolicy.validate "short" = .error "Password is too short" := by
    decide +kernel
  rcases hchecks with ⟨hstatuses, hhash, hweak⟩
  rcases of_hasHash hhash with ⟨user, huser, hhash⟩
  have h := passwords_meet_policy config server server_policyKept verifyPassword_hashPassword created
    (reaches_runs _ _)
  exact ⟨hstatuses, h.1, h.2 userId user passwordHash "short" _ huser hhash hweak⟩

section Trail

/--
The rows of the audit log are still there, and every new one belongs to a tenant and is not about a changed role.
-/
structure TrailKept (s₀ s : Server) : Prop where
  tenants : s.tenants = s₀.tenants
  kept : ∀ id entry, s₀.auditLogs.lookup id = some entry → s.auditLogs.lookup id = some entry
  added : ∀ id entry, s.auditLogs.lookup id = some entry → s₀.auditLogs.lookup id = none →
    entry.action ∉ roleEvents ∧ ∃ tenant, s₀.tenants.lookup entry.tenantId = some tenant

/--
A changed role is recorded without a tenant.
-/
def Unowned (o : ServerApi.Op) : Prop :=
  ∀ id entry, o = SumOp.left (Op.auditAppend id entry) → entry.action ∈ roleEvents → entry.tenantId = ""

variable {cfg : Config} {d : Draw} {s₀ s s' : Server}

theorem varchar_stored {n : Nat} {text stored : String} (h : varchar n text = .ok stored) :
    stored = text ∨ stored.length = n := by
  unfold varchar at h
  split at h
  . injection h with h
    exact .inl h.symm
  . next hlong =>
    split at h
    . injection h with h
      subst h
      rw [String.length_ofList, List.length_take, String.length_toList]
      exact .inr (Nat.min_eq_left (Nat.le_of_not_le hlong))
    . contradiction

theorem roleEvents_length : ∀ action ∈ roleEvents, action.length ≠ 64 := by
  decide

theorem appendAudit_row {id : String} {entry : AuditLog} {a : Unit} (h : appendAudit id entry s = .ok (a, s')) :
    ∃ stored auditLogs, varchar 27 entry.tenantId = .ok stored.tenantId
      ∧ varchar 64 entry.action = .ok stored.action
      ∧ (∃ tenant, s.tenants.lookup stored.tenantId = some tenant)
      ∧ s.auditLogs.insertNew id stored = some auditLogs ∧ s' = { s with auditLogs := auditLogs } := by
  unfold appendAudit at h
  simp only [bind_eq_ok, insert_ok, references_ok] at h
  rcases h with ⟨tenantId, htenantId, _, _, action, haction, _, _, _, _, auditLogs, hauditLogs, _, htenant, h⟩
  injection h with h
  injection h with _ h
  exact ⟨_, auditLogs, htenantId, haction, htenant, hauditLogs, h.symm⟩

/--
The foreign key of the audit log refuses an event of no tenant.
-/
theorem TrailKept.append {id : String} {entry : AuditLog} {a : Unit} (h : TrailKept s₀ s)
    (hempty : s₀.tenants.lookup "" = none) (hunowned : entry.action ∈ roleEvents → entry.tenantId = "")
    (hs' : appendAudit id entry s = .ok (a, s')) : TrailKept s₀ s' := by
  rcases appendAudit_row hs' with ⟨stored, auditLogs, htenantId, haction, htenant, hauditLogs, rfl⟩
  rw [h.tenants] at htenant
  refine ⟨h.tenants, ?_, ?_⟩
  . intro id' entry' hentry'
    exact Table.lookup_insertNew_of_some hauditLogs (h.kept id' entry' hentry')
  . intro id' entry' hentry' hnew
    simp only [Table.lookup_insertNew hauditLogs] at hentry'
    split at hentry'
    . injection hentry' with hentry'
      subst hentry'
      refine ⟨fun hevent => ?_, htenant⟩
      -- An action that was cut off is longer than the ones of the events.
      have hsame : stored.action = entry.action :=
        (varchar_stored haction).resolve_right (roleEvents_length _ hevent)
      rw [hunowned (hsame ▸ hevent)] at htenantId
      have hstored : stored.tenantId = "" := by
        injection htenantId with htenantId
        exact htenantId.symm
      rcases htenant with ⟨tenant, htenant⟩
      rw [hstored, hempty] at htenant
      contradiction
    . exact h.added id' entry' hentry' hnew

theorem Op.exec_auditLogs (cfg : Config) (d : Draw) (s : Server) (o : Op) :
    (o.exec cfg d s).2.auditLogs = s.auditLogs ∨ ∃ id entry, o = .auditAppend id entry := by
  cases o with
  | auditAppend id entry => exact .inr ⟨id, entry, rfl⟩
  | user o =>
    rcases UserOp.exec_frame d s o with ⟨_, h⟩
    have hsame := congrArg Server.auditLogs h
    exact .inl hsame
  | tenant o => exact .inl (congrArg Server.auditLogs (TenantOp.exec_store d s o))
  | role o =>
    rcases RoleOp.exec_frame d s cfg o with ⟨_, h⟩
    have hsame := congrArg Server.auditLogs h
    exact .inl hsame
  | code o =>
    rcases CodeOp.exec_frame d s o with ⟨_, h⟩
    have hsame := congrArg Server.auditLogs h
    exact .inl hsame
  | refresh o =>
    rcases RefreshOp.exec_frame d s o with ⟨_, h⟩
    have hsame := congrArg Server.auditLogs h
    exact .inl hsame
  | client o =>
    rcases ClientOp.exec_frame d s o with ⟨_, h⟩
    have hsame := congrArg Server.auditLogs h
    exact .inl hsame
  | reset o =>
    rcases ResetOp.exec_frame d s o with ⟨_, h⟩
    have hsame := congrArg Server.auditLogs h
    exact .inl hsame
  | key o =>
    rcases KeyOp.exec_frame d s o with ⟨_, h⟩
    have hsame := congrArg Server.auditLogs h
    exact .inl hsame
  | serviceToken o =>
    rcases ServiceTokenOp.exec_frame d s cfg o with ⟨_, h⟩
    have hsame := congrArg Server.auditLogs h
    exact .inl hsame
  | cache o =>
    rcases CacheOp.exec_frame d s o with ⟨_, h⟩
    have hsame := congrArg Server.auditLogs h
    exact .inl hsame
  | host o => exact .inl (congrArg Server.auditLogs (HostOp.exec_store d s cfg o))

theorem TrailKept.exec_server {o : ServerApi.Op} (h : TrailKept s₀ s) (hempty : s₀.tenants.lookup "" = none)
    (ho : Unowned o) : TrailKept s₀ ((serverSemantics cfg).exec o d s).2 := by
  cases o with
  | left o =>
    rcases Op.exec_auditLogs cfg d s o with hsame | ⟨id, entry, rfl⟩
    . have htenants := (Op.exec_framed cfg d s o).tenants
      exact ⟨htenants.trans h.tenants, fun id entry hentry => hsame ▸ h.kept id entry hentry,
        fun id entry hentry => h.added id entry (hsame ▸ hentry)⟩
    . exact run_store (P := TrailKept s₀) h fun _ _ hs' => h.append hempty (ho id entry rfl) hs'
  | right o =>
    rcases CleanupOp.exec_frame d s o with ⟨_, _, hframe⟩
    change TrailKept s₀ (CleanupOp.exec d s o).2
    rw [hframe]
    exact ⟨h.tenants, h.kept, h.added⟩

theorem Task.relies_trail (task : Task) :
    (task.handle cfg).Conforms (Relies (fun _ => True) Unowned) (fun _ _ => True) [] := by
  apply task.handle_prudently.mono
  . rintro new o hprudent - id entry rfl
    rcases hprudent with ⟨_, heq⟩ | ⟨o', heq, hprudent⟩
    . cases heq
    . cases heq
      exact hprudent
  . exact fun _ _ _ => trivial

end Trail

/--
Nothing that is recorded is lost or changed, and all that is added belongs to a tenant. But the events of the handlers
that create, update and delete roles are never recorded, because they belong to no tenant.
-/
theorem role_changes_unrecorded (cfg : Config) (s : Server) (hempty : s.tenants.lookup "" = none)
    (m : ServerMachine) (hm : ServerMachine.Reachable cfg s m)
    : (∀ id entry, s.auditLogs.lookup id = some entry → m.store.auditLogs.lookup id = some entry)
        ∧ ∀ id entry, m.store.auditLogs.lookup id = some entry → s.auditLogs.lookup id = none →
          entry.action ∉ roleEvents ∧ ∃ tenant, m.store.tenants.lookup entry.tenantId = some tenant := by
  have hkept : TrailKept s m.store := by
    refine (Reaches.relies (C := fun _ => True) (P := TrailKept s) (fun task _ => task.relies_trail) ?_ ?_
      ⟨rfl, fun _ _ hentry => hentry, fun _ _ hentry hnew => by rw [hentry] at hnew; contradiction⟩ hm
      fun _ _ _ => trivial).1
    . exact fun o d s ho h => ⟨h.exec_server hempty ho, trivial⟩
    . exact fun n s h => ⟨h.tenants, h.kept, h.added⟩
  refine ⟨hkept.kept, fun id entry hentry hnew => ?_⟩
  rw [hkept.tenants]
  exact hkept.added id entry hentry hnew

namespace Sample

/--
A role is created while another one is taken from the user.
-/
def changed : ServerMachine :=
  turns roleServer (.createRole ⟨"auditor", none, "user", ["pandaria:session:read"]⟩)
    (.removeRole userId reviewer)

/--
The only event that is recorded.
-/
def onlyEvent (s : Server) : Option String :=
  match s.auditLogs.entries with
  | [⟨_, entry⟩] => some entry.action
  | _ => none

end Sample

open Sample in
/--
Both requests are successful, but only the second one is recorded.
-/
theorem role_changes_unrecorded_created :
    statuses changed = [201, 204] ∧ onlyEvent changed.store = some "role.removed"
      ∧ ∀ id entry, changed.store.auditLogs.lookup id = some entry → entry.action ∉ roleEvents := by
  have hchecks : statuses changed = [201, 204] ∧ onlyEvent changed.store = some "role.removed" := by
    decide +kernel
  have h := role_changes_unrecorded config roleServer rfl changed (reaches_runs _ _)
  exact ⟨hchecks.1, hchecks.2, fun id entry hentry => (h.2 id entry hentry rfl).1⟩

/--
`s'` may be a later state of the server than `s`: like without the cleanup, but a refresh token may be gone once
it has expired.
-/
structure Permanent (s s' : Server) : Prop where
  now : s.now ≤ s'.now
  users : Table.Grows User.Kept s.users s'.users
  clients : Table.Grows Eq s.oauth2Clients s'.oauth2Clients
  codes : Table.Grows AuthorizationCode.Kept s.authorizationCodes s'.authorizationCodes
  apiKeys : Table.Grows ApiKeyRow.Kept s.apiKeys s'.apiKeys
  refreshTokens : ∀ tokenHash t, s.refreshTokens.lookup tokenHash = some t →
    (∃ t', s'.refreshTokens.lookup tokenHash = some t' ∧ t.Kept t') ∨ t.expiresAt < s'.now

namespace Permanent

variable {s s' s'' : Server}

theorem of_evolves (h : Evolves s s') : Permanent s s' :=
  ⟨h.now, h.users, h.clients, h.codes, h.apiKeys, fun tokenHash t ht => .inl (h.refreshTokens tokenHash t ht)⟩

theorem refl (s : Server) : Permanent s s :=
  of_evolves (.refl s)

theorem trans (h : Permanent s s') (h' : Permanent s' s'') : Permanent s s'' := by
  refine ⟨Int.le_trans h.now h'.now, .trans .trans h.users h'.users,
    .trans (fun h h' => h.trans h') h.clients h'.clients, .trans .trans h.codes h'.codes,
    .trans .trans h.apiKeys h'.apiKeys, ?_⟩
  intro tokenHash t ht
  rcases h.refreshTokens tokenHash t ht with ⟨t', ht', hkept⟩ | hexpired
  . rcases h'.refreshTokens tokenHash t' ht' with ⟨t'', ht'', hkept'⟩ | hexpired
    . exact .inl ⟨t'', ht'', hkept.trans hkept'⟩
    . exact .inr (hkept.expiresAt ▸ hexpired)
  . exact .inr (Int.lt_of_lt_of_le hexpired h'.now)

theorem deleteRefreshTokens {n : Nat} (h : deleteExpiredRefreshTokens s = .ok (n, s')) : Permanent s s' := by
  cases h
  refine { refl s with refreshTokens := ?_ }
  intro tokenHash t ht
  by_cases hexpired : t.expiresAt < s.now
  . exact .inr hexpired
  . refine .inl ⟨t, ?_, .refl t⟩
    rw [Table.lookup_deleteWhere, ht]
    simp [Option.filter, hexpired]

theorem deleteResetTokens {n : Nat} (h : deleteSpentResetTokens s = .ok (n, s')) : Permanent s s' := by
  cases h
  exact { refl s with }

end Permanent

theorem permanence (cfg : Config) : Machine.Evolution (serverSemantics cfg) Permanent where
  refl := Permanent.refl
  trans := Permanent.trans
  exec o d s := by
    cases o with
    | left o => exact .of_evolves ((evolution cfg).exec o d s)
    | right o =>
      cases o with
      | deleteRefreshTokens =>
        exact run_store (P := Permanent s) (.refl s) fun _ _ => Permanent.deleteRefreshTokens
      | deleteResetTokens =>
        exact run_store (P := Permanent s) (.refl s) fun _ _ => Permanent.deleteResetTokens
  advance n s := .of_evolves ((evolution cfg).advance n s)

/--
From any state of the server on, whatever requests and cleanups run: a used code stays used, a revoked key stays
revoked, and so does a revoked refresh token until it expires. A key keeps its tenant, project, scopes and expiry, a
code or a token its user, client and expiry, and only expired refresh tokens are removed.
-/
theorem credentials_permanent (cfg : Config) (m m' : ServerMachine)
    (h : Reaches (serverSemantics cfg) (Task.handle cfg) m m') : Permanent m.store m'.store :=
  (permanence cfg).store h

namespace Sample

/--
Two refresh tokens, both of them revoked, and the first one expired.
-/
def revokedServer : Server :=
  { server with
    refreshTokens := ((∅ : Table String RefreshToken).insert (tokenHash 1)
      ⟨userId, clientId, now - 1, some (now - 2)⟩).insert (tokenHash 5)
      ⟨userId, clientId, now + issueTokens.refreshLifetime, some (now - 2)⟩ }

/--
The cleanup runs.
-/
def swept : ServerMachine :=
  runs (serverSemantics config) (Task.handle config) (init revokedServer)
    (.start 0 .cleanup :: List.replicate 3 (.step 0 (draw 1)))

end Sample

open Sample in
/--
The cleanup removes the first token, and the second one stays revoked.
-/
theorem credentials_permanent_swept :
    (swept.store.refreshTokens.lookup (tokenHash 1)).isNone = true
      ∧ ∃ t, swept.store.refreshTokens.lookup (tokenHash 5) = some t ∧ t.revokedAt = some (now - 2) := by
  have hchecks : (swept.store.refreshTokens.lookup (tokenHash 1)).isNone = true
      ∧ now + issueTokens.refreshLifetime ≥ swept.store.now := by
    decide +kernel
  refine ⟨hchecks.1, ?_⟩
  have h := credentials_permanent config (init revokedServer) swept (reaches_runs _ _)
  rcases h.refreshTokens (tokenHash 5) ⟨userId, clientId, now + issueTokens.refreshLifetime, some (now - 2)⟩
    (AList.lookup_insert _) with ⟨t, ht, hkept⟩ | hexpired
  . exact ⟨t, ht, hkept.revokedAt _ rfl⟩
  . exact absurd hexpired (Int.not_lt.mpr hchecks.2)

end Aspectus
