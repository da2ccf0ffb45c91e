import Aspectus.Routes.LoginLookup
import Aspectus.Security.Invariants

/-!
This module contains the lookup of the tenants an email is registered under, the first of the two steps of a
login, and what it tells about the second one.
-/

namespace Aspectus

open Interaction Prog Machine Statement

/--
Every account belongs to a tenant, and no other account of this tenant has its email.
-/
structure Accounts (s : Server) : Prop where
  tenants : ∀ id u, s.users.lookup id = some u → ∃ tenant, s.tenants.lookup u.tenantId = some tenant
  emails : ∀ id id' u u' email, s.users.lookup id = some u → s.users.lookup id' = some u' →
    u.tenantId = u'.tenantId → u.email = some email → u'.email = some email → id = id'

namespace Accounts

variable {cfg : Config} {d : Draw} {s s' : Server} {tenantId email : String}

theorem of_kept (hs : Accounts s) (htenants : s'.tenants = s.tenants)
    (hkept : ∀ id u', s'.users.lookup id = some u' → ∃ u, s.users.lookup id = some u ∧ u.Kept u')
    : Accounts s' := by
  constructor
  . intro id u' hu'
    rcases hkept id u' hu' with ⟨u, hu, hkept⟩
    rw [htenants, hkept.tenantId]
    exact hs.tenants id u hu
  . intro id₁ id₂ u₁' u₂' email hu₁' hu₂' htenant hemail₁ hemail₂
    rcases hkept id₁ u₁' hu₁' with ⟨u₁, hu₁, hkept₁⟩
    rcases hkept id₂ u₂' hu₂' with ⟨u₂, hu₂, hkept₂⟩
    rw [hkept₁.tenantId, hkept₂.tenantId] at htenant
    rw [hkept₁.email] at hemail₁
    rw [hkept₂.email] at hemail₂
    exact hs.emails id₁ id₂ u₁ u₂ email hu₁ hu₂ htenant hemail₁ hemail₂

theorem byEmail_none {id : String} {u : User} (hnone : (byEmail tenantId email s).isNone = true)
    (hu : s.users.lookup id = some u) (htenant : u.tenantId = tenantId) : u.email ≠ some email := by
  intro hemail
  rw [Option.isNone_iff_eq_none] at hnone
  unfold byEmail at hnone
  have hmem : (id, u) ∈ s.users.select fun _ u => u.tenantId = tenantId ∧ u.email = some email := by
    simp [Table.mem_select, hu, htenant, hemail]
  rw [List.head?_eq_none_iff.mp hnone] at hmem
  contradiction

theorem insertUser {id passwordHash : String} {displayName : Option String} {a : User} (hs : Accounts s)
    (h : Statement.insertUser id tenantId email passwordHash displayName s = .ok (a, s')) : Accounts s' := by
  unfold Statement.insertUser at h
  simp only [bind_eq_ok, insert_ok, require_ok, references_ok] at h
  rcases h with ⟨stored, _, _, _, users, husers, _, hfree, _, htenant, h⟩
  injection h with h
  injection h with _ h
  subst h
  constructor
  . intro id' u hu
    simp only [Table.lookup_insertNew husers] at hu
    split at hu
    . injection hu with hu
      subst hu
      exact htenant
    . exact hs.tenants id' u hu
  . intro id₁ id₂ u₁ u₂ email' hu₁ hu₂ htenants hemail₁ hemail₂
    simp only [Table.lookup_insertNew husers] at hu₁ hu₂
    split at hu₁
    . next hid₁ =>
      split at hu₂
      . next hid₂ => exact hid₁.trans hid₂.symm
      . injection hu₁ with hu₁
        subst hu₁
        injection hemail₁ with hemail₁
        subst hemail₁
        exact absurd hemail₂ (byEmail_none hfree hu₂ htenants.symm)
    . split at hu₂
      . injection hu₂ with hu₂
        subst hu₂
        injection hemail₂ with hemail₂
        subst hemail₂
        exact absurd hemail₁ (byEmail_none hfree hu₁ htenants)
      . exact hs.emails id₁ id₂ u₁ u₂ email' hu₁ hu₂ htenants hemail₁ hemail₂

theorem exec {o : Op} (hs : Accounts s) : Accounts (o.exec cfg d s).2 := by
  by_cases hinsert : ∃ id tenantId email hash name, o = .user (.insert id tenantId email hash name)
  . rcases hinsert with ⟨id, tenantId, email, hash, name, rfl⟩
    exact run_store (P := Accounts) hs fun _ _ hs' => hs.insertUser hs'
  . apply hs.of_kept (Op.exec_framed cfg d s o).tenants
    intro id u' hu'
    rcases Op.exec_users cfg d s o id u' hu' with ⟨u, hu, _⟩ | ⟨_, _, _, _, _, ho, _⟩
    . rcases (Op.exec_evolves d s cfg o).users id u hu with ⟨u'', hu'', hkept⟩
      rw [hu'] at hu''
      injection hu'' with heq
      exact ⟨u, hu, heq ▸ hkept⟩
    . exact absurd ⟨_, _, _, _, _, ho⟩ hinsert

/--
Whatever the server does, the accounts stay as they should be.
-/
theorem kept (cfg : Config) :
    Machine.Evolution (serverSemantics cfg) fun s s' => Accounts s → Accounts s' where
  refl _ := id
  trans h h' := h' ∘ h
  exec o d s hs := by
    cases o with
    | left o => exact hs.exec
    | right o =>
      rcases CleanupOp.exec_frame d s o with ⟨_, _, hframe⟩
      change Accounts (CleanupOp.exec d s o).2
      rw [hframe]
      exact ⟨hs.tenants, hs.emails⟩
  advance _ _ hs := ⟨hs.tenants, hs.emails⟩

/--
The account with an email is found in its tenant.
-/
theorem byEmail_iff (hs : Accounts s) {id : String} {u : User} :
    byEmail tenantId email s = some (id, u)
      ↔
    s.users.lookup id = some u ∧ u.tenantId = tenantId ∧ u.email = some email := by
  constructor
  . exact byEmail_some
  . rintro ⟨hu, htenant, hemail⟩
    cases hfirst : byEmail tenantId email s with
    | none => exact absurd hemail (byEmail_none (by rw [hfirst]; rfl) hu htenant)
    | some row =>
      rcases row with ⟨id', u'⟩
      rcases byEmail_some hfirst with ⟨hu', htenant', hemail'⟩
      have hid := hs.emails id' id u' u email hu' hu (htenant'.trans htenant.symm) hemail' hemail
      subst hid
      rw [hu] at hu'
      injection hu' with hu'
      rw [hu']

end Accounts

section Lookup

variable {cfg : Config} {s : Server} {email : String} {rows : List (String × String × Option String)}

/--
The tenant has an account with this email that is not suspended.
-/
def Open (s : Server) (tenantId email : String) : Prop :=
  ∃ id u, byEmail tenantId email s = some (id, u) ∧ u.isSuspended = false

theorem mem_selectLoginTenants (hs : Accounts s)
    (h : selectLoginTenants cfg.collation email s = .ok rows) {option : TenantOption} :
    option ∈ rows.map TenantOption.ofRow
      ↔
    Open s option.tenantId email ∧ ∃ tenant, s.tenants.lookup option.tenantId = some tenant
      ∧ option.tenantName = tenant.name ∧ option.logoUrl = tenant.logoUrl := by
  injection h with h
  subst h
  simp only [List.mem_map, List.mem_mergeSort, List.mem_filterMap, Prod.exists, Table.mem_select,
    decide_eq_true_eq, Option.map_eq_some_iff]
  constructor
  . rintro ⟨_, _, _, ⟨id, u, ⟨hu, hemail, hactive⟩, tenant, htenant, heq⟩, rfl⟩
    cases heq
    exact ⟨⟨id, u, hs.byEmail_iff.mpr ⟨hu, rfl, hemail⟩, hactive⟩, tenant, htenant, rfl, rfl⟩
  . rintro ⟨⟨id, u, hrow, hactive⟩, tenant, htenant, hname, hlogo⟩
    rcases byEmail_some hrow with ⟨hu, hid, hemail⟩
    refine ⟨_, _, _, ⟨id, u, ⟨hu, hemail, hactive⟩, tenant, by rw [hid]; exact htenant, rfl⟩, ?_⟩
    unfold TenantOption.ofRow
    rw [hid, ← hname, ← hlogo]

theorem nodup_selectLoginTenants (hs : Accounts s)
    (h : selectLoginTenants cfg.collation email s = .ok rows)
    : ((rows.map TenantOption.ofRow).map TenantOption.tenantId).Nodup := by
  injection h with h
  subst h
  rw [List.map_map, ((List.mergeSort_perm _ _).map _).nodup_iff]
  unfold List.Nodup
  rw [List.pairwise_map, List.pairwise_filterMap]
  refine List.Pairwise.imp_of_mem ?_ (Table.nodup_select _)
  rintro ⟨id, u⟩ ⟨id', u'⟩ hrow hrow' hne option hoption option' hoption' heq
  rw [Table.mem_select, decide_eq_true_eq] at hrow hrow'
  rcases Option.map_eq_some_iff.mp hoption with ⟨_, _, rfl⟩
  rcases Option.map_eq_some_iff.mp hoption' with ⟨_, _, rfl⟩
  have hid := hs.emails id id' u u' email hrow.1 hrow'.1 heq hrow.2.1 hrow'.2.1
  subst hid
  have hu := hrow.1.symm.trans hrow'.1
  injection hu with hu
  exact hne (by rw [hu])

/--
The rows come in the order of the names of the tenants.
-/
theorem pairwise_selectLoginTenants (hcollation : cfg.Collates)
    (h : selectLoginTenants cfg.collation email s = .ok rows)
    : (rows.map TenantOption.ofRow).Pairwise fun a b => cfg.collation a.tenantName b.tenantName = true := by
  injection h with h
  subst h
  rw [List.pairwise_map]
  apply List.pairwise_mergeSort
  . intro a b c
    exact hcollation.trans a.2.1 b.2.1 c.2.1
  . intro a b
    exact hcollation.total a.2.1 b.2.1

end Lookup

section Login

open login

variable {α : Type} {cfg : Config} {req : LoginRequest} {row : LoginRow} {s : Server} {h : List (Event Api)}

/--
The program does not succeed.
-/
abbrev Refuses (p : App Response) (h : List (Event Api)) : Prop :=
  p.Conforms (fun _ _ => True) (fun _ a => a.status ≠ 200) h

theorem unchecked (p : App α) : p.Conforms (fun _ _ => True) (fun _ _ => True) h :=
  conforms_of_append p fun _ _ => trivial

theorem Refuses.status {p : App Response} (hp : Refuses p h) (draws : Nat → Draw) (s : Server) :
    (p.run (semantics cfg) draws s).1.status ≠ 200 := by
  rcases run_inv (I := semantics cfg) (P := fun _ _ => True) hp draws (s := s) trivial
    fun _ _ _ _ _ _ => trivial with ⟨_, hstatus, _⟩
  exact hstatus

theorem answer_refuses {a : Response} (ha : a.status ≠ 200) : Refuses (Pure.pure a) h :=
  ha

theorem audit_refuses {tenantId actorId action : String} {metadata : List (String × Json)} {a : Response}
    (ha : a.status ≠ 200)
    : Refuses (do
        auditAuthEvent tenantId actorId action metadata
        return a) h :=
  (unchecked _).bind fun _ _ _ => ha

theorem checkPassword_refuses (hsuspended : row.isSuspended = true) (ip : String) :
    Refuses (checkPassword cfg req row ip) h := by
  unfold checkPassword succeed failed
  split
  . apply conforms_perform_bind trivial
    intro cleared
    rw [if_pos hsuspended]
    exact audit_refuses (by decide)
  . apply conforms_perform_bind trivial
    rintro (e | ⟨attempts, lockedUntil⟩)
    . exact answer_refuses (by decide)
    . apply (unchecked _).bind
      intro _ _ _
      split
      . exact answer_refuses (by decide)
      . exact answer_refuses (by decide)

/--
A login only succeeds if the tenant has the account.
-/
theorem login_open (hs : Accounts s) {forwardedFor : Option String} {draws : Nat → Draw}
    (hstatus : ((Aspectus.login cfg forwardedFor req).run (semantics cfg) draws s).1.status = 200)
    : Open s req.tenantId req.email := by
  unfold Aspectus.login at hstatus
  dsimp only at hstatus
  split at hstatus
  . have : (422 : Nat) = 200 := hstatus
    contradiction
  . unfold App.user at hstatus
    rw [run_perform_bind] at hstatus
    generalize hr : ((semantics cfg).exec (.user (.selectLogin req.tenantId req.email)) (draws 0) s).1 = r
      at hstatus
    rcases r with e | _ | row
    . have : (500 : Nat) = 200 := hstatus
      contradiction
    . have : (401 : Nat) = 200 := hstatus
      contradiction
    . rcases selectLogin_ok (query_ok hr) with ⟨u, hu, htenant, hemail, _, _, _, _, hsame⟩
      cases hsuspended : row.isSuspended with
      | false => exact ⟨row.id, u, hs.byEmail_iff.mpr ⟨hu, htenant, hemail⟩, hsame.symm.trans hsuspended⟩
      | true =>
        exfalso
        revert hstatus
        dsimp only
        split
        . apply Refuses.status (h := [])
          apply conforms_perform_bind trivial
          intro now
          split
          . exact audit_refuses (by decide)
          . exact checkPassword_refuses hsuspended _
        . exact (checkPassword_refuses (h := []) hsuspended _).status _ _

end Login

/--
The first step of a login lists the tenants that have an account with the email that is not suspended, each of them
once and in the order of their names, whatever the server did before. And if the second step succeeds, then for one
of these tenants. The accounts stay unique in the meantime.
-/
theorem login_lookup_lists (cfg : Config) (hcollation : cfg.Collates) (s : Server) (hs : Accounts s)
    (m : ServerMachine) (hm : ServerMachine.Reachable cfg s m) (email : String)
    (hvalid : register.validEmail email = true) (hstorable : storable email = true) (d : Draw)
    (hhealthy : d.fault = none)
    : Accounts m.store ∧ ∃ tenants, loginLookup cfg email d m.store = (.ok tenants, m.store)
        ∧ (tenants.map TenantOption.tenantId).Nodup
        ∧ tenants.Pairwise (fun a b => cfg.collation a.tenantName b.tenantName = true)
        ∧ (∀ option, option ∈ tenants ↔ Open m.store option.tenantId email
          ∧ ∃ tenant, m.store.tenants.lookup option.tenantId = some tenant
            ∧ option.tenantName = tenant.name ∧ option.logoUrl = tenant.logoUrl)
        ∧ ∀ forwardedFor req draws, req.email = email →
          ((Aspectus.login cfg forwardedFor req).run (semantics cfg) draws m.store).1.status = 200 →
          req.tenantId ∈ tenants.map TenantOption.tenantId := by
  have hkept : Accounts m.store := (Accounts.kept cfg).store hm hs
  rcases hselect : selectLoginTenants cfg.collation email m.store with e | rows
  . contradiction
  . have hparams : [email].all storable = true := by simp [hstorable]
    refine ⟨hkept, rows.map TenantOption.ofRow, ?_, nodup_selectLoginTenants hkept hselect,
      pairwise_selectLoginTenants hcollation hselect, fun _ => mem_selectLoginTenants hkept hselect, ?_⟩
    . unfold loginLookup
      rw [query_answers hhealthy hparams, hselect, hvalid]
      rfl
    . rintro forwardedFor req draws rfl hstatus
      have hopen := login_open hkept hstatus
      rcases hopen with ⟨id, u, hrow, hactive⟩
      rcases hkept.tenants id u (byEmail_some hrow).1 with ⟨tenant, htenant⟩
      rw [(byEmail_some hrow).2.1] at htenant
      apply List.mem_map.mpr
      refine ⟨⟨req.tenantId, tenant.name, tenant.logoUrl⟩, ?_, rfl⟩
      exact (mem_selectLoginTenants hkept hselect).mpr ⟨⟨id, u, hrow, hactive⟩, tenant, htenant, rfl, rfl⟩

namespace Sample

theorem server_accounts : Accounts server := by
  constructor
  . intro id u hu
    rcases lookup_single hu with ⟨_, rfl⟩
    exact ⟨_, rfl⟩
  . intro id id' u u' email hu hu' _ _ _
    exact (lookup_single hu).1.trans (lookup_single hu').1.symm

end Sample

open Sample in
/--
The user that was created is offered the tenant.
-/
theorem login_lookup_lists_created :
    ∃ tenants, loginLookup config "bob@app.example" (draw 3) created.store = (.ok tenants, created.store)
      ∧ ⟨"default", "Default", none⟩ ∈ tenants := by
  have hchecks : (byEmail "default" "bob@app.example" created.store).any (fun row => !row.2.isSuspended) = true
      ∧ (created.store.tenants.lookup "default").any (fun t => t.name = "Default" ∧ t.logoUrl = none) = true
      ∧ register.validEmail "bob@app.example" = true ∧ storable "bob@app.example" = true := by
    decide +kernel
  rcases hchecks with ⟨hopen, htenant, hvalid, hstorable⟩
  rcases (Option.any_eq_true _ _).mp hopen with ⟨⟨id, u⟩, hrow, hactive⟩
  rcases (Option.any_eq_true _ _).mp htenant with ⟨tenant, htenant, hnamed⟩
  rw [decide_eq_true_eq] at hnamed
  rcases login_lookup_lists config config_collates server server_accounts created (reaches_runs _ _)
    "bob@app.example" hvalid hstorable (draw 3) rfl with ⟨_, tenants, hanswer, _, _, hmem, _⟩
  refine ⟨tenants, hanswer, (hmem _).mpr ⟨⟨id, u, hrow, by simpa using hactive⟩, tenant, htenant, ?_⟩⟩
  exact ⟨hnamed.1.symm, hnamed.2.symm⟩

end Aspectus
