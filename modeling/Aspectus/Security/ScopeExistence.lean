import Aspectus.Core.ScopeName
import Aspectus.Interaction.Triple
import Aspectus.Security.Ownership

/-!
This module contains the check that the scopes of an API key exist in the database, and that it refuses
lists in which a name is repeated.
-/

namespace Aspectus

open Interaction Statement

variable {cfg : Config} {s : Server} {req : CreateApiKeyRequest} {project : Project}
  {ownerType ownerId : String} {draws : Nat → Draw}

/--
No two rows of the table of scopes have the same name.
-/
def UniqueScopeNames (s : Server) : Prop :=
  ∀ id id' sc sc', s.scopes.lookup id = some sc → s.scopes.lookup id' = some sc' →
    sc.name = sc'.name → id = id'

def InScopesTable (s : Server) (name : String) : Prop :=
  ∃ id, s.scopes.lookup id = some ⟨name⟩

/--
The request passes all checks that do not need the database.
-/
structure WellFormed (req : CreateApiKeyRequest) (project : Project) (ownerType ownerId : String) :
    Prop where
  parsed : Project.parse req.project = some project
  kind : req.ownerType.getD "service_account" = ownerType
  kindKnown : ownerType ∈ ["user", "service_account"]
  named : (req.ownerId.orElse fun _ => req.serviceAccountId) = some ownerId
  few : req.scopes.length ≤ Scope.maxScopesPerKey
  checked : createApiKey.checkScopes project req.scopes = .ok ()

/--
The first thing that is done after the check is to look up the owner.
-/
def looksUpOwner : Op → Bool
  | .user (.getById _) => true
  | .key (.getServiceAccount _) => true
  | _ => false

/--
The request gets past the existence check.
-/
def GetsPast (cfg : Config) (req : CreateApiKeyRequest) (draws : Nat → Draw) (s : Server) : Prop :=
  ∃ c ∈ (createApiKey cfg req).trace (semantics cfg) draws s, looksUpOwner c.op = true

theorem WellFormed.createApiKey_eq (h : WellFormed req project ownerType ownerId) :
    createApiKey cfg req = createApiKey.checkExistence cfg req project ownerType ownerId := by
  unfold createApiKey
  rw [h.parsed]
  dsimp only
  rw [h.kind, h.named]
  dsimp only
  rw [if_neg (not_not.mpr h.kindKnown), if_neg (Nat.not_lt.mpr h.few), h.checked]

theorem createForOwner_looksUp (draws : Nat → Draw) (s : Server) :
    ∃ c ∈ (createApiKey.createForOwner cfg req project ownerType ownerId).trace (semantics cfg) draws s,
      looksUpOwner c.op = true := by
  unfold createApiKey.createForOwner
  rw [Prog.trace_bind]
  unfold createApiKey.ownerTenant
  split
  . exact ⟨_, List.mem_append_left _ List.mem_cons_self, rfl⟩
  . exact ⟨_, List.mem_append_left _ List.mem_cons_self, rfl⟩

theorem ScopeName.storable (n : ScopeName) : Statement.storable n.toString = true := by
  rw [storable_iff]
  apply n.forall_mem_toString (P := (· ≠ Char.ofNat 0))
  . decide
  . decide
  . intro c h hzero
    have hbounds := h.bounds
    rw [hzero] at hbounds
    simp at hbounds

theorem validate_of_checkScopes {scopes : List String}
    (h : createApiKey.checkScopes project scopes = .ok ())
    : ∀ name ∈ scopes, Scope.validate name = .ok () := by
  induction scopes with
  | nil => simp
  | cons name rest ih =>
    unfold createApiKey.checkScopes at h
    cases hname : Scope.validate name with
    | error e =>
      rw [hname] at h
      contradiction
    | ok u =>
      rw [hname] at h
      dsimp only at h
      split at h
      . split at h
        . simp only [List.forall_mem_cons]
          exact ⟨hname, ih h⟩
        . contradiction
      . contradiction

theorem WellFormed.storable (h : WellFormed req project ownerType ownerId) :
    req.scopes.all Statement.storable = true := by
  rw [List.all_eq_true]
  intro name hname
  rcases ScopeName.of_validate (validate_of_checkScopes h.checked name hname) with ⟨n, rfl⟩
  apply n.storable

theorem count_eq_true {names : List String} (hnames : names.all Statement.storable = true) (d : Draw) :
    ((RoleOp.countScopes names.length names).exec cfg d s).1 = (.ok true : Result Bool)
      ↔
    d.fault = none ∧ countScopes names.length names s = .ok true := by
  change (query d names (countScopes names.length names) s).1 = _ ↔ _
  cases hfault : d.fault with
  | some e =>
    have hfailed : (query d names (countScopes names.length names) s).1 = .error e := by
      unfold query run
      rw [hfault]
    simp [hfailed]
  | none =>
    rw [query_answers hfault hnames]
    simp

theorem getsPast_iff (hunique : UniqueScopeNames s) (h : WellFormed req project ownerType ownerId) :
    GetsPast cfg req draws s
      ↔
    (req.scopes = [] ∨ (draws 0).fault = none)
      ∧ req.scopes.Nodup ∧ ∀ name ∈ req.scopes, InScopesTable s name := by
  unfold GetsPast
  rw [h.createApiKey_eq]
  unfold createApiKey.checkExistence
  by_cases hempty : req.scopes.isEmpty = true
  . rw [if_pos hempty]
    rw [List.isEmpty_iff] at hempty
    rw [hempty]
    apply iff_of_true (createForOwner_looksUp draws s)
    simp
  . have hanswer : ((RoleOp.countScopes req.scopes.length req.scopes).exec cfg (draws 0) s).1
          = (.ok true : Result Bool)
        ↔ (draws 0).fault = none ∧ req.scopes.Nodup ∧ ∀ name ∈ req.scopes, InScopesTable s name :=
      (count_eq_true h.storable (draws 0)).trans (and_congr_right fun _ => countScopes_iff hunique)
    rw [if_neg hempty]
    rw [List.isEmpty_iff] at hempty
    unfold App.role
    rw [Prog.trace_perform_bind]
    simp only [List.exists_mem_cons_iff, hempty, false_or]
    rw [← hanswer]
    have hexec : (semantics cfg).exec (.role (.countScopes req.scopes.length req.scopes)) (draws 0) s
        = (RoleOp.countScopes req.scopes.length req.scopes).exec cfg (draws 0) s :=
      rfl
    rw [hexec]
    simp only [looksUpOwner, Bool.false_eq_true, false_or]
    -- Only if all names were counted the owner is looked up.
    rcases ((RoleOp.countScopes req.scopes.length req.scopes).exec cfg (draws 0) s).1 with e | _ | _
    . simp [Prog.trace, pure]
    . simp [Prog.trace, pure]
    . exact iff_of_true (createForOwner_looksUp _ _) rfl

/--
The existence check decides whether all names of the request are in the table exactly if no name is
repeated and the query does not fail, or some name is missing.
-/
theorem existence_check (cfg : Config) (s : Server) (hunique : UniqueScopeNames s)
    (req : CreateApiKeyRequest) (project : Project) (ownerType ownerId : String)
    (h : WellFormed req project ownerType ownerId) (draws : Nat → Draw) :
    (GetsPast cfg req draws s ↔ ∀ name ∈ req.scopes, InScopesTable s name)
      ↔
    ((req.scopes = [] ∨ (draws 0).fault = none) ∧ req.scopes.Nodup)
      ∨ ∃ name ∈ req.scopes, ¬InScopesTable s name := by
  have hmissing : (∃ name ∈ req.scopes, ¬InScopesTable s name)
      ↔ ¬∀ name ∈ req.scopes, InScopesTable s name := by
    push Not
    rfl
  rw [getsPast_iff hunique h, hmissing]
  tauto

namespace Sample

/--
A request for a key with the only scope there is, as often as the list says.
-/
def scopesRequest (scopes : List String) : CreateApiKeyRequest :=
  { keyRequest "service_account" serviceAccountId with scopes := scopes }

theorem ownerServer_unique : UniqueScopeNames ownerServer :=
  ownerServer_tables.scopeNames

end Sample

open Sample in
/--
A list with a known and an unknown name is refused.
-/
theorem existence_check_unknown :
    ¬GetsPast config (scopesRequest ["pandaria:session:read", "pandaria:session:write"]) (fun _ => draw 4)
      ownerServer := by
  have hunknown : ¬InScopesTable ownerServer "pandaria:session:write" := by
    rintro ⟨id, hrow⟩
    have := (lookup_single hrow).2
    simp at this
  have h := existence_check config ownerServer ownerServer_unique
    (scopesRequest ["pandaria:session:read", "pandaria:session:write"]) .pandaria "service_account"
    serviceAccountId ⟨rfl, rfl, by decide, rfl, by decide, rfl⟩ fun _ => draw 4
  intro hpast
  apply hunknown
  exact (h.mpr (.inr ⟨_, by decide, hunknown⟩)).mp hpast _ (by decide)

open Sample in
/--
A list that names a known scope twice is refused.
-/
theorem existence_check_repeated :
    ¬∀ (s : Server), UniqueScopeNames s → ∀ req project ownerType ownerId,
      WellFormed req project ownerType ownerId → ∀ draws : Nat → Draw, (∀ n, (draws n).fault = none) →
      (GetsPast config req draws s ↔ ∀ name ∈ req.scopes, InScopesTable s name) := by
  intro hclaim
  have h := hclaim ownerServer ownerServer_unique
    (scopesRequest ["pandaria:session:read", "pandaria:session:read"]) .pandaria "service_account"
    serviceAccountId ⟨rfl, rfl, by decide, rfl, by decide, rfl⟩ (fun _ => draw 4) fun _ => rfl
  have hknown : InScopesTable ownerServer "pandaria:session:read" :=
    ⟨_, AList.lookup_insert _⟩
  have hpast := h.mpr (by
    intro name hname
    simp only [scopesRequest, List.mem_cons, List.not_mem_nil, or_false, or_self] at hname
    rw [hname]
    exact hknown)
  rcases hpast with ⟨c, hc, hlooksUp⟩
  have hrefused : ((createApiKey config (scopesRequest ["pandaria:session:read", "pandaria:session:read"])).trace
      (semantics config) (fun _ => draw 4) ownerServer).all (fun c => !looksUpOwner c.op) = true := by
    decide +kernel
  have := List.all_eq_true.mp hrefused c hc
  rw [hlooksUp] at this
  contradiction

end Aspectus
