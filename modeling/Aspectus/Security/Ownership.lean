import Aspectus.Discipline.Audit
import Aspectus.Discipline.Creation
import Aspectus.Security.Answers

/-!
This module contains when a key that was created works for its owner: the keys of service accounts do, the
keys of users do not.
-/

namespace Aspectus

open Interaction Prog Machine Statement ApiKeyVerifier

variable {cfg : Config} {s s' : Server} {draws : Nat → Draw} {d d' : Draw}

/--
What the schema guarantees besides the index on the hashes: names of scopes are unique, owners have a tenant,
and texts do not contain a zero byte.
-/
structure TablesSound (s : Server) : Prop where
  scopeNames : ∀ id id' sc sc', s.scopes.lookup id = some sc → s.scopes.lookup id' = some sc' →
    sc.name = sc'.name → id = id'
  scopeTexts : ∀ id sc, s.scopes.lookup id = some sc → storable sc.name = true
  users : ∀ id user, s.users.lookup id = some user → storable id = true
    ∧ storable user.tenantId = true ∧ ∃ tenant, s.tenants.lookup user.tenantId = some tenant
  serviceAccounts : ∀ id account, s.serviceAccounts.lookup id = some account → storable id = true
    ∧ storable account.tenantId = true ∧ ∃ tenant, s.tenants.lookup account.tenantId = some tenant

/--
Nothing fails, and what is random was not drawn before.
-/
structure FreshDraw (cfg : Config) (s : Server) (d : Draw) : Prop where
  fault : d.fault = none
  hostFault : d.hostFault = none
  idText : storable d.id = true
  id : s.apiKeys.lookup d.id = none
  hashText : storable (cfg.sha256 d.bytes.toList) = true
  hash : ∀ id row, s.apiKeys.lookup id = some row → row.keyHash ≠ cfg.sha256 d.bytes.toList

/--
The owner exists and belongs to the tenant.
-/
def OwnerExists (s : Server) (ownerType ownerId tenantId : String) : Prop :=
  (ownerType = "user" ∧ ∃ user, s.users.lookup ownerId = some user ∧ user.tenantId = tenantId)
    ∨ (ownerType = "service_account"
      ∧ ∃ account, s.serviceAccounts.lookup ownerId = some account ∧ account.tenantId = tenantId)

/--
A request for a key of a project of a consumer, with an owner that exists and known scopes of the project.
-/
structure Acceptable (s : Server) (req : CreateApiKeyRequest) (project : Project)
    (ownerType ownerId tenantId : String) : Prop where
  parsed : Project.parse req.project = some project
  consumer : project ≠ Project.aspectus
  kind : req.ownerType.getD "service_account" = ownerType
  named : (req.ownerId.orElse fun _ => req.serviceAccountId) = some ownerId
  owner : OwnerExists s ownerType ownerId tenantId
  distinct : req.scopes.Nodup
  known : ∀ scope ∈ req.scopes, Scope.project scope = .ok project
    ∧ ∃ id, s.scopes.lookup id = some ⟨scope⟩

theorem validate_of_project {name : String} {project : Project} (h : Scope.project name = .ok project) :
    Scope.validate name = .ok () := by
  unfold Scope.project at h
  cases hvalid : Scope.validate name with
  | ok u => rfl
  | error e =>
    rw [hvalid] at h
    contradiction

theorem checkScopes_ok {project : Project} {scopes : List String}
    (h : ∀ scope ∈ scopes, Scope.project scope = .ok project)
    : createApiKey.checkScopes project scopes = .ok () := by
  induction scopes with
  | nil => rfl
  | cons scope rest ih =>
    have hscope := h scope List.mem_cons_self
    unfold createApiKey.checkScopes
    rw [validate_of_project hscope, hscope]
    dsimp only
    rw [if_pos rfl]
    exact ih fun scope hmem => h scope (List.mem_cons_of_mem _ hmem)

/--
The number of rows with one of some names is the number of names if and only if no name is repeated or
missing.
-/
theorem countScopes_iff (hunique : ∀ id id' sc sc', s.scopes.lookup id = some sc →
      s.scopes.lookup id' = some sc' → sc.name = sc'.name → id = id') {names : List String} :
    countScopes names.length names s = .ok true
      ↔
    names.Nodup ∧ ∀ name ∈ names, ∃ id, s.scopes.lookup id = some ⟨name⟩ := by
  generalize hcounted : (s.scopes.select fun _ sc => names.contains sc.name).map
    (fun row => row.2.name) = counted
  have hmem : ∀ name, name ∈ counted
      ↔ name ∈ names ∧ ∃ id, s.scopes.lookup id = some ⟨name⟩ := by
    intro name
    rw [← hcounted]
    simp only [List.mem_map, Prod.exists, Table.mem_select, List.contains_iff_mem]
    constructor
    . rintro ⟨id, sc, ⟨hrow, hname⟩, rfl⟩
      exact ⟨hname, id, hrow⟩
    . rintro ⟨hname, id, hrow⟩
      exact ⟨id, _, ⟨hrow, hname⟩, rfl⟩
  have hnodup : counted.Nodup := by
    rw [← hcounted]
    apply List.Nodup.map_on
    . rintro ⟨id, sc⟩ hrow ⟨id', sc'⟩ hrow' hname
      have hlookup := (Table.mem_select.mp hrow).1
      have hlookup' := (Table.mem_select.mp hrow').1
      have hid := hunique id id' sc sc' hlookup hlookup' hname
      subst hid
      rw [hlookup] at hlookup'
      injection hlookup' with hsc
      rw [hsc]
    . apply Table.nodup_select
  have hcount : countScopes names.length names s = .ok true ↔ counted.length = names.length := by
    unfold countScopes
    rw [← hcounted, List.length_map]
    simp
  rw [hcount]
  constructor
  . intro hlength
    have hsubperm : counted.Subperm names := by
      apply List.subperm_of_subset hnodup
      intro name hname
      exact ((hmem name).mp hname).1
    have hperm := hsubperm.perm_of_length_le (by omega)
    refine ⟨hperm.nodup_iff.mp hnodup, ?_⟩
    intro name hname
    exact ((hmem name).mp (hperm.mem_iff.mpr hname)).2
  . intro h
    have hperm : counted.Perm names := by
      apply (List.perm_ext_iff_of_nodup hnodup h.1).mpr
      intro name
      rw [hmem name]
      exact ⟨fun hname => hname.1, fun hname => ⟨hname, h.2 name hname⟩⟩
    exact hperm.length_eq

theorem takeChars_storable {t : String} (h : storable t = true) (n : Nat) :
    storable (takeChars n t) = true := by
  rw [storable_iff] at h ⊢
  unfold takeChars
  rw [String.toList_ofList]
  exact fun c hc => h c (List.mem_of_mem_take hc)

/--
The row of a new key.
-/
def InsertApiKeyParams.row (params : InsertApiKeyParams) : ApiKeyRow where
  tenantId := params.tenantId
  serviceAccountId := some params.serviceAccountId
  userId := none
  project := params.project
  keyHash := params.keyHash
  keyPrefix := params.keyPrefix
  scopes := params.scopes
  expiresAt := params.expiresAt
  revokedAt := none

theorem insertApiKey_fresh {params : InsertApiKeyParams} (hconsumer : params.project ≠ .aspectus)
    (hid : s.apiKeys.lookup params.id = none)
    (hhash : ∀ id row, s.apiKeys.lookup id = some row → row.keyHash ≠ params.keyHash)
    (htenant : ∃ tenant, s.tenants.lookup params.tenantId = some tenant)
    (haccount : ∃ account, s.serviceAccounts.lookup params.serviceAccountId = some account)
    : ∃ key, insertApiKey params s
        = .ok (key, { s with apiKeys := s.apiKeys.insert params.id params.row }) := by
  have hinsert : insert "api_keys_pkey" params.id params.row s.apiKeys
      = .ok (s.apiKeys.insert params.id params.row) :=
    insert_ok.mpr (Table.insertNew_eq_some.mpr ⟨hid, rfl⟩)
  have hnone : byHash params.keyHash s = none := by
    rw [Option.eq_none_iff_forall_ne_some]
    rintro ⟨id, row⟩ hrow
    rcases byHash_some hrow with ⟨hrow, heq⟩
    exact hhash id row hrow heq
  have hkey : ∃ key, decodeApiKey params.id params.row = .ok key := ⟨_, rfl⟩
  rcases hkey with ⟨key, hkey⟩
  refine ⟨key, ?_⟩
  unfold insertApiKey
  simp only [bind_eq_ok, insert_ok, require_ok]
  refine ⟨(), ?_, _, insert_ok.mp hinsert, (), ?_, (), ?_, (), ?_, key, hkey, rfl⟩
  . simpa [isDatabaseProject] using hconsumer
  . rw [hnone]
    rfl
  . exact references_ok.mpr htenant
  . exact references_ok.mpr haccount

theorem insertApiKey_unowned {params : InsertApiKeyParams}
    (haccount : s.serviceAccounts.lookup params.serviceAccountId = none)
    : ∀ r, insertApiKey params s ≠ .ok r := by
  rintro ⟨key, s'⟩ hinsert
  unfold insertApiKey at hinsert
  simp only [bind_eq_ok] at hinsert
  rcases hinsert with ⟨_, _, _, _, _, _, _, _, _, hreferences, _⟩
  rcases references_ok.mp hreferences with ⟨account, hsome⟩
  rw [haccount] at hsome
  contradiction

section Creation

variable {req : CreateApiKeyRequest} {project : Project} {ownerType ownerId tenantId : String}

/--
What is stored for a request, if `d` is drawn for the identifier and `d'` for the bytes.
-/
def newParams (cfg : Config) (req : CreateApiKeyRequest) (project : Project) (ownerId tenantId : String)
    (d d' : Draw) : InsertApiKeyParams where
  id := d.id
  tenantId := tenantId
  serviceAccountId := ownerId
  project := project
  keyHash := cfg.sha256 d'.bytes.toList
  keyPrefix := takeChars 17 ("pk_live_" ++ Hex.encode d'.bytes.toList)
  scopes := req.scopes
  expiresAt := req.expiresAt.bind cfg.parseRfc3339

def newKey (cfg : Config) (req : CreateApiKeyRequest) (project : Project) (d d' : Draw) :
    CreatedApiKey where
  id := d.id
  key := "pk_live_" ++ Hex.encode d'.bytes.toList
  keyPrefix := takeChars 17 ("pk_live_" ++ Hex.encode d'.bytes.toList)
  project := project
  scopes := req.scopes
  expiresAt := req.expiresAt.bind cfg.parseRfc3339

/--
The state after the row of a new key was stored.
-/
def withNewKey (cfg : Config) (req : CreateApiKeyRequest) (project : Project) (ownerId tenantId : String)
    (d d' : Draw) (s : Server) : Server :=
  { s with apiKeys := s.apiKeys.insert d.id (newParams cfg req project ownerId tenantId d d').row }

theorem Acceptable.texts (h : Acceptable s req project ownerType ownerId tenantId)
    (htables : TablesSound s)
    : storable ownerId = true ∧ storable tenantId = true ∧ req.scopes.all storable = true
        ∧ ∃ tenant, s.tenants.lookup tenantId = some tenant := by
  have hscopes : req.scopes.all storable = true := by
    rw [List.all_eq_true]
    intro scope hscope
    rcases (h.known scope hscope).2 with ⟨id, hrow⟩
    exact htables.scopeTexts id _ hrow
  rcases h.owner with ⟨_, user, hrow, rfl⟩ | ⟨_, account, hrow, rfl⟩
  . rcases htables.users ownerId user hrow with ⟨hid, htenant, hexists⟩
    exact ⟨hid, htenant, hscopes, hexists⟩
  . rcases htables.serviceAccounts ownerId account hrow with ⟨hid, htenant, hexists⟩
    exact ⟨hid, htenant, hscopes, hexists⟩

theorem run_ownerTenant (howner : OwnerExists s ownerType ownerId tenantId)
    (hownerId : storable ownerId = true) (hfault : (draws 0).fault = none)
    : (createApiKey.ownerTenant ownerType ownerId).run (semantics cfg) draws s
        = (.ok tenantId, fun n => draws (n + 1), s) := by
  have htexts : [ownerId].all storable = true := by
    simpa using hownerId
  unfold createApiKey.ownerTenant
  rcases howner with ⟨rfl, user, hrow, rfl⟩ | ⟨rfl, account, hrow, rfl⟩
  . have hget : (semantics cfg).exec (.user (.getById ownerId)) (draws 0) s
        = ((.ok (some user) : Result (Option User)), s) := by
      change query (draws 0) [ownerId] (fun s => .ok (s.users.lookup ownerId)) s = _
      exact query_healthy hfault htexts (congrArg Except.ok hrow)
    unfold App.user
    rw [if_pos rfl, run_perform_bind_of hget]
    rfl
  . have hget : (semantics cfg).exec (.key (.getServiceAccount ownerId)) (draws 0) s
        = ((.ok (some account) : Result (Option ServiceAccount)), s) := by
      change query (draws 0) [ownerId] (Statement.getServiceAccount ownerId) s = _
      exact query_healthy hfault htexts (congrArg Except.ok hrow)
    unfold App.key
    rw [if_neg (by decide), run_perform_bind_of hget]
    rfl

/--
Until the key is created a request that is acceptable only reads.
-/
theorem run_createApiKey (h : Acceptable s req project ownerType ownerId tenantId)
    (htables : TablesSound s) (hlength : req.scopes.length ≤ Scope.maxScopesPerKey)
    (hhealthy : Healthy draws)
    : ∃ k, (createApiKey cfg req).run (semantics cfg) draws s
        = (createApiKey.createKey cfg req project ownerType ownerId tenantId).run (semantics cfg)
          (fun n => draws (n + k)) s := by
  rcases h.texts htables with ⟨hownerId, _, hscopes, _⟩
  have hkind : ¬ownerType ∉ ["user", "service_account"] := by
    rcases h.owner with ⟨rfl, _⟩ | ⟨rfl, _⟩
    . simp
    . simp
  have howner : ∀ draws' : Nat → Draw, (draws' 0).fault = none →
      (createApiKey.createForOwner cfg req project ownerType ownerId).run (semantics cfg) draws' s
        = (createApiKey.createKey cfg req project ownerType ownerId tenantId).run (semantics cfg)
          (fun n => draws' (n + 1)) s := by
    intro draws' hfault
    unfold createApiKey.createForOwner
    rw [run_bind, run_ownerTenant h.owner hownerId hfault]
  unfold createApiKey
  rw [h.parsed]
  dsimp only
  rw [h.kind, h.named]
  dsimp only
  rw [if_neg hkind, if_neg (Nat.not_lt.mpr hlength), checkScopes_ok fun scope hs => (h.known scope hs).1]
  dsimp only
  unfold createApiKey.checkExistence
  split
  . exact ⟨1, howner draws (hhealthy 0)⟩
  . have hcount : (semantics cfg).exec (.role (.countScopes req.scopes.length req.scopes)) (draws 0) s
        = ((.ok true : Result Bool), s) := by
      change query (draws 0) req.scopes (countScopes req.scopes.length req.scopes) s = _
      exact query_healthy (hhealthy 0) hscopes
        ((countScopes_iff htables.scopeNames).mpr ⟨h.distinct, fun name hname => (h.known name hname).2⟩)
    unfold App.role
    rw [run_perform_bind_of hcount]
    exact ⟨2, howner _ (hhealthy 1)⟩

/--
A key is stored for a service account.
-/
theorem run_create (h : Acceptable s req project ownerType ownerId tenantId) (htables : TablesSound s)
    (hfresh : ∀ n, FreshDraw cfg s (draws n))
    (haccount : ∃ account, s.serviceAccounts.lookup ownerId = some account)
    : (ApiKeyCreator.create cfg tenantId ownerId project req.scopes
          (req.expiresAt.bind cfg.parseRfc3339)).run (semantics cfg) draws s
        = (.ok (newKey cfg req project (draws 0) (draws 1)), fun n => draws (n + 3),
          withNewKey cfg req project ownerId tenantId (draws 0) (draws 1) s) := by
  rcases h.texts htables with ⟨hownerId, htenantId, hscopes, htenant⟩
  have hrandom : (semantics cfg).exec (.host .random) (draws 1) s
      = ((.ok (draws 1).bytes.toList : Result (List UInt8)), s) := by
    change ((draws 1).host _, s) = _
    unfold Draw.host
    rw [(hfresh 1).hostFault]
  rcases @insertApiKey_fresh s (newParams cfg req project ownerId tenantId (draws 0) (draws 1))
    h.consumer (hfresh 0).id (hfresh 1).hash htenant haccount with ⟨key, hinsert⟩
  have hprefix : storable (takeChars 17 ("pk_live_" ++ Hex.encode (draws 1).bytes.toList)) = true :=
    takeChars_storable (append_storable (by decide) (encode_storable _)) 17
  have hstore : (semantics cfg).exec (.key (.insert
      (newParams cfg req project ownerId tenantId (draws 0) (draws 1)))) (draws 2) s
      = ((.ok key : Result ApiKey), withNewKey cfg req project ownerId tenantId (draws 0) (draws 1) s) := by
    change run (draws 2) _ (insertApiKey _) s = _
    apply run_healthy (hfresh 2).fault _ hinsert
    simp only [List.all_append, List.all_cons, List.all_nil, Bool.and_true, Bool.and_eq_true]
    exact ⟨⟨(hfresh 0).idText, htenantId, hownerId, (hfresh 1).hashText, hprefix⟩, hscopes⟩
  unfold ApiKeyCreator.create ApiKeyCreator.insertNew App.host App.key
  rw [run_perform_bind]
  change Prog.run _ _ _ s = _
  rw [run_perform_bind_of hrandom]
  exact (run_perform_bind_of hstore).trans rfl

/--
No key is stored for anybody else.
-/
theorem run_create_unowned (haccount : s.serviceAccounts.lookup ownerId = none)
    (scopes : List String) (expiresAt : Option Instant)
    : ∃ e, ((ApiKeyCreator.create cfg tenantId ownerId project scopes expiresAt).run (semantics cfg) draws
        s).1 = .error e := by
  have hrun := run_inv (I := semantics cfg) (P := fun h s => s.serviceAccounts.lookup ownerId = none
    ∧ ∀ params k, Called h (.key (.insert params)) (.ok k) → params.serviceAccountId ≠ ownerId)
    (@insertNew_conforms cfg [] "pk_live_" tenantId ownerId 17 project scopes (Prog.pure expiresAt)
      (fun _ => True) fun _ => trivial)
    draws (s := s) ⟨haccount, fun _ _ hcalled => by cases hcalled⟩ ?_
  . rcases hrun with ⟨h, hpost, _, hstored⟩
    change ∃ e, (run (semantics cfg) (ApiKeyCreator.insertNew ..) draws s).1 = .error e
    cases hresult : (run (semantics cfg) (ApiKeyCreator.insertNew ..) draws s).1 with
    | error e => exact ⟨e, rfl⟩
    | ok key =>
      rcases hpost key hresult with ⟨params, hcreated, _, haccount, _⟩
      rcases hcreated.stored with ⟨k, hcalled⟩
      exact absurd haccount (hstored params k hcalled)
  . rintro h o d s _ ⟨hnone, hstored⟩
    refine ⟨(Op.exec_framed cfg d s o).serviceAccounts ▸ hnone, ?_⟩
    rintro params k hcalled rfl
    rcases List.mem_cons.mp hcalled with heq | hold
    . injection heq with ho hr
      subst ho
      exact insertApiKey_unowned hnone _ (run_ok (eq_of_heq hr).symm)
    . exact hstored params k hold rfl

/--
The state after a new key was given to a user.
-/
def givenAway (userId id : String) (s : Server) : Server :=
  { s with apiKeys := s.apiKeys.updateAt id fun row =>
      { row with userId := some userId, serviceAccountId := none } }

theorem givenAway_lookup :
    (givenAway ownerId d.id (withNewKey cfg req project ownerId tenantId d d' s)).apiKeys.lookup d.id
      = some { (newParams cfg req project ownerId tenantId d d').row with
          userId := some ownerId, serviceAccountId := none } := by
  unfold givenAway withNewKey
  dsimp only
  rw [Table.lookup_updateAt, if_pos rfl, AList.lookup_insert]
  rfl

theorem run_createKey_account (h : Acceptable s req project "service_account" ownerId tenantId)
    (htables : TablesSound s) (hfresh : ∀ n, FreshDraw cfg s (draws n))
    (haccount : ∃ account, s.serviceAccounts.lookup ownerId = some account)
    : ∃ rest auditLogs,
        (createApiKey.createKey cfg req project "service_account" ownerId tenantId).run (semantics cfg)
          draws s
            = (⟨201, .createdKey (newKey cfg req project (draws 0) (draws 1))⟩, rest,
              { withNewKey cfg req project ownerId tenantId (draws 0) (draws 1) s with
                auditLogs := auditLogs }) := by
  unfold createApiKey.createKey
  rw [run_bind, run_create h htables hfresh haccount]
  dsimp only
  rw [if_neg (by decide)]
  rcases run_audited cfg _ (Prog.pure (⟨201, .createdKey (newKey cfg req project (draws 0) (draws 1))⟩ :
    Response)) _ _ with ⟨auditLogs, hrun⟩
  exact ⟨_, auditLogs, hrun⟩

theorem run_createKey_user (h : Acceptable s req project "user" ownerId tenantId)
    (htables : TablesSound s) (hfresh : ∀ n, FreshDraw cfg s (draws n))
    (haccount : ∃ account, s.serviceAccounts.lookup ownerId = some account)
    : ∃ rest auditLogs,
        (createApiKey.createKey cfg req project "user" ownerId tenantId).run (semantics cfg) draws s
            = (⟨201, .createdKey (newKey cfg req project (draws 0) (draws 1))⟩, rest,
              { givenAway ownerId (draws 0).id
                  (withNewKey cfg req project ownerId tenantId (draws 0) (draws 1) s) with
                auditLogs := auditLogs }) := by
  have huser : ∃ user, s.users.lookup ownerId = some user := by
    rcases h.owner with ⟨_, user, hrow, _⟩ | ⟨hkind, _⟩
    . exact ⟨user, hrow⟩
    . contradiction
  have hgive : (semantics cfg).exec (.key (.setUserOwner ownerId (draws 0).id)) (draws 3)
      (withNewKey cfg req project ownerId tenantId (draws 0) (draws 1) s)
        = ((.ok () : Result Unit), givenAway ownerId (draws 0).id
          (withNewKey cfg req project ownerId tenantId (draws 0) (draws 1) s)) := by
    change run (draws 3) _ (setUserOwner _ _) _ = _
    apply run_healthy (hfresh 3).fault
    . simp [(h.texts htables).1, (hfresh 0).idText]
    . unfold setUserOwner
      have hrow : (withNewKey cfg req project ownerId tenantId (draws 0) (draws 1) s).apiKeys.lookup
          (draws 0).id
            = some (newParams cfg req project ownerId tenantId (draws 0) (draws 1)).row :=
        AList.lookup_insert _
      rw [hrow]
      simp only [bind_eq_ok]
      exact ⟨(), references_ok.mpr huser, rfl⟩
  unfold createApiKey.createKey
  rw [run_bind, run_create h htables hfresh haccount]
  dsimp only
  rw [if_pos rfl]
  unfold App.key
  rw [run_perform_bind_of hgive]
  rcases run_audited cfg _ (Prog.pure (⟨201, .createdKey (newKey cfg req project (draws 0) (draws 1))⟩ :
    Response)) _ _ with ⟨auditLogs, hrun⟩
  exact ⟨_, auditLogs, hrun⟩

theorem run_createKey_unowned (haccount : s.serviceAccounts.lookup ownerId = none) :
    ((createApiKey.createKey cfg req project ownerType ownerId tenantId).run (semantics cfg) draws
      s).1.status ≠ 201 := by
  rcases @run_create_unowned cfg s draws project ownerId tenantId haccount req.scopes (req.expiresAt.bind cfg.parseRfc3339) with ⟨e, hrun⟩
  unfold createApiKey.createKey
  rw [run_bind, hrun]
  exact ofCoreError_status e

end Creation

section Afterwards

variable {id ownerId : String} {m : KeyMachine}

/--
A request that runs on its own leaves a cache that is built from rows.
-/
theorem CacheBuilt.serve (hcache : CacheBuilt s) (q : KeyRequest) :
    CacheBuilt ((q.handle cfg).run (semantics cfg) draws s).2.2 := by
  have hrun := run_inv (I := semantics cfg) (P := fun h s => CacheBuilt s ∧ ∀ keyHash key,
    Called h (.key (.findByHash keyHash)) (.ok (some key)) → Known s keyHash key)
    (KeyRequest.handle_conforms cfg q) draws (s := s) ⟨hcache, fun _ _ hcalled => by cases hcalled⟩ ?_
  . rcases hrun with ⟨_, _, hcache, _⟩
    exact hcache
  . rintro h o d s hallowed ⟨hcache, hfound⟩
    exact ⟨hcache.exec hallowed hfound, known_cons hfound⟩

theorem KeysSound.serve (hkeys : KeysSound s) (p : App Response) :
    KeysSound (p.run (semantics cfg) draws s).2.2 := by
  apply Uses.run_keeps (P := KeysSound) (uses_of_forall (U := fun _ => True) (fun _ => trivial) p)
  . intro o d s _ hs
    exact hs.exec
  . exact hkeys

/--
A key keeps its service account: only the request that has stored a key gives it to a user.
-/
theorem KeyMachine.Reachable.account (hm : KeyMachine.Reachable cfg s m)
    (hs : ∃ row, s.apiKeys.lookup id = some row ∧ row.serviceAccountId = some ownerId)
    : ∃ row, m.store.apiKeys.lookup id = some row ∧ row.serviceAccountId = some ownerId := by
  refine (Reaches.inv (P := fun m : KeyMachine =>
    (∃ row, m.store.apiKeys.lookup id = some row ∧ row.serviceAccountId = some ownerId)
      ∧ ∀ i params k, Called (eventsOf i m.log) (.key (.insert params)) (.ok k) → params.id ≠ id)
    hm ⟨hs, fun _ _ _ hcalled => by cases hcalled⟩ ?_).1
  rintro m m' hm ⟨⟨row, hrow, haccount⟩, hinserted⟩ hchange
  cases hchange with
  | none => exact ⟨⟨row, hrow, haccount⟩, hinserted⟩
  | tick n => exact ⟨⟨row, hrow, haccount⟩, hinserted⟩
  | start i q hfree =>
    refine ⟨⟨row, hrow, haccount⟩, ?_⟩
    intro j params k hcalled
    rw [eventsOf_cons_silent (by rfl)] at hcalled
    exact hinserted j params k hcalled
  | finish i q a hrun =>
    refine ⟨⟨row, hrow, haccount⟩, ?_⟩
    intro j params k hcalled
    rw [eventsOf_cons_silent (by rfl)] at hcalled
    exact hinserted j params k hcalled
  | call i d q o k hrun =>
    have hallowed := (Reaches.conforms (KeyRequest.handle_gives cfg) hm i q _ hrun).1
    refine ⟨?_, ?_⟩
    . rcases Op.exec_account cfg d m.store o hrow with ⟨row', hrow', hsame | ⟨userId, rfl, _⟩⟩
      . exact ⟨row', hrow', hsame.trans haccount⟩
      . rcases hallowed with ⟨params, k, hcalled, hid⟩
        exact absurd hid (hinserted i params k hcalled)
    . rintro j params k' hcalled rfl
      by_cases hj : i = j
      . subst hj
        rw [eventsOf_cons_call (e := ⟨i, _, _⟩) rfl] at hcalled
        rcases List.mem_cons.mp hcalled with heq | hold
        . injection heq with ho hr
          subst ho
          rcases insertApiKey_ok (run_ok (eq_of_heq hr).symm) with ⟨_, apiKeys, hnew, _⟩
          rw [(Table.insertNew_eq_some.mp hnew).1] at hrow
          contradiction
        . exact hinserted i params k' hold rfl
      . rw [eventsOf_cons_ne hj] at hcalled
        exact hinserted j params k' hcalled rfl

end Afterwards

/--
In every state of every execution, the credential is reported with its owner, tenant and scopes until it
expires or is revoked.
-/
def WorksFor (cfg : Config) (s : Server) (key : CreatedApiKey) (ownerId tenantId : String)
    (scopes : List String) : Prop :=
  ∀ m, KeyMachine.Reachable cfg s m → ∃ row, m.store.apiKeys.lookup key.id = some row
    ∧ (row.revokedAt = none → (∀ exp, key.expiresAt = some exp → m.store.now ≤ exp) →
      ∀ draws, Healthy draws → ∃ r,
        ((TokenVerifier.verify cfg key.key).run (semantics cfg) draws m.store).1 = r
          ∧ r.active = true ∧ r.userId = some ownerId ∧ r.tenantId = some tenantId
          ∧ r.scope = some (join " " scopes))

/--
A key with a service account works for it.
-/
theorem worksFor_account {key : CreatedApiKey} {ownerId tenantId : String} {scopes : List String}
    {row : ApiKeyRow} {raw : List UInt8} (hkeys : KeysSound s) (hcache : CacheBuilt s)
    (hrow : s.apiKeys.lookup key.id = some row) (haccount : row.serviceAccountId = some ownerId)
    (hkey : key.key = "pk_live_" ++ Hex.encode raw) (hhash : row.keyHash = cfg.sha256 raw)
    (htenant : row.tenantId = tenantId) (hscopes : row.scopes = scopes)
    (hexpires : row.expiresAt = key.expiresAt)
    : WorksFor cfg s key ownerId tenantId scopes := by
  intro m hm
  rcases hm.account ⟨row, hrow, haccount⟩ with ⟨row', hrow', haccount'⟩
  rcases ((evolution cfg).store hm).apiKeys key.id row hrow with ⟨row'', hrow'', hkept⟩
  rw [hrow'] at hrow''
  injection hrow'' with hrow''
  subst hrow''
  refine ⟨row', hrow', ?_⟩
  intro hrevoked hunexpired draws hhealthy
  refine ⟨_, rfl, ?_⟩
  rw [hkey, TokenVerifier.run_verify_key (extractRaw_key raw), ← hhash, ← hkept.keyHash]
  have hserved : Served draws m.store row'.keyHash row' :=
    .inr ⟨hhealthy 1, hrevoked, by rw [haccount']; rfl⟩
  rcases (hm.cacheBuilt hcache).1.answer_served (hm.keysSound_store hkeys) hrow'
    (by rw [hkept.expiresAt, hexpires]; exact hunexpired) hserved with ⟨k, hanswer, hreflects⟩
  have hk : k.serviceAccountId = ownerId := by
    rcases hreflects.account with hsome | hnone
    . rw [haccount'] at hsome
      injection hsome with hsome
      exact hsome.symm
    . rw [haccount'] at hnone
      contradiction
  rw [hanswer, ← hk, ← htenant, ← hscopes, ← hkept.tenantId, ← hkept.scopes, hreflects.tenantId,
    hreflects.scopes]
  unfold TokenVerifier.format buildResponse
  split
  . exact ⟨rfl, rfl, rfl, rfl⟩
  . exact ⟨rfl, rfl, rfl, rfl⟩

/--
A request whose scopes are too many is refused.
-/
theorem createApiKey_too_many {req : CreateApiKeyRequest} {project : Project}
    {ownerType ownerId tenantId : String} (h : Acceptable s req project ownerType ownerId tenantId)
    (hlength : Scope.maxScopesPerKey < req.scopes.length)
    : ((createApiKey cfg req).run (semantics cfg) draws s).1.status = 422 := by
  have hkind : ¬ownerType ∉ ["user", "service_account"] := by
    rcases h.owner with ⟨rfl, _⟩ | ⟨rfl, _⟩
    . simp
    . simp
  unfold createApiKey
  rw [h.parsed]
  dsimp only
  rw [h.kind, h.named]
  dsimp only
  rw [if_neg hkind, if_pos hlength]
  rfl

/--
A key of a user is not active as long as it is not expired.
-/
theorem user_key_inactive {key : CreatedApiKey} {row : ApiKeyRow} {raw : List UInt8}
    (hkeys : KeysSound s) (hrow : s.apiKeys.lookup key.id = some row)
    (haccount : row.serviceAccountId = none) (hkey : key.key = "pk_live_" ++ Hex.encode raw)
    (hhash : row.keyHash = cfg.sha256 raw) (huncached : s.cached (cacheKey (cfg.sha256 raw)) = none)
    : ((TokenVerifier.verify cfg key.key).run (semantics cfg) draws s).1.active = false := by
  have hdead := hkeys.dead hrow (.inr haccount)
  rw [hhash] at hdead
  rw [hkey]
  exact verify_killed (extractRaw_key raw) ⟨hdead, huncached⟩

/--
A hash that is not in the database is not in the cache.
-/
theorem CacheBuilt.uncached {keyHash : String} (hcache : CacheBuilt s)
    (hhash : ∀ id row, s.apiKeys.lookup id = some row → row.keyHash ≠ keyHash)
    : s.cached (cacheKey keyHash) = none := by
  rw [Option.eq_none_iff_forall_ne_some]
  intro value hvalue
  rcases Server.cached_eq_some.mp hvalue with ⟨entry, hentry, _⟩
  rcases hcache keyHash entry hentry with ⟨key, _, row, hrow, heq, _⟩
  exact hhash key.id row hrow heq

/--
A key of a user only works for its owner in that it is expired from the beginning.
-/
theorem worksFor_user {key : CreatedApiKey} {ownerId tenantId : String} {scopes : List String}
    {row : ApiKeyRow} {raw : List UInt8} (hkeys : KeysSound s)
    (huncached : s.cached (cacheKey (cfg.sha256 raw)) = none)
    (hrow : s.apiKeys.lookup key.id = some row) (haccount : row.serviceAccountId = none)
    (hrevoked : row.revokedAt = none) (hkey : key.key = "pk_live_" ++ Hex.encode raw)
    (hhash : row.keyHash = cfg.sha256 raw) {expiresAt : Option Instant}
    (hexpires : key.expiresAt = expiresAt)
    : WorksFor cfg s key ownerId tenantId scopes ↔ ∃ exp, expiresAt = some exp ∧ exp < s.now := by
  constructor
  . intro hworks
    by_contra hunexpired
    rcases hworks (init s) .refl with ⟨row', hrow', hactive⟩
    change s.apiKeys.lookup key.id = some row' at hrow'
    rw [hrow] at hrow'
    injection hrow' with hrow'
    subst hrow'
    have hnever : ∀ exp, key.expiresAt = some exp → s.now ≤ exp := by
      intro exp hexp
      by_contra hlt
      exact hunexpired ⟨exp, hexpires.symm.trans hexp, Int.not_le.mp hlt⟩
    rcases hactive hrevoked hnever (fun _ => ⟨none, none, Vector.replicate 32 0, "", "", 0⟩) fun _ => rfl
      with ⟨r, hr, hactive, _⟩
    rw [← hr] at hactive
    have hinactive := @user_key_inactive _ _ (fun _ => ⟨none, none, Vector.replicate 32 0, "", "", 0⟩) _ _ _
      hkeys hrow haccount hkey hhash huncached
    exact Bool.false_ne_true (hinactive.symm.trans hactive)
  . rintro ⟨exp, hexp, hexpired⟩ m hm
    have hevolves := (evolution cfg).store hm
    rcases hevolves.apiKeys key.id row hrow with ⟨row', hrow', _⟩
    refine ⟨row', hrow', ?_⟩
    intro _ hunexpired
    have hlate := Int.le_trans hevolves.now (hunexpired exp (hexpires.trans hexp))
    exact absurd hexpired (Int.not_lt.mpr hlate)

/--
A request that is acceptable creates a key that works for its owner if and only if it does not have too many
scopes and the owner is a service account. A key of a user is only stored if there happens to be a service
account with the same identifier, and is not missed only if it was expired from the beginning.
-/
theorem api_key_works (cfg : Config) (s : Server) (hkeys : KeysSound s) (hcache : CacheBuilt s)
    (htables : TablesSound s) (req : CreateApiKeyRequest) (project : Project)
    (ownerType ownerId tenantId : String) (h : Acceptable s req project ownerType ownerId tenantId)
    (draws : Nat → Draw) (hfresh : ∀ n, FreshDraw cfg s (draws n)) :
    (((createApiKey cfg req).run (semantics cfg) draws s).1.status = 201
      ∧ ∃ key, ((createApiKey cfg req).run (semantics cfg) draws s).1.body = .createdKey key
        ∧ WorksFor cfg ((createApiKey cfg req).run (semantics cfg) draws s).2.2 key ownerId tenantId
          req.scopes)
      ↔
    (req.scopes.length ≤ Scope.maxScopesPerKey
      ∧ (ownerType = "service_account"
        ∨ ((∃ account, s.serviceAccounts.lookup ownerId = some account)
          ∧ ∃ exp, req.expiresAt.bind cfg.parseRfc3339 = some exp ∧ exp < s.now))) := by
  have hkeys' : KeysSound ((createApiKey cfg req).run (semantics cfg) draws s).2.2 := hkeys.serve _
  have hcache' : CacheBuilt ((createApiKey cfg req).run (semantics cfg) draws s).2.2 :=
    hcache.serve (.create req)
  have hhealthy : Healthy draws := fun n => (hfresh n).fault
  by_cases hlength : req.scopes.length ≤ Scope.maxScopesPerKey
  . rcases @run_createApiKey cfg _ _ _ _ _ _ _ h htables hlength hhealthy with ⟨k, hrun⟩
    have hfresh' : ∀ n, FreshDraw cfg s (draws (n + k)) := fun n => hfresh (n + k)
    rw [hrun] at hkeys' hcache' ⊢
    rcases h.owner with ⟨rfl, hexists⟩ | ⟨rfl, hexists⟩
    . by_cases haccount : ∃ account, s.serviceAccounts.lookup ownerId = some account
      . rcases run_createKey_user h htables hfresh' haccount with ⟨rest, auditLogs, hrun⟩
        rw [hrun] at hkeys' hcache' ⊢
        have hworks := @worksFor_user cfg _ (newKey cfg req project (draws (0 + k)) (draws (1 + k))) ownerId tenantId
          req.scopes _ _ hkeys'
          (hcache.uncached (hfresh' 1).hash) givenAway_lookup rfl rfl rfl rfl _ rfl
        constructor
        . rintro ⟨_, key, hbody, hkey⟩
          injection hbody with hbody
          subst hbody
          exact ⟨hlength, .inr ⟨haccount, hworks.mp hkey⟩⟩
        . rintro ⟨_, hkind | ⟨_, hexpired⟩⟩
          . contradiction
          . exact ⟨rfl, _, rfl, hworks.mpr hexpired⟩
      . refine iff_of_false ?_ ?_
        . rintro ⟨hstatus, _⟩
          have hnone : s.serviceAccounts.lookup ownerId = none := by
            rw [Option.eq_none_iff_forall_ne_some]
            exact fun account hrow => haccount ⟨account, hrow⟩
          exact run_createKey_unowned hnone hstatus
        . rintro ⟨_, hkind | ⟨hsome, _⟩⟩
          . contradiction
          . exact haccount hsome
    . refine iff_of_true ?_ ⟨hlength, .inl rfl⟩
      have haccount : ∃ account, s.serviceAccounts.lookup ownerId = some account :=
        hexists.imp fun _ hrow => hrow.1
      rcases run_createKey_account h htables hfresh' haccount with ⟨rest, auditLogs, hrun⟩
      rw [hrun] at hkeys' hcache' ⊢
      refine ⟨rfl, _, rfl, ?_⟩
      exact worksFor_account hkeys' hcache' (AList.lookup_insert _) rfl rfl rfl rfl rfl rfl
  . refine iff_of_false ?_ fun hcond => hlength hcond.1
    rintro ⟨hstatus, _⟩
    rw [createApiKey_too_many h (Nat.not_le.mp hlength)] at hstatus
    contradiction

namespace Sample

/--
The service account without an API key, among a user and a scope.
-/
def ownerServer : Server :=
  { keylessServer with
    scopes := (∅ : Table String Scope).insert "2zGv5sCoPeIdGhIjKlMnOpQrStU" ⟨"pandaria:session:read"⟩ }

theorem lookup_single {κ ρ : Type} [DecidableEq κ] {k k' : κ} {r r' : ρ}
    (h : ((∅ : Table κ ρ).insert k r).lookup k' = some r') : k' = k ∧ r' = r := by
  by_cases hk : k' = k
  . subst hk
    rw [AList.lookup_insert] at h
    injection h with h
    exact ⟨rfl, h.symm⟩
  . rw [AList.lookup_insert_ne hk] at h
    contradiction

theorem ownerServer_sound : KeysSound ownerServer :=
  ⟨keylessServer_sound.1.unique, keylessServer_sound.1.storable⟩

theorem ownerServer_tables : TablesSound ownerServer := by
  constructor
  . intro id id' sc sc' hrow hrow' _
    rw [(lookup_single hrow).1, (lookup_single hrow').1]
  . intro id sc hrow
    rw [(lookup_single hrow).2]
    decide +kernel
  . intro id user hrow
    rcases lookup_single hrow with ⟨rfl, rfl⟩
    exact ⟨by decide +kernel, by decide +kernel, _, AList.lookup_insert _⟩
  . intro id account hrow
    rcases lookup_single hrow with ⟨rfl, rfl⟩
    exact ⟨by decide +kernel, by decide +kernel, _, AList.lookup_insert _⟩

def keyRequest (ownerType ownerId : String) : CreateApiKeyRequest where
  ownerType := some ownerType
  ownerId := some ownerId
  serviceAccountId := none
  project := "pandaria"
  scopes := ["pandaria:session:read"]
  expiresAt := none

theorem keyRequest_acceptable {ownerType ownerId : String}
    (howner : OwnerExists ownerServer ownerType ownerId "default")
    : Acceptable ownerServer (keyRequest ownerType ownerId) .pandaria ownerType ownerId "default" := by
  refine ⟨rfl, by decide, rfl, rfl, howner, List.nodup_singleton _, ?_⟩
  intro scope hscope
  rw [List.mem_singleton.mp hscope]
  exact ⟨rfl, _, AList.lookup_insert _⟩

theorem draw_fresh : FreshDraw config ownerServer (draw 4) := by
  refine ⟨rfl, rfl, by decide +kernel, rfl, by decide +kernel, ?_⟩
  intro id row hrow
  cases hrow

end Sample

open Sample in
theorem api_key_works_account :
    ((createApiKey config (keyRequest "service_account" serviceAccountId)).run (semantics config)
        (fun _ => draw 4) ownerServer).1.status = 201 := by
  have howner : OwnerExists ownerServer "service_account" serviceAccountId "default" :=
    .inr ⟨rfl, _, AList.lookup_insert _, rfl⟩
  exact ((api_key_works config ownerServer ownerServer_sound (uncached_built fun _ => rfl)
    ownerServer_tables (keyRequest "service_account" serviceAccountId) .pandaria "service_account"
    serviceAccountId "default" (keyRequest_acceptable howner) (fun _ => draw 4)
    fun _ => draw_fresh).mpr ⟨by decide, .inl rfl⟩).1

open Sample in
/--
A request for a key of a user fails.
-/
theorem api_key_fails_user :
    KeysSound ownerServer ∧ CacheBuilt ownerServer ∧ TablesSound ownerServer
      ∧ Acceptable ownerServer (keyRequest "user" userId) .pandaria "user" userId "default"
      ∧ FreshDraw config ownerServer (draw 4)
      ∧ ((createApiKey config (keyRequest "user" userId)).run (semantics config) (fun _ => draw 4)
          ownerServer).1.status = 500 := by
  have howner : OwnerExists ownerServer "user" userId "default" :=
    .inl ⟨rfl, _, AList.lookup_insert _, rfl⟩
  refine ⟨ownerServer_sound, uncached_built fun _ => rfl, ownerServer_tables,
    keyRequest_acceptable howner, draw_fresh, ?_⟩
  decide +kernel

/--
A key of a service account is created.
-/
example : ((createApiKey Sample.config (Sample.keyRequest "service_account" Sample.serviceAccountId)).run
    (semantics Sample.config) (fun _ => Sample.draw 4) Sample.ownerServer).1.status = 201 := by
  decide +kernel

end Aspectus
