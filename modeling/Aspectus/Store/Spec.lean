import Aspectus.Store.Semantics

/-!
This module contains one specification for each statement that writes: what has to hold for it to
succeed and which rows it leaves.
-/

namespace Aspectus

open Interaction

theorem bind_eq_ok {α β : Type} {x : Result α} {f : α → Result β} {b : β} :
    (x >>= f) = .ok b ↔ ∃ a, x = .ok a ∧ f a = .ok b := by
  cases x with
  | error e => simp [bind, Except.bind]
  | ok a => simp [bind, Except.bind]

namespace Statement

section Storable

theorem storable_iff {t : String} : storable t = true ↔ ∀ c ∈ t.toList, c ≠ Char.ofNat 0 := by
  unfold storable
  simp only [Bool.not_eq_true', ← Bool.not_eq_true, List.contains_iff_mem, zero_mem_utf8]
  constructor
  . intro h c hc heq
    exact h (heq ▸ hc)
  . intro h hc
    exact h _ hc rfl

theorem storable_ofList {l : List Char} (h : Char.ofNat 0 ∉ l) : storable (String.ofList l) = true := by
  rw [storable_iff, String.toList_ofList]
  rintro _ hc rfl
  exact h hc

theorem digit_ne_zero {n : Nat} (h : n < 16) : Hex.digit n ≠ Char.ofNat 0 := by
  revert n
  decide

theorem encode_storable (raw : List UInt8) : storable (Hex.encode raw) = true := by
  rw [storable_iff]
  unfold Hex.encode
  rw [String.toList_ofList]
  induction raw with
  | nil => nofun
  | cons b bs ih =>
    have hb : b.toNat < 256 := b.toNat_lt
    unfold Hex.encode.go
    simp only [List.forall_mem_cons]
    exact ⟨digit_ne_zero (by omega), digit_ne_zero (by omega), ih⟩

theorem append_storable {t t' : String} (h : storable t = true) (h' : storable t' = true) :
    storable (t ++ t') = true := by
  rw [storable_iff] at h h' ⊢
  rw [String.toList_append]
  exact List.forall_mem_append.mpr ⟨h, h'⟩

end Storable

section Run

variable {α : Type} {d : Draw} {params : List String} {s : Server}

/--
A statement either is answered with an error and changes nothing, or does what it says.
-/
theorem run_cases (d : Draw) (params : List String) (f : Server → Result (α × Server))
    (s : Server) :
    (∃ e, run d params f s = (.error e, s))
      ∨ ∃ a s', d.fault = none ∧ params.all storable ∧ f s = .ok (a, s')
        ∧ run d params f s = (.ok a, s') := by
  unfold run
  split
  . next e _ => exact .inl ⟨e, rfl⟩
  . next hfault =>
    split
    . next hparams =>
      split
      . next a s' hf => exact .inr ⟨a, s', hfault, hparams, hf, rfl⟩
      . next e _ => exact .inl ⟨e, rfl⟩
    . exact .inl ⟨_, rfl⟩

theorem run_ok {f : Server → Result (α × Server)} {a : α} (h : (run d params f s).1 = .ok a) :
    f s = .ok (a, (run d params f s).2) := by
  rcases run_cases d params f s with ⟨e, hrun⟩ | ⟨a', s', _, _, hf, hrun⟩
  . rw [hrun] at h
    contradiction
  . rw [hrun] at h ⊢
    injection h with h
    subst h
    exact hf

/--
A statement only succeeds if there is no fault and the parameters are storable.
-/
theorem run_accepted {f : Server → Result (α × Server)} {a : α} (h : (run d params f s).1 = .ok a) :
    d.fault = none ∧ params.all storable = true := by
  rcases run_cases d params f s with ⟨e, hrun⟩ | ⟨_, _, hfault, hparams, _⟩
  . rw [hrun] at h
    contradiction
  . exact ⟨hfault, hparams⟩

theorem run_error {f : Server → Result (α × Server)} {e : String}
    (h : (run d params f s).1 = .error e) : (run d params f s).2 = s := by
  rcases run_cases d params f s with ⟨e, hrun⟩ | ⟨a, s', _, _, _, hrun⟩
  . rw [hrun]
  . rw [hrun] at h
    contradiction

/--
Without a fault, a statement with storable parameters does what it says.
-/
theorem run_healthy {f : Server → Result (α × Server)} {a : α} {s' : Server}
    (hfault : d.fault = none) (hparams : params.all storable = true) (hf : f s = .ok (a, s'))
    : run d params f s = (.ok a, s') := by
  unfold run
  simp [hfault, hparams, hf]

@[simp]
theorem query_store (f : Server → Result α) : (query d params f s).2 = s := by
  unfold query
  rcases run_cases d params (fun s => (f s).map fun a => (a, s)) s with ⟨e, hrun⟩ | ⟨a, s', _, _, hf, hrun⟩
  . rw [hrun]
  . rw [hrun]
    dsimp at hf ⊢
    cases hfs : f s with
    | error e =>
      rw [hfs] at hf
      cases hf
    | ok a =>
      rw [hfs] at hf
      cases hf
      rfl

theorem query_ok {f : Server → Result α} {a : α} (h : (query d params f s).1 = .ok a) :
    f s = .ok a := by
  have := run_ok h
  dsimp at this
  cases hfs : f s with
  | error e =>
    rw [hfs] at this
    cases this
  | ok a =>
    rw [hfs] at this
    injection this with this
    injection this with this _
    rw [this]

/--
Without a fault, a query with storable parameters is answered from the state.
-/
theorem query_answers {f : Server → Result α} (hfault : d.fault = none)
    (hparams : params.all storable = true) : query d params f s = (f s, s) := by
  unfold query run
  simp only [hfault, hparams, if_true]
  cases f s with
  | error e => rfl
  | ok a => rfl

theorem query_healthy {f : Server → Result α} {a : α} (hfault : d.fault = none)
    (hparams : params.all storable = true) (hf : f s = .ok a) : query d params f s = (.ok a, s) := by
  unfold query
  apply run_healthy hfault hparams
  simp [hf, Except.map]

end Run

theorem insert_ok {ρ : Type} {constraint k : String} {r : ρ} {t t' : Table String ρ} :
    insert constraint k r t = .ok t' ↔ t.insertNew k r = some t' := by
  unfold insert
  split
  . next h => simp [h]
  . next h => simp [h]

theorem references_ok {ρ : Type} {table constraint k : String} {t : Table String ρ} {u : Unit} :
    references table constraint k t = .ok u ↔ ∃ r, t.lookup k = some r := by
  unfold references
  split
  . next h => simp [h]
  . next h => simp [h]

theorem require_ok {condition : Bool} {error : String} {u : Unit} :
    require condition error = .ok u ↔ condition = true := by
  unfold require
  split
  . next h => simp [h]
  . next h => simp [h]

theorem notNull_ok {α : Type} {column : String} {o : Option α} {a : α} :
    notNull column o = .ok a ↔ o = some a := by
  cases o with
  | none => simp [notNull]
  | some b => simp [notNull]

theorem byEmail_some {tenantId email id : String} {s : Server} {u : User}
    (h : byEmail tenantId email s = some (id, u)) :
    s.users.lookup id = some u ∧ u.tenantId = tenantId ∧ u.email = some email := by
  unfold byEmail at h
  have := List.mem_of_mem_head? h
  simpa using this

theorem byHash_some {keyHash id : String} {s : Server} {row : ApiKeyRow}
    (h : byHash keyHash s = some (id, row)) :
    s.apiKeys.lookup id = some row ∧ row.keyHash = keyHash := by
  unfold byHash at h
  have := List.mem_of_mem_head? h
  simpa using this

theorem byHash_none {keyHash id : String} {s : Server} {row : ApiKeyRow}
    (h : byHash keyHash s = none) (hrow : s.apiKeys.lookup id = some row) :
    row.keyHash ≠ keyHash := by
  unfold byHash at h
  intro hk
  have hmem : (id, row) ∈ s.apiKeys.select fun _ row => row.keyHash = keyHash := by
    simp [hrow, hk]
  rw [List.head?_eq_none_iff.mp h] at hmem
  contradiction

section Users

variable {s s' : Server}

theorem selectLogin_ok {tenantId email : String} {row : LoginRow}
    (h : selectLogin tenantId email s = .ok (some row))
    : ∃ u, s.users.lookup row.id = some u ∧ u.tenantId = tenantId ∧ u.email = some email
        ∧ row.tenantId = tenantId ∧ u.passwordHash = some row.passwordHash
        ∧ row.lockedUntil = u.lockedUntil ∧ row.failedLoginAttempts = u.failedLoginAttempts
        ∧ row.isSuspended = u.isSuspended := by
  unfold selectLogin at h
  split at h
  . cases h
  . next id u hu =>
    simp only [bind_eq_ok, notNull_ok] at h
    rcases h with ⟨hash, hhash, h⟩
    injection h with h
    injection h with h
    subst h
    rcases byEmail_some hu with ⟨h1, h2, h3⟩
    exact ⟨u, h1, h2, h3, h2, hhash, rfl, rfl, rfl⟩

theorem selectCredentials_ok {tenantId email id tid hash : String}
    (h : selectCredentials tenantId email s = .ok (some (id, tid, hash)))
    : ∃ u, s.users.lookup id = some u ∧ u.tenantId = tenantId ∧ u.email = some email
        ∧ tid = tenantId ∧ u.passwordHash = some hash := by
  unfold selectCredentials at h
  split at h
  . cases h
  . next id' u hu =>
    simp only [bind_eq_ok, notNull_ok] at h
    rcases h with ⟨hash', hhash, h⟩
    injection h with h
    simp only [Option.some.injEq, Prod.mk.injEq] at h
    rcases h with ⟨rfl, rfl, rfl⟩
    rcases byEmail_some hu with ⟨h1, h2, h3⟩
    exact ⟨u, h1, h2, h3, h2, hhash⟩

theorem isSuspended_ok {id : String} {b : Bool} (h : isSuspended id s = .ok b)
    : ∃ u, s.users.lookup id = some u ∧ u.isSuspended = b := by
  unfold isSuspended at h
  split at h
  . next u hu =>
    injection h with h
    exact ⟨u, hu, h⟩
  . contradiction

theorem insertUser_ok {id tenantId email passwordHash : String} {displayName : Option String}
    {a : User} (h : insertUser id tenantId email passwordHash displayName s = .ok (a, s'))
    : ∃ u users, s.users.insertNew id u = some users ∧ s' = { s with users := users }
        ∧ u.tenantId = tenantId ∧ u.passwordHash = some passwordHash ∧ u.isSuspended = false := by
  unfold insertUser at h
  simp only [bind_eq_ok, insert_ok] at h
  rcases h with ⟨email, _, displayName, _, users, husers, _, _, _, _, h⟩
  injection h with h
  injection h with _ h
  exact ⟨_, users, husers, h.symm, rfl, rfl, rfl⟩

theorem recordFailedLogin_ok {id : String} {threshold durationSecs : Int}
    {r : Int × Option Instant}
    (h : recordFailedLogin id threshold durationSecs s = .ok (r, s'))
    : ∃ u, s.users.lookup id = some u ∧ s' = updateUser id (fun u =>
        { u with failedLoginAttempts := r.1, lockedUntil := r.2 }) s := by
  unfold recordFailedLogin at h
  split at h
  . contradiction
  . next u hu =>
    dsimp only at h
    split at h
    . contradiction
    . split at h
      . contradiction
      . injection h with h
        injection h with h1 h2
        subst h1
        exact ⟨u, hu, h2.symm⟩

end Users

section Codes

variable {s s' : Server}

theorem createCode_ok {code userId clientId redirectUri : String} {expiresAt : Instant} {a : Unit}
    (h : createCode code userId clientId redirectUri expiresAt s = .ok (a, s'))
    : ∃ codes, s.authorizationCodes.insertNew code ⟨userId, clientId, redirectUri, expiresAt, false, none⟩
        = some codes ∧ s' = { s with authorizationCodes := codes } := by
  unfold createCode at h
  simp only [bind_eq_ok, insert_ok] at h
  rcases h with ⟨codes, hcodes, _, _, h⟩
  injection h with h
  injection h with _ h
  exact ⟨codes, hcodes, h.symm⟩

theorem setChallenge_ok {challenge code : String} {a : Unit}
    (h : setChallenge challenge code s = .ok (a, s'))
    : (s.authorizationCodes.lookup code = none ∧ s' = s)
        ∨ ∃ stored, varchar 255 challenge = .ok stored ∧ s' = { s with
            authorizationCodes :=
              s.authorizationCodes.updateAt code fun c => { c with codeChallenge := some stored } } := by
  unfold setChallenge at h
  split at h
  . next hnone =>
    injection h with h
    injection h with _ h
    exact .inl ⟨hnone, h.symm⟩
  . simp only [bind_eq_ok] at h
    rcases h with ⟨stored, hstored, h⟩
    injection h with h
    injection h with _ h
    exact .inr ⟨stored, hstored, h.symm⟩

/--
Only unused codes that have not expired are exchanged, and they are used from then on.
-/
theorem exchangeCode_ok {code : String} {r : Option (String × String × String)}
    (h : exchangeCode code s = .ok (r, s'))
    : (r = none ∧ s' = s)
        ∨ ∃ c, s.authorizationCodes.lookup code = some c ∧ exchangeable s.now c = true
          ∧ r = some (c.userId, c.clientId, c.redirectUri) ∧ s' = { s with
            authorizationCodes :=
              s.authorizationCodes.updateAt code fun c => { c with used := true } } := by
  unfold exchangeCode at h
  split at h
  . next c hc =>
    split at h
    . next hex =>
      injection h with h
      injection h with h1 h2
      exact .inr ⟨c, hc, hex, h1.symm, h2.symm⟩
    . injection h with h
      injection h with h1 h2
      exact .inl ⟨h1.symm, h2.symm⟩
  . injection h with h
    injection h with h1 h2
    exact .inl ⟨h1.symm, h2.symm⟩

end Codes

section RefreshTokens

variable {s s' : Server}

theorem createRefreshToken_ok {tokenHash userId clientId : String} {expiresAt : Instant} {a : Unit}
    (h : createRefreshToken tokenHash userId clientId expiresAt s = .ok (a, s'))
    : ∃ tokens, s.refreshTokens.insertNew tokenHash ⟨userId, clientId, expiresAt, none⟩ = some tokens
        ∧ s' = { s with refreshTokens := tokens } := by
  unfold createRefreshToken at h
  simp only [bind_eq_ok, insert_ok] at h
  rcases h with ⟨tokens, htokens, _, _, h⟩
  injection h with h
  injection h with _ h
  exact ⟨tokens, htokens, h.symm⟩

/--
Only tokens that are neither revoked nor expired are rotated, and they are revoked from then on.
-/
theorem rotate_ok {tokenHash : String} {r : Option (String × String × String)}
    (h : rotate tokenHash s = .ok (r, s'))
    : (r = none ∧ s' = s ∧ ∀ t, s.refreshTokens.lookup tokenHash = some t → rotatable s.now t = false)
        ∨ ∃ t, s.refreshTokens.lookup tokenHash = some t ∧ rotatable s.now t = true
          ∧ r = some (t.userId, t.clientId, tokenHash) ∧ s' = { s with
            refreshTokens :=
              s.refreshTokens.updateAt tokenHash fun t => { t with revokedAt := some s.now } } := by
  unfold rotate at h
  split at h
  . next t ht =>
    split at h
    . next hrot =>
      injection h with h
      injection h with h1 h2
      exact .inr ⟨t, ht, hrot, h1.symm, h2.symm⟩
    . next hrot =>
      injection h with h
      injection h with h1 h2
      refine .inl ⟨h1.symm, h2.symm, ?_⟩
      simpa [ht] using hrot
  . next hnone =>
    injection h with h
    injection h with h1 h2
    refine .inl ⟨h1.symm, h2.symm, ?_⟩
    simp [hnone]

end RefreshTokens

theorem createClient_ok {clientId name clientSecretHash : String} {redirectUris : List String}
    {s s' : Server} {a : Unit}
    (h : createClient clientId name redirectUris clientSecretHash s = .ok (a, s'))
    : ∃ c clients, s.oauth2Clients.insertNew clientId c = some clients
        ∧ s' = { s with oauth2Clients := clients } := by
  unfold createClient at h
  simp only [bind_eq_ok, insert_ok] at h
  rcases h with ⟨name, _, clients, hclients, h⟩
  injection h with h
  injection h with _ h
  exact ⟨_, clients, hclients, h.symm⟩

theorem insertResetToken_ok {tokenHash userId : String} {expiresAt : Instant} {s s' : Server}
    {a : Unit} (h : insertResetToken tokenHash userId expiresAt s = .ok (a, s'))
    : ∃ tokens, s.passwordResetTokens.insertNew tokenHash ⟨userId, expiresAt, false⟩ = some tokens
        ∧ s' = { s with passwordResetTokens := tokens } := by
  unfold insertResetToken at h
  simp only [bind_eq_ok, insert_ok] at h
  rcases h with ⟨tokens, htokens, _, _, h⟩
  injection h with h
  injection h with _ h
  exact ⟨tokens, htokens, h.symm⟩

theorem claimResetToken_ok {tokenHash : String} {s s' : Server} {r : Option String}
    (h : claimResetToken tokenHash s = .ok (r, s'))
    : (r = none ∧ s' = s)
        ∨ ∃ t, s.passwordResetTokens.lookup tokenHash = some t ∧ r = some t.userId
          ∧ s' = { s with
            passwordResetTokens :=
              s.passwordResetTokens.updateAt tokenHash fun t => { t with used := true } } := by
  unfold claimResetToken at h
  split at h
  . next t ht =>
    split at h
    . injection h with h
      injection h with h1 h2
      exact .inr ⟨t, ht, h1.symm, h2.symm⟩
    . injection h with h
      injection h with h1 h2
      exact .inl ⟨h1.symm, h2.symm⟩
  . injection h with h
    injection h with h1 h2
    exact .inl ⟨h1.symm, h2.symm⟩

section Roles

variable {s s' : Server}

/--
The user was given the role: both exist, the role permits users, and the user did not have it before.
-/
structure Assigned (id userId roleId : String) (s s' : Server) : Prop where
  user : ∃ u, s.users.lookup userId = some u
  role : ∃ r, s.roles.lookup roleId = some r ∧ r.roleType.permitsUsers = true
  absent : assignments userId roleId s = []
  store : ∃ usersRoles, s.usersRoles.insertNew id ⟨userId, roleId⟩ = some usersRoles
    ∧ s' = { s with usersRoles := usersRoles }

theorem checkRoleType_ok {roleId : String} {a : Unit} (h : checkRoleType roleId s = .ok a) {r : Role}
    (hr : s.roles.lookup roleId = some r) : r.roleType.permitsUsers = true := by
  unfold checkRoleType at h
  simpa [hr] using require_ok.mp h

theorem assignDefaultRole_ok {id userId roleId : String} {a : Unit}
    (h : assignDefaultRole id userId roleId s = .ok (a, s'))
    : (s' = s ∧ assignments userId roleId s ≠ []) ∨ Assigned id userId roleId s s' := by
  unfold assignDefaultRole at h
  rcases bind_eq_ok.mp h with ⟨_, htype, h⟩
  split at h
  . next habsent =>
    simp only [bind_eq_ok, insert_ok, references_ok] at h
    rcases h with ⟨usersRoles, husersRoles, _, huser, _, ⟨r, hrole⟩, h⟩
    injection h with h
    injection h with _ h
    exact .inr ⟨huser, ⟨r, hrole, checkRoleType_ok htype hrole⟩, List.isEmpty_iff.mp habsent,
      usersRoles, husersRoles, h.symm⟩
  . next hpresent =>
    injection h with h
    injection h with _ h
    refine .inl ⟨h.symm, ?_⟩
    intro hnil
    rw [hnil] at hpresent
    contradiction

theorem assignRole_ok {id userId roleId : String} {a : Unit}
    (h : assignRole id userId roleId s = .ok (a, s')) : Assigned id userId roleId s s' := by
  unfold assignRole at h
  simp only [bind_eq_ok, insert_ok, references_ok, require_ok] at h
  rcases h with ⟨_, htype, usersRoles, husersRoles, _, habsent, _, huser, _, ⟨r, hrole⟩, h⟩
  injection h with h
  injection h with _ h
  exact ⟨huser, ⟨r, hrole, checkRoleType_ok htype hrole⟩, List.isEmpty_iff.mp habsent, usersRoles,
    husersRoles, h.symm⟩

theorem insertRole_ok {id name : String} {description : Option String} {roleType : RoleType}
    {role : Role} (h : insertRole id name description roleType s = .ok (role, s'))
    : role.roleType = roleType ∧ ∃ roles, s.roles.insertNew id role = some roles
        ∧ s' = { s with roles := roles } := by
  unfold insertRole at h
  simp only [bind_eq_ok, insert_ok] at h
  rcases h with ⟨name, _, description, _, roles, hroles, _, _, h⟩
  injection h with h
  injection h with hrole h
  subst hrole
  exact ⟨rfl, roles, hroles, h.symm⟩

theorem updateRole_ok {id : String} {description : Option String} {roleType : RoleType} {role : Role}
    (h : updateRole id description roleType s = .ok (role, s'))
    : ∃ old stored, s.roles.lookup id = some old
        ∧ role = { old with description := stored, roleType := roleType } ∧ s' = { s with
          roles := s.roles.updateAt id fun role =>
            { role with description := stored, roleType := roleType } } := by
  unfold updateRole at h
  split at h
  . contradiction
  . next old hold =>
    simp only [bind_eq_ok] at h
    rcases h with ⟨stored, _, h⟩
    injection h with h
    injection h with hrole h
    exact ⟨old, stored, hold, hrole.symm, h.symm⟩

theorem deleteRole_ok {id : String} {b : Bool} (h : deleteRole id s = .ok (b, s'))
    : (b = false ∧ s' = s ∧ s.roles.lookup id = none)
        ∨ (b = true ∧ roleUsers id s = []
          ∧ s' = { deleteRoleScopes id s with roles := s.roles.erase id }) := by
  unfold deleteRole at h
  split at h
  . next hnone =>
    injection h with h
    injection h with hb h
    exact .inl ⟨hb.symm, h.symm, hnone⟩
  . simp only [bind_eq_ok, require_ok] at h
    rcases h with ⟨_, hunused, h⟩
    injection h with h
    injection h with hb h
    exact .inr ⟨hb.symm, List.isEmpty_iff.mp hunused, h.symm⟩

theorem addRoleScope_ok {id roleId scopeId : String} {a : Unit}
    (h : addRoleScope id roleId scopeId s = .ok (a, s'))
    : (s' = s ∧ attachments roleId scopeId s ≠ [])
        ∨ (attachments roleId scopeId s = [] ∧ (∃ r, s.roles.lookup roleId = some r)
          ∧ (∃ sc, s.scopes.lookup scopeId = some sc)
          ∧ ∃ rolesScopes, s.rolesScopes.insertNew id ⟨roleId, scopeId⟩ = some rolesScopes
            ∧ s' = { s with rolesScopes := rolesScopes }) := by
  unfold addRoleScope at h
  split at h
  . next habsent =>
    simp only [bind_eq_ok, insert_ok, references_ok] at h
    rcases h with ⟨rolesScopes, hrolesScopes, _, hrole, _, hscope, h⟩
    injection h with h
    injection h with _ h
    exact .inr ⟨List.isEmpty_iff.mp habsent, hrole, hscope, rolesScopes, hrolesScopes, h.symm⟩
  . next hpresent =>
    injection h with h
    injection h with _ h
    refine .inl ⟨h.symm, ?_⟩
    intro hnil
    rw [hnil] at hpresent
    contradiction

theorem insertScope_ok {id name : String} {a : Unit} (h : insertScope id name s = .ok (a, s'))
    : ∃ stored scopes, varchar 256 name = .ok stored ∧ scopesNamed stored s = []
        ∧ s.scopes.insertNew id ⟨stored⟩ = some scopes ∧ s' = { s with scopes := scopes } := by
  unfold insertScope at h
  simp only [bind_eq_ok, insert_ok, require_ok] at h
  rcases h with ⟨stored, hstored, scopes, hscopes, _, hunused, h⟩
  injection h with h
  injection h with _ h
  exact ⟨stored, scopes, hstored, List.isEmpty_iff.mp hunused, hscopes, h.symm⟩

end Roles

section ApiKeys

variable {s s' : Server}

theorem decodeApiKey_ok {id : String} {row : ApiKeyRow} {key : ApiKey}
    (h : decodeApiKey id row = .ok key)
    : row.serviceAccountId = some key.serviceAccountId ∧ key.id = id
        ∧ key.tenantId = row.tenantId ∧ key.project = row.project ∧ key.keyHash = row.keyHash
        ∧ key.scopes = row.scopes ∧ key.expiresAt = row.expiresAt
        ∧ key.revokedAt = row.revokedAt := by
  unfold decodeApiKey at h
  simp only [bind_eq_ok, notNull_ok] at h
  rcases h with ⟨sa, hsa, h⟩
  injection h with h
  subst h
  exact ⟨hsa, rfl, rfl, rfl, rfl, rfl, rfl, rfl⟩

theorem map_some_ok {α : Type} {x : Result α} {a : α} (h : x.map some = .ok (some a)) : x = .ok a := by
  cases x with
  | error e => contradiction
  | ok b =>
    injection h with h
    injection h with h
    rw [h]

theorem findByHash_ok {keyHash : String} {key : ApiKey} (h : findByHash keyHash s = .ok (some key))
    : ∃ row, s.apiKeys.lookup key.id = some row ∧ row.keyHash = keyHash
        ∧ decodeApiKey key.id row = .ok key := by
  unfold findByHash at h
  cases hfind : byHash keyHash s with
  | none =>
    rw [hfind] at h
    cases h
  | some entry =>
    rcases entry with ⟨id, row⟩
    rw [hfind] at h
    have hdecode := map_some_ok h
    have hid := (decodeApiKey_ok hdecode).2.1
    rcases byHash_some hfind with ⟨hrow, hhash⟩
    subst hid
    exact ⟨row, hrow, hhash, hdecode⟩

theorem findById_ok {id : String} {key : ApiKey} (h : findById id s = .ok (some key))
    : ∃ row, s.apiKeys.lookup id = some row ∧ decodeApiKey id row = .ok key := by
  unfold findById at h
  cases hfind : s.apiKeys.lookup id with
  | none =>
    rw [hfind] at h
    cases h
  | some row =>
    rw [hfind] at h
    exact ⟨row, rfl, map_some_ok h⟩

theorem insertApiKey_ok {params : InsertApiKeyParams} {key : ApiKey}
    (h : insertApiKey params s = .ok (key, s'))
    : ∃ row apiKeys, s.apiKeys.insertNew params.id row = some apiKeys
        ∧ s' = { s with apiKeys := apiKeys } ∧ row.keyHash = params.keyHash
        ∧ row.expiresAt = params.expiresAt ∧ row.revokedAt = none
        ∧ byHash params.keyHash s = none := by
  unfold insertApiKey at h
  simp only [bind_eq_ok, insert_ok, require_ok] at h
  rcases h with ⟨_, _, apiKeys, hapiKeys, _, hnone, _, _, _, _, key, _, h⟩
  injection h with h
  injection h with _ h
  exact ⟨_, apiKeys, hapiKeys, h.symm, rfl, rfl, rfl, by simpa using hnone⟩

theorem revokeApiKey_ok {id : String} {b : Bool} (h : revokeApiKey id s = .ok (b, s'))
    : (b = false ∧ s' = s ∧ ∀ row, s.apiKeys.lookup id = some row → row.revokedAt.isSome)
        ∨ (b = true ∧ s' = { s with
          apiKeys := s.apiKeys.updateAt id fun row => { row with revokedAt := some s.now } }
          ∧ ∃ row, s.apiKeys.lookup id = some row ∧ row.revokedAt = none) := by
  unfold revokeApiKey at h
  split at h
  . next row hrow =>
    split at h
    . next hnone =>
      injection h with h
      injection h with h1 h2
      exact .inr ⟨h1.symm, h2.symm, row, hrow, by simpa using hnone⟩
    . next hsome =>
      injection h with h
      injection h with h1 h2
      refine .inl ⟨h1.symm, h2.symm, ?_⟩
      rw [hrow]
      rintro row' hrow'
      injection hrow' with hrow'
      subst hrow'
      cases hr : row.revokedAt with
      | none => simp [hr] at hsome
      | some x => rfl
  . next hnone =>
    injection h with h
    injection h with h1 h2
    refine .inl ⟨h1.symm, h2.symm, ?_⟩
    simp [hnone]

theorem setUserOwner_ok {userId id : String} {a : Unit}
    (h : setUserOwner userId id s = .ok (a, s'))
    : s' = s ∨ s' = { s with
        apiKeys := s.apiKeys.updateAt id fun row =>
          { row with userId := some userId, serviceAccountId := none } } := by
  unfold setUserOwner at h
  split at h
  . injection h with h
    injection h with _ h
    exact .inl h.symm
  . simp only [bind_eq_ok] at h
    rcases h with ⟨_, _, h⟩
    injection h with h
    injection h with _ h
    exact .inr h.symm

end ApiKeys

theorem appendAudit_ok {id : String} {entry : AuditLog} {s s' : Server} {a : Unit}
    (h : appendAudit id entry s = .ok (a, s'))
    : ∃ auditLogs, s' = { s with auditLogs := auditLogs } := by
  unfold appendAudit at h
  simp only [bind_eq_ok] at h
  rcases h with ⟨_, _, _, _, _, _, _, _, _, _, auditLogs, _, _, _, h⟩
  injection h with h
  injection h with _ h
  exact ⟨auditLogs, h.symm⟩

theorem decodeServiceToken_ok {project : String} {row : ServiceTokenRow} {token : StoredServiceToken}
    (h : decodeServiceToken project row = some token)
    : token.project.toString = project ∧ token.tokenHash = row.tokenHash
        ∧ token.revokedAt = row.revokedAt := by
  unfold decodeServiceToken at h
  rcases Option.map_eq_some_iff.mp h with ⟨p, hp, rfl⟩
  exact ⟨Project.toString_of_parse hp, rfl, rfl⟩

/--
A token that is found by its hash is the one of an active row.
-/
theorem findServiceTokenByHash_ok {pick : Nat} {tokenHash : String} {token : StoredServiceToken}
    (h : findServiceTokenByHash pick tokenHash s = .ok (some token))
    : ∃ row, s.serviceTokens.lookup token.project.toString = some row ∧ row.tokenHash = tokenHash
        ∧ row.revokedAt = none ∧ token.tokenHash = tokenHash ∧ token.revokedAt = none := by
  unfold findServiceTokenByHash at h
  injection h with h
  rcases Option.bind_eq_some_iff.mp h with ⟨⟨project, row⟩, hmem, htoken⟩
  rcases Table.mem_select.mp (List.mem_of_getElem? hmem) with ⟨hrow, hmatch⟩
  simp only [decide_eq_true_eq, Option.isNone_iff_eq_none] at hmatch
  rcases decodeServiceToken_ok htoken with ⟨rfl, hhash, hrevoked⟩
  exact ⟨row, hrow, hmatch.1, hmatch.2, hhash.trans hmatch.1, hrevoked.trans hmatch.2⟩


theorem revokeServiceToken_ok {project : Project} {b : Bool}
    (h : revokeServiceToken project s = .ok (b, s'))
    : (b = false ∧ s' = s ∧ ∀ row, s.serviceTokens.lookup project.toString = some row →
          row.revokedAt.isSome)
        ∨ (b = true ∧ s' = { s with
          serviceTokens := s.serviceTokens.updateAt project.toString fun row =>
            { row with revokedAt := some s.now, updatedAt := s.now } }
          ∧ ∃ row, s.serviceTokens.lookup project.toString = some row ∧ row.revokedAt = none) := by
  unfold revokeServiceToken at h
  split at h
  . next row hrow =>
    split at h
    . next hnone =>
      injection h with h
      injection h with h1 h2
      exact .inr ⟨h1.symm, h2.symm, row, hrow, by simpa using hnone⟩
    . next hsome =>
      injection h with h
      injection h with h1 h2
      refine .inl ⟨h1.symm, h2.symm, ?_⟩
      rw [hrow]
      rintro row' hrow'
      injection hrow' with hrow'
      subst hrow'
      simpa [Option.isSome_iff_ne_none] using hsome
  . next hnone =>
    injection h with h
    injection h with h1 h2
    refine .inl ⟨h1.symm, h2.symm, ?_⟩
    rw [hnone]
    nofun

end Statement

theorem Server.del_redis_self {s : Server} {key : String} : (s.del key).redis key = none :=
  Function.update_self _ _ _

namespace Redis

variable {now : Instant} {slot slot' : Option CacheEntry}

theorem incr_ok {n : Int} (h : incr now slot = (.ok n, slot')) :
    ∃ deadline, slot' = some ⟨.counter n, deadline⟩ := by
  unfold incr at h
  split at h
  . cases h
    exact ⟨_, rfl⟩
  . split at h
    . cases h
      exact ⟨_, rfl⟩
    . cases h
  . cases h

theorem incr_error {e : String} (h : incr now slot = (.error e, slot')) : slot' = slot := by
  unfold incr at h
  split at h
  . cases h
  . split at h
    . cases h
    . cases h
      rfl
  . cases h
    rfl

/--
A time to live is refused, or over at once, or only the deadline is new.
-/
theorem expire_slot (ttlSecs : Int) (value : CacheValue) (deadline : Option Instant) :
    (expire now ttlSecs (some ⟨value, deadline⟩)).2 = none
      ∨ ∃ deadline', (expire now ttlSecs (some ⟨value, deadline⟩)).2 = some ⟨value, deadline'⟩ := by
  unfold expire
  split
  . exact .inr ⟨_, rfl⟩
  . split
    . exact .inl rfl
    . exact .inr ⟨_, rfl⟩

/--
The script of the rate limiter leaves its key as it is, or removes it, or leaves a counter.
-/
theorem rateLimit_slot (now : Instant) (maxRequests windowSecs : Int) (slot : Option CacheEntry) :
    (rateLimit now maxRequests windowSecs slot).2 = slot
      ∨ (rateLimit now maxRequests windowSecs slot).2 = none
      ∨ ∃ n deadline, (rateLimit now maxRequests windowSecs slot).2 = some ⟨.counter n, deadline⟩ := by
  unfold rateLimit
  dsimp only
  split
  . next e slot' hincr => exact .inl (incr_error hincr)
  . next n slot' hincr =>
    rcases incr_ok hincr with ⟨deadline, rfl⟩
    have hslot := @expire_slot now (Binary64.round windowSecs) (.counter n) deadline
    split
    . next e slot' hexpire =>
      split at hexpire
      . rw [hexpire] at hslot
        rcases hslot with hslot | ⟨deadline', hslot⟩
        . exact .inr (.inl hslot)
        . exact .inr (.inr ⟨n, deadline', hslot⟩)
      . cases hexpire
    . next slot' hexpire =>
      split at hexpire
      . rw [hexpire] at hslot
        rcases hslot with hslot | ⟨deadline', hslot⟩
        . exact .inr (.inl hslot)
        . exact .inr (.inr ⟨n, deadline', hslot⟩)
      . cases hexpire
        exact .inr (.inr ⟨n, deadline, rfl⟩)

end Redis

end Aspectus
