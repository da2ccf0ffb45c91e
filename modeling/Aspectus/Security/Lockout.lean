import Aspectus.Security.Enumeration

/-!
This module contains the lockout of an account: what its counter and its lock are after any sequence of logins
and unlocks that do not overlap.
-/

namespace Aspectus

open Interaction Prog Statement

/--
A request about an account that is known from the context.
-/
inductive AccountRequest where
  | login (a : Attempt)
  | unlock

def AccountRequest.handle (cfg : Config) (tenantId email id : String) : AccountRequest → App Response
  | .login a => a.handle cfg tenantId email
  | .unlock => Aspectus.unlock id

/--
Whether a lock is in force.
-/
def lockHolds (lockedUntil : Option Instant) (now : Instant) : Bool :=
  lockedUntil.any fun t => now < t

/--
The lock of an account after password failures at the given times, the latest comes first.
-/
def LockoutConfig.lock (cfg : LockoutConfig) (failures : List Instant) : Option Instant :=
  if cfg.threshold ≤ failures.length then
    failures.head?.map fun t => t + Instant.seconds cfg.durationSecs
  else
    none

/--
Whether one more failure can be recorded: the counter does not exceed a PostgreSQL `INTEGER`, and the end of a
lock is a timestamp.
-/
def LockoutConfig.recordable (cfg : LockoutConfig) (now : Instant) (failures : List Instant) : Prop :=
  failures.length < 2147483647
    ∧ (cfg.threshold ≤ (failures.length : Int) + 1 → Statement.lockable now cfg.durationSecs = true)

instance (cfg : LockoutConfig) (now : Instant) (failures : List Instant) :
    Decidable (cfg.recordable now failures) :=
  inferInstanceAs (Decidable (_ ∧ _))

/--
The password failures that are recorded since the last clear, after a request at `now`. A request for an
unknown project is refused before, and a locked account is not asked for its password.
-/
def AccountRequest.record (cfg : Config) (hash : Option String) (now : Instant) (failures : List Instant) :
    AccountRequest → List Instant
  | .unlock => []
  | .login a =>
    if (Project.parse a.clientId).isNone ∨ lockHolds (cfg.lockout.lock failures) now then
      failures
    else
      match hash.map (cfg.verifyPassword a.password) with
      | none => failures
      | some (.ok true) => []
      | some _ => if cfg.lockout.recordable now failures then now :: failures else failures

/--
The password failures that are recorded since the last clear, after some requests.
-/
def recordAll (cfg : Config) (hash : Option String) :
    List (Visit AccountRequest Draw) → Instant → List Instant → List Instant
  | [], _, failures => failures
  | v :: vs, now, failures =>
    recordAll cfg hash vs (now + v.wait) (v.request.record cfg hash now failures)

/--
The row of the account says what the failures are.
-/
structure Tracks (cfg : Config) (tenantId email id : String) (hash : Option String)
    (failures : List Instant) (s : Server) : Prop where
  row : ∃ u, byEmail tenantId email s = some (id, u) ∧ u.passwordHash = hash
    ∧ u.failedLoginAttempts = failures.length ∧ u.lockedUntil = cfg.lockout.lock failures
  idText : storable id = true
  texts : [tenantId, email].all storable = true
  -- An account without a password never gets as far as a failure.
  passwordless : hash = none → failures = []

section Frame

/--
The operation does not write what the lockout depends on.
-/
def Op.SparesLockout : Op → Prop
  | .user (.recordFailedLogin ..) => False
  | .user (.clearFailedLogins _) => False
  | .user (.setPassword ..) => False
  | .user (.setSuspended ..) => False
  | .user (.insert ..) => False
  | _ => True

variable {cfg : Config} {tenantId email id : String} {hash : Option String} {failures : List Instant}
  {s s' : Server}

theorem Tracks.of_users (h : Tracks cfg tenantId email id hash failures s) (hs : s'.users = s.users) :
    Tracks cfg tenantId email id hash failures s' := by
  refine ⟨?_, h.idText, h.texts, h.passwordless⟩
  unfold byEmail
  rw [hs]
  exact h.row

theorem byEmail_updateLastSignIn {u : User} (id' : String)
    (hrow : byEmail tenantId email s = some (id, u))
    : ∃ u', byEmail tenantId email (updateUser id' (fun u => { u with lastSignInAt := some s.now }) s)
          = some (id, u')
        ∧ u'.passwordHash = u.passwordHash ∧ u'.failedLoginAttempts = u.failedLoginAttempts
        ∧ u'.lockedUntil = u.lockedUntil := by
  unfold byEmail at hrow ⊢
  unfold updateUser Table.updateAt
  rw [Table.select_updateWhere _ fun _ u => by rfl, List.head?_map, hrow]
  by_cases hid : id = id'
  . exact ⟨{ u with lastSignInAt := some s.now, updatedAt := s.now }, by simp [hid], rfl, rfl, rfl⟩
  . exact ⟨u, by simp [hid], rfl, rfl, rfl⟩

theorem Tracks.exec {o : Op} (h : Tracks cfg tenantId email id hash failures s) (ho : o.SparesLockout)
    (d : Draw) : Tracks cfg tenantId email id hash failures (o.exec cfg d s).2 := by
  by_cases hgroup : ∃ o', o = .user o'
  . rcases hgroup with ⟨o, rfl⟩
    cases o with
    | updateLastSignIn id' =>
      apply run_store (P := Tracks cfg tenantId email id hash failures) h
      intro _ s' hs'
      cases hs'
      rcases h.row with ⟨u, hrow, hhash, hattempts, hlock⟩
      rcases byEmail_updateLastSignIn id' hrow with ⟨u', hrow', hhash', hattempts', hlock'⟩
      exact ⟨⟨u', hrow', hhash'.trans hhash, hattempts'.trans hattempts, hlock'.trans hlock⟩, h.idText,
        h.texts, h.passwordless⟩
    | recordFailedLogin => exact False.elim ho
    | clearFailedLogins => exact False.elim ho
    | setPassword => exact False.elim ho
    | setSuspended => exact False.elim ho
    | insert => exact False.elim ho
    | _ => exact h.of_users (congrArg Server.users (query_store _))
  . exact h.of_users ((Op.exec_framed cfg d s o).users (by simpa using hgroup))

theorem auditEvent_sparesLockout (params : AuditAuthParams) : (auditEvent params).Uses Op.SparesLockout :=
  auditEvent_uses trivial trivial fun _ _ _ _ => trivial

theorem issueTokens_sparesLockout (userId tenantId clientId : String) :
    (issueTokens cfg userId tenantId clientId).Uses Op.SparesLockout := by
  refine issueTokens_calls.mono fun o ho => ?_
  unfold Op.SparesLockout
  split
  . exact ho
  . exact ho
  . exact ho
  . exact ho
  . exact ho
  . trivial

end Frame

section Reply

variable {cfg : Config} {tenantId email id : String} {s : Server} {v : Visit Attempt Draw}
  {draws : Nat → Draw}

theorem ofCoreError_ne_unauthorized (e : CoreError) : (ProblemDetails.ofCoreError e).status ≠ 401 := by
  cases e
  all_goals nofun

theorem issueTokens_ne_unauthorized (userId tenantId clientId : String) (h : List (Event Api)) :
    (issueTokens cfg userId tenantId clientId).Conforms (fun _ _ => True) (fun _ r => r.status ≠ 401) h := by
  unfold issueTokens
  dsimp only
  apply (uses_of_forall (fun _ => trivial) _).conforms_bind fun _ _ _ ho => ho
  intro _ scopes _
  refine conforms_perform_bind trivial fun tenantRow => ?_
  refine conforms_perform_bind trivial fun userInfo => ?_
  apply (uses_of_forall (fun _ => trivial) _).conforms_bind fun _ _ _ ho => ho
  intro _ signed _
  cases signed with
  | error e => exact ofCoreError_ne_unauthorized e
  | ok access =>
    refine conforms_perform_bind trivial fun raw => ?_
    cases raw with
    | error e => nofun
    | ok raw =>
      refine conforms_perform_bind trivial fun now => ?_
      refine conforms_perform_bind trivial fun stored => ?_
      cases stored with
      | error e => nofun
      | ok u => nofun

/--
A login with the right password is never answered as locked.
-/
theorem succeed_ne_locked (row : LoginRow) (clientId ip : String) :
    (login.succeed cfg row clientId ip).Conforms (fun _ _ => True) (fun _ r => r ≠ login.locked) [] := by
  unfold login.succeed auditAuthEvent
  refine conforms_perform_bind trivial fun cleared => ?_
  split
  . apply (uses_of_forall (fun _ => trivial) _).conforms_bind fun _ _ _ ho => ho
    intro _ _ _ heq
    injection heq with _ hbody
    injection hbody with hbody
    injection hbody with _ _ _ _ hdetail
    revert hdetail
    decide
  . refine conforms_perform_bind trivial fun updated => ?_
    apply (uses_of_forall (fun _ => trivial) _).conforms_bind fun _ _ _ ho => ho
    intro _ _ _
    apply (issueTokens_ne_unauthorized _ _ _ _).mono fun _ _ ho => ho
    rintro _ r hstatus rfl
    exact hstatus rfl

theorem isLocked_eq (row : LoginRow) (now : Instant) :
    login.isLocked row now = lockHolds row.lockedUntil now := by
  unfold login.isLocked lockHolds
  cases row.lockedUntil with
  | none => rfl
  | some t => rfl

/--
An attempt on an account is answered according to the lock of the account.
-/
theorem run_attempt_row (h : asks tenantId email v = true) {row : LoginRow}
    (hselect : Statement.selectLogin tenantId email s = .ok (some row))
    : ∃ k, (v.request.handle cfg tenantId email).run (semantics cfg) v.draws s
        =
      (if lockHolds row.lockedUntil s.now then login.blocked row (clientIp v.request.forwardedFor)
        else login.checkPassword cfg ⟨email, v.request.password, tenantId, v.request.clientId⟩ row
          (clientIp v.request.forwardedFor)).run (semantics cfg) (fun n => v.draws (n + k)) s := by
  rw [run_attempt h, hselect, ← isLocked_eq]
  dsimp only
  cases hlocked : row.lockedUntil with
  | some t => exact ⟨2, rfl⟩
  | none =>
    refine ⟨1, ?_⟩
    unfold login.isLocked
    rw [hlocked]
    rfl

end Reply

section Step

variable {cfg : Config} {tenantId email id : String} {hash : Option String} {failures : List Instant}
  {s s' : Server} {draws : Nat → Draw}

/--
No time passes while a program runs.
-/
theorem run_now {α : Type} (p : App α) : (p.run (semantics cfg) draws s).2.2.now = s.now := by
  have huses : p.Uses fun _ => True :=
    uses_of_forall (fun _ => trivial) p
  exact huses.run_keeps (I := semantics cfg) (P := fun s' => s'.now = s.now)
    (fun o d s' _ hs' => (Op.exec_framed cfg d s' o).now.trans hs') rfl

theorem lock_nil (cfg : LockoutConfig) : cfg.lock [] = none := by
  unfold LockoutConfig.lock
  split
  . rfl
  . rfl

/--
One more failure either leaves the account unlocked or locks it from its time on.
-/
theorem lock_cons (cfg : LockoutConfig) (now : Instant) (failures : List Instant) :
    cfg.lock (now :: failures)
      =
    if cfg.threshold ≤ (failures.length : Int) + 1 then some (now + Instant.seconds cfg.durationSecs)
    else cfg.lock failures := by
  unfold LockoutConfig.lock
  rw [List.length_cons, Int.natCast_succ]
  split
  . rfl
  . next hthreshold =>
    rw [if_neg (by omega)]

/--
A recorded failure locks the account if and only if it answers with a lock.
-/
theorem lockHolds_lock_cons {cfg : LockoutConfig} {now : Instant} (hduration : 0 < cfg.durationSecs)
    (hunlocked : lockHolds (cfg.lock failures) now = false)
    : lockHolds (cfg.lock (now :: failures)) now
        =
      decide (cfg.threshold ≤ (failures.length : Int) + 1) := by
  rw [lock_cons]
  split
  . next hthreshold =>
    have hseconds : 0 < Instant.seconds cfg.durationSecs := by
      unfold Instant.seconds
      omega
    unfold lockHolds
    simp only [Option.any_some, hthreshold, decide_true, decide_eq_true_eq]
    exact Int.lt_add_of_pos_right now hseconds
  . next hthreshold => rw [hunlocked, decide_eq_false hthreshold]

/--
Clearing the account.
-/
theorem Tracks.clear (h : Tracks cfg tenantId email id hash failures s) {d : Draw} (hfault : d.fault = none)
    : ∃ s', (semantics cfg).exec (.user (.clearFailedLogins id)) d s = ((.ok true : Result Bool), s')
        ∧ Tracks cfg tenantId email id hash [] s' := by
  rcases h.row with ⟨u, hrow, hhash, _⟩
  have hexists : (s.users.lookup id).isSome = true := by
    rw [(byEmail_some hrow).1]
    rfl
  have hrow' := byEmail_updateUser hrow (f := fun u => { u with failedLoginAttempts := 0, lockedUntil := none })
    fun _ => ⟨rfl, rfl⟩
  refine ⟨_, ?_, ⟨⟨_, hrow', hhash, rfl, (lock_nil cfg.lockout).symm⟩, h.idText, h.texts, fun _ => rfl⟩⟩
  have hstatement : updateUserCounted id (fun u => { u with failedLoginAttempts := 0, lockedUntil := none }) s
      = .ok (true, updateUser id (fun u => { u with failedLoginAttempts := 0, lockedUntil := none }) s) := by
    unfold updateUserCounted
    rw [hexists]
  exact run_healthy hfault (by simpa using h.idText) hstatement

/--
Recording a failure.
-/
theorem Tracks.fail (h : Tracks cfg tenantId email id hash failures s) (hhash : hash.isSome)
    {d : Draw} (hfault : d.fault = none) (hrecordable : cfg.lockout.recordable s.now failures)
    : ∃ s', Statement.run d [id] (recordFailedLogin id cfg.lockout.threshold cfg.lockout.durationSecs) s
          = (.ok ((failures.length : Int) + 1, cfg.lockout.lock (s.now :: failures)), s')
        ∧ Tracks cfg tenantId email id hash (s.now :: failures) s' := by
  rcases h.row with ⟨u, hrow, hhash', hattempts, hlock⟩
  rcases hrecordable with ⟨hrange, hlockable⟩
  have hid : [id].all storable = true := by
    simpa using h.idText
  refine ⟨updateUser id (fun u => { u with
      failedLoginAttempts := (failures.length : Int) + 1
      lockedUntil := cfg.lockout.lock (s.now :: failures) }) s, run_healthy hfault hid ?_, ?_⟩
  . unfold recordFailedLogin
    rw [(byEmail_some hrow).1]
    dsimp only
    rw [hattempts, hlock, if_neg (by omega), if_neg, lock_cons]
    rintro ⟨hreached, hrefused⟩
    rw [hlockable hreached] at hrefused
    contradiction
  . have hrow' := byEmail_updateUser hrow (f := fun u => { u with
      failedLoginAttempts := (failures.length : Int) + 1
      lockedUntil := cfg.lockout.lock (s.now :: failures) }) fun _ => ⟨rfl, rfl⟩
    refine ⟨⟨_, hrow', hhash', by simp, rfl⟩, h.idText, h.texts, ?_⟩
    intro hnone
    rw [hnone] at hhash
    contradiction

theorem Tracks.refuse (h : Tracks cfg tenantId email id hash failures s) {d : Draw} (hfault : d.fault = none)
    (hrecordable : ¬cfg.lockout.recordable s.now failures)
    : ∃ e, Statement.run d [id] (recordFailedLogin id cfg.lockout.threshold cfg.lockout.durationSecs) s
        = (.error e, s) := by
  rcases h.row with ⟨u, hrow, _, hattempts, _⟩
  have hid : [id].all storable = true := by
    simpa using h.idText
  unfold Statement.run recordFailedLogin
  rw [hfault, if_pos hid, (byEmail_some hrow).1]
  dsimp only
  rw [hattempts]
  by_cases hrange : failures.length < 2147483647
  . have hrefused : cfg.lockout.threshold ≤ (failures.length : Int) + 1
        ∧ Statement.lockable s.now cfg.lockout.durationSecs = false := by
      by_contra hnot
      apply hrecordable
      refine ⟨hrange, fun hreached => ?_⟩
      rw [not_and, Bool.not_eq_false] at hnot
      exact hnot hreached
    rw [if_neg (by omega), if_pos hrefused]
    exact ⟨_, rfl⟩
  . rw [if_pos (by omega)]
    exact ⟨_, rfl⟩

theorem Tracks.serve_unlock (h : Tracks cfg tenantId email id hash failures s) (hhealthy : Healthy draws) :
    Tracks cfg tenantId email id hash [] ((unlock id).run (semantics cfg) draws s).2.2 := by
  rcases h.row with ⟨u, hrow, _⟩
  have hid : [id].all storable = true := by
    simpa using h.idText
  have hget : (semantics cfg).exec (.user (.getById id)) (draws 0) s
      = ((.ok (some u) : Result (Option User)), s) := by
    change query (draws 0) [id] (fun s => .ok (s.users.lookup id)) s = _
    exact query_healthy (hhealthy 0) hid (congrArg Except.ok (byEmail_some hrow).1)
  rcases h.clear (hhealthy 1) with ⟨s', hclear, htracks⟩
  unfold unlock App.user
  rw [run_perform_bind_of hget]
  dsimp only
  rw [run_perform_bind_of hclear]
  dsimp only
  rcases run_audited cfg _ (return .noContent : App Response) _ s' with ⟨auditLogs, hrun⟩
  rw [hrun]
  exact htracks.of_users rfl

/--
A right password clears the account and is not answered as locked.
-/
theorem Tracks.serve_succeed (h : Tracks cfg tenantId email id hash failures s) (hhealthy : Healthy draws)
    {row : LoginRow} (hid : row.id = id) (clientId ip : String)
    : Tracks cfg tenantId email id hash []
          ((login.succeed cfg row clientId ip).run (semantics cfg) draws s).2.2
        ∧ ((login.succeed cfg row clientId ip).run (semantics cfg) draws s).1 ≠ login.locked := by
  have hreply := run_inv (I := semantics cfg) (P := fun _ _ => True)
    (@succeed_ne_locked cfg row clientId ip) draws (s := s) trivial fun _ _ _ _ _ _ => trivial
  refine ⟨?_, hreply.choose_spec.1⟩
  subst hid
  rcases h.clear (hhealthy 0) with ⟨s', hclear, htracks⟩
  unfold login.succeed App.user auditAuthEvent
  rw [run_perform_bind_of hclear]
  refine Uses.run_keeps (U := Op.SparesLockout) (P := Tracks cfg tenantId email row.id hash []) ?_ ?_ htracks
  . split
    . apply Uses.bind (auditEvent_sparesLockout _)
      intro _
      trivial
    . apply uses_perform_bind trivial
      intro _
      apply Uses.bind (auditEvent_sparesLockout _)
      intro _
      apply issueTokens_sparesLockout
  . exact fun o d s'' ho htracks => htracks.exec ho d

/--
A wrong password is recorded, and answered as locked if and only if the account is locked from then on.
-/
theorem Tracks.serve_failed (h : Tracks cfg tenantId email id hash failures s)
    (hduration : 0 < cfg.lockout.durationSecs) (hhash : hash.isSome)
    (hunlocked : lockHolds (cfg.lockout.lock failures) s.now = false) (hhealthy : Healthy draws)
    {row : LoginRow} (hid : row.id = id) (ip : String)
    : ∃ failures', failures' = (if cfg.lockout.recordable s.now failures then s.now :: failures else failures)
        ∧ Tracks cfg tenantId email id hash failures'
          ((login.failed cfg row ip).run (semantics cfg) draws s).2.2
        ∧ (((login.failed cfg row ip).run (semantics cfg) draws s).1 = login.locked
          ↔ lockHolds (cfg.lockout.lock failures') s.now = true) := by
  subst hid
  by_cases hrecordable : cfg.lockout.recordable s.now failures
  . rcases h.fail hhash (hhealthy 0) hrecordable with ⟨s', hrecord, htracks⟩
    rcases run_failed cfg row ip draws s hrecord with ⟨hreply, husers⟩
    refine ⟨s.now :: failures, (if_pos hrecordable).symm, htracks.of_users husers, ?_⟩
    rw [hreply, lockHolds_lock_cons hduration hunlocked, decide_eq_true_eq]
    dsimp only
    rw [lock_cons]
    by_cases hthreshold : cfg.lockout.threshold ≤ (failures.length : Int) + 1
    . rw [if_pos hthreshold]
      exact iff_of_true rfl hthreshold
    . have hnone : cfg.lockout.lock failures = none :=
        if_neg (by omega)
      rw [if_neg hthreshold, hnone]
      exact iff_of_false (fun heq => invalidCredentials_ne (by decide) heq.symm) hthreshold
  . rcases h.refuse (hhealthy 0) hrecordable with ⟨e, hrecord⟩
    rcases run_failed cfg row ip draws s hrecord with ⟨hreply, husers⟩
    refine ⟨failures, (if_neg hrecordable).symm, h.of_users husers, ?_⟩
    rw [hreply, hunlocked]
    exact iff_of_false (by nofun) Bool.false_ne_true

section Record

variable {a : Attempt} {now : Instant}

theorem record_refused (h : Project.parse a.clientId = none ∨ lockHolds (cfg.lockout.lock failures) now = true) :
    (AccountRequest.login a).record cfg hash now failures = failures := by
  unfold AccountRequest.record
  dsimp only
  rw [if_pos (h.imp (fun hnone => by rw [hnone]; rfl) id)]

theorem record_asked {project : Project} (hproject : Project.parse a.clientId = some project)
    (hunlocked : lockHolds (cfg.lockout.lock failures) now = false)
    : (AccountRequest.login a).record cfg hash now failures
        =
      (match hash.map (cfg.verifyPassword a.password) with
        | none => failures
        | some (.ok true) => []
        | some _ => if cfg.lockout.recordable now failures then now :: failures else failures) := by
  unfold AccountRequest.record
  dsimp only
  rw [hproject, hunlocked, if_neg (by simp)]

theorem record_right {project : Project} {hash : String} (hproject : Project.parse a.clientId = some project)
    (hunlocked : lockHolds (cfg.lockout.lock failures) now = false)
    (hright : cfg.verifyPassword a.password hash = .ok true)
    : (AccountRequest.login a).record cfg (some hash) now failures = [] := by
  rw [record_asked hproject hunlocked, Option.map_some, hright]

theorem record_wrong {project : Project} {hash : String} (hproject : Project.parse a.clientId = some project)
    (hunlocked : lockHolds (cfg.lockout.lock failures) now = false)
    (hwrong : cfg.verifyPassword a.password hash ≠ .ok true)
    : (AccountRequest.login a).record cfg (some hash) now failures
        = if cfg.lockout.recordable now failures then now :: failures else failures := by
  rw [record_asked hproject hunlocked, Option.map_some]
  split
  . contradiction
  . next heq => exact absurd (Option.some.inj heq) hwrong
  . rfl

end Record

/--
An account whose password is not asked for or is right or wrong.
-/
theorem Tracks.serve_asked (h : Tracks cfg tenantId email id hash failures s)
    (hduration : 0 < cfg.lockout.durationSecs) {v : Visit Attempt Draw} (hhealthy : Healthy v.draws)
    {project : Project} (hproject : Project.parse v.request.clientId = some project)
    (hsome : hash.isSome)
    : ∃ failures', failures' = (AccountRequest.login v.request).record cfg hash s.now failures
        ∧ Tracks cfg tenantId email id hash failures'
          ((v.request.handle cfg tenantId email).run (semantics cfg) v.draws s).2.2
        ∧ (((v.request.handle cfg tenantId email).run (semantics cfg) v.draws s).1 = login.locked
          ↔ lockHolds (cfg.lockout.lock failures') s.now = true) := by
  have hasks : asks tenantId email v = true :=
    asks_iff.mpr ⟨⟨project, hproject⟩, hhealthy 0, h.texts⟩
  rcases h.row with ⟨u, hrow, rfl, _, hlock⟩
  rcases Option.isSome_iff_exists.mp hsome with ⟨hash, hhash⟩
  have hselect : Statement.selectLogin tenantId email s
      = .ok (some ⟨id, u.tenantId, hash, u.lockedUntil, u.failedLoginAttempts, u.isSuspended⟩) := by
    unfold Statement.selectLogin
    rw [hrow]
    dsimp only
    rw [hhash]
    rfl
  rcases @run_attempt_row cfg _ _ _ _ hasks _ hselect with ⟨k, hrun⟩
  have hhealthy' : Healthy fun n => v.draws (n + k) := fun n => hhealthy (n + k)
  rw [hrun]
  dsimp only
  rw [hlock]
  cases hlocked : lockHolds (cfg.lockout.lock failures) s.now with
  | true =>
    refine ⟨failures, (record_refused (.inr hlocked)).symm, ?_⟩
    rw [if_pos rfl, hlocked]
    unfold login.blocked auditAuthEvent
    rcases run_audited cfg _ (return login.locked : App Response) _ s with ⟨auditLogs, hrun⟩
    rw [hrun]
    exact ⟨h.of_users rfl, iff_of_true rfl rfl⟩
  | false =>
    rw [if_neg Bool.false_ne_true]
    by_cases hverify : cfg.verifyPassword v.request.password hash = .ok true
    . refine ⟨[], ?_, ?_⟩
      . rw [hhash, record_right hproject hlocked hverify]
      . unfold login.checkPassword
        dsimp only
        rw [hverify, lock_nil]
        rcases @Tracks.serve_succeed _ _ _ _ _ _ _ _ h hhealthy' ⟨id, u.tenantId, hash, cfg.lockout.lock failures,
          u.failedLoginAttempts, u.isSuspended⟩ rfl v.request.clientId
          (clientIp v.request.forwardedFor) with ⟨htracks, hreply⟩
        exact ⟨htracks, iff_of_false hreply Bool.false_ne_true⟩
    . rcases @Tracks.serve_failed _ _ _ _ _ _ _ _ h hduration hsome hlocked hhealthy' ⟨id, u.tenantId, hash,
        cfg.lockout.lock failures, u.failedLoginAttempts, u.isSuspended⟩ rfl
        (clientIp v.request.forwardedFor) with ⟨failures', hfailures', hserved⟩
      refine ⟨failures', ?_, ?_⟩
      . rw [hfailures', hhash, record_wrong hproject hlocked hverify]
      . unfold login.checkPassword
        split
        . contradiction
        . exact hserved

/--
A login is answered as locked if and only if the account is locked after it.
-/
theorem Tracks.serve_login (h : Tracks cfg tenantId email id hash failures s)
    (hduration : 0 < cfg.lockout.durationSecs) (v : Visit Attempt Draw) (hhealthy : Healthy v.draws)
    : ∃ failures', failures' = (AccountRequest.login v.request).record cfg hash s.now failures
        ∧ Tracks cfg tenantId email id hash failures'
          ((v.request.handle cfg tenantId email).run (semantics cfg) v.draws s).2.2
        ∧ ((Project.parse v.request.clientId).isSome →
          (((v.request.handle cfg tenantId email).run (semantics cfg) v.draws s).1 = login.locked
            ↔ lockHolds (cfg.lockout.lock failures') s.now = true)) := by
  cases hproject : Project.parse v.request.clientId with
  | none =>
    refine ⟨failures, (record_refused (.inl hproject)).symm, ?_, nofun⟩
    unfold Attempt.handle login
    dsimp only
    rw [hproject]
    exact h
  | some project =>
    cases hhash : hash with
    | some t =>
      rw [← hhash]
      rcases h.serve_asked hduration hhealthy hproject (by rw [hhash]; rfl) with
        ⟨failures', hfailures', htracks, hreply⟩
      exact ⟨failures', hfailures', htracks, fun _ => hreply⟩
    | none =>
      subst hhash
      rcases h.row with ⟨u, hrow, hhash, _⟩
      have hasks : asks tenantId email v = true :=
        asks_iff.mpr ⟨⟨project, hproject⟩, hhealthy 0, h.texts⟩
      have hnever : lockHolds (cfg.lockout.lock failures) s.now = false := by
        rw [h.passwordless rfl, lock_nil]
        rfl
      have hselect : Statement.selectLogin tenantId email s = .error (unexpectedNull "2") := by
        unfold Statement.selectLogin
        rw [hrow]
        dsimp only
        rw [hhash]
        rfl
      refine ⟨failures, ?_, ?_⟩
      . rw [record_asked hproject hnever]
        rfl
      . rw [run_attempt hasks, hselect, hnever]
        exact ⟨h, fun _ => iff_of_false (by nofun) Bool.false_ne_true⟩

/--
What a request does to the account and how it is answered.
-/
theorem Tracks.serve (h : Tracks cfg tenantId email id hash failures s)
    (hduration : 0 < cfg.lockout.durationSecs) (v : Visit AccountRequest Draw) (hhealthy : Healthy v.draws)
    : Tracks cfg tenantId email id hash (v.request.record cfg hash s.now failures)
          ((v.request.handle cfg tenantId email id).run (semantics cfg) v.draws s).2.2
        ∧ ∀ a, v.request = .login a → (Project.parse a.clientId).isSome →
          (((v.request.handle cfg tenantId email id).run (semantics cfg) v.draws s).1 = login.locked
            ↔ lockHolds (cfg.lockout.lock (v.request.record cfg hash s.now failures)) s.now = true) := by
  rcases v with ⟨request, draws, wait⟩
  cases request with
  | unlock => exact ⟨h.serve_unlock hhealthy, nofun⟩
  | login a =>
    rcases h.serve_login hduration ⟨a, draws, wait⟩ hhealthy with ⟨_, rfl, htracks, hreply⟩
    refine ⟨htracks, ?_⟩
    rintro _ ⟨⟩
    exact hreply

theorem Tracks.serveAll (hduration : 0 < cfg.lockout.durationSecs) {vs : List (Visit AccountRequest Draw)}
    (hhealthy : ∀ v ∈ vs, Healthy v.draws) (h : Tracks cfg tenantId email id hash failures s)
    : Tracks cfg tenantId email id hash (recordAll cfg hash vs s.now failures)
        (serveAll (semantics cfg) (AccountRequest.handle cfg tenantId email id) vs s).2 := by
  induction vs generalizing s failures with
  | nil => exact h
  | cons v vs ih =>
    have htracks := (h.serve hduration v (hhealthy v List.mem_cons_self)).1
    have hwaited : Tracks cfg tenantId email id hash (v.request.record cfg hash s.now failures)
        ((semantics cfg).advance v.wait
          ((v.request.handle cfg tenantId email id).run (semantics cfg) v.draws s).2.2) :=
      htracks.of_users rfl
    have hnext := ih (fun v' hv' => hhealthy v' (List.mem_cons_of_mem _ hv')) hwaited
    have hnow : ((semantics cfg).advance v.wait ((v.request.handle cfg tenantId email id).run (semantics cfg)
        v.draws s).2.2).now = s.now + v.wait :=
      congrArg (· + (v.wait : Int)) (run_now _)
    rw [hnow] at hnext
    exact hnext

/--
A request that clears the account: it is unlocked, or logged in to with the right password without being
answered as locked.
-/
def AccountRequest.Clears (cfg : Config) (hash : Option String) (reply : Response) : AccountRequest → Prop
  | .unlock => True
  | .login a => (Project.parse a.clientId).isSome ∧ hash.map (cfg.verifyPassword a.password) = some (.ok true)
      ∧ reply ≠ login.locked

theorem Tracks.cleared (h : Tracks cfg tenantId email id hash failures s)
    (hduration : 0 < cfg.lockout.durationSecs) (v : Visit AccountRequest Draw) (hhealthy : Healthy v.draws)
    (hclears : v.request.Clears cfg hash
      ((v.request.handle cfg tenantId email id).run (semantics cfg) v.draws s).1)
    : v.request.record cfg hash s.now failures = [] := by
  have hreply := (h.serve hduration v hhealthy).2
  rcases v with ⟨request, draws, wait⟩
  cases request with
  | unlock => rfl
  | login a =>
    rcases hclears with ⟨hsome, hright, hne⟩
    rcases Option.isSome_iff_exists.mp hsome with ⟨project, hproject⟩
    cases hlocked : lockHolds (cfg.lockout.lock failures) s.now with
    | true =>
      have hlocked' := (hreply a rfl hsome).mpr
      rw [record_refused (.inr hlocked)] at hlocked'
      exact absurd (hlocked' hlocked) hne
    | false =>
      dsimp only
      rw [record_asked hproject hlocked, hright]

end Step

/--
The lockout of an account as a state machine. After any sequence of logins, unlocks and waits its counter is the
number of password failures that are recorded since the last clear, it has a lock if and only if the counter
has reached the threshold, namely from the last of them on, a login is answered as locked if and only if the
account is locked after it, and a right password or an unlock takes it back to its initial values.
-/
theorem lockout_state_machine (cfg : Config) (hthreshold : 1 ≤ cfg.lockout.threshold)
    (hduration : 0 < cfg.lockout.durationSecs) (s : Server) (tenantId email id : String) (u : User)
    (hrow : byEmail tenantId email s = some (id, u)) (hid : storable id = true)
    (htexts : [tenantId, email].all storable = true) (hattempts : u.failedLoginAttempts = 0)
    (hlock : u.lockedUntil = none) (vs : List (Visit AccountRequest Draw))
    (hhealthy : ∀ v ∈ vs, Healthy v.draws) :
    ∃ s' failures u', s' = (serveAll (semantics cfg) (AccountRequest.handle cfg tenantId email id) vs s).2
      ∧ failures = recordAll cfg u.passwordHash vs s.now []
      ∧ byEmail tenantId email s' = some (id, u')
      ∧ u'.failedLoginAttempts = failures.length
      ∧ (u'.lockedUntil.isSome ↔ cfg.lockout.threshold ≤ failures.length)
      ∧ (∀ t, u'.lockedUntil = some t →
        failures.head? = some (t - Instant.seconds cfg.lockout.durationSecs))
      ∧ ∀ v : Visit AccountRequest Draw, Healthy v.draws → ∃ reply s'' u'',
        ((AccountRequest.handle cfg tenantId email id v.request).run (semantics cfg) v.draws s').1 = reply
        ∧ ((AccountRequest.handle cfg tenantId email id v.request).run (semantics cfg) v.draws s').2.2 = s''
        ∧ byEmail tenantId email s'' = some (id, u'')
        ∧ (∀ a, v.request = .login a → (Project.parse a.clientId).isSome →
          (reply = login.locked ↔ lockHolds u''.lockedUntil s''.now = true))
        ∧ (v.request.Clears cfg u.passwordHash reply →
          u''.failedLoginAttempts = 0 ∧ u''.lockedUntil = none) := by
  have hinitial : Tracks cfg tenantId email id u.passwordHash [] s :=
    ⟨⟨u, hrow, rfl, hattempts, hlock.trans (lock_nil cfg.lockout).symm⟩, hid, htexts, fun _ => rfl⟩
  have htracks := hinitial.serveAll hduration hhealthy
  rcases htracks.row with ⟨u', hrow', _, hattempts', hlock'⟩
  refine ⟨_, _, u', rfl, rfl, hrow', hattempts', ?_, ?_, ?_⟩
  . rw [hlock']
    unfold LockoutConfig.lock
    split
    . next hreached =>
      refine iff_of_true ?_ hreached
      rw [Option.isSome_map, List.isSome_head?]
      intro hnil
      rw [hnil] at hreached
      exact absurd hthreshold (Int.not_le.mpr (Int.lt_of_le_of_lt hreached (by decide)))
    . next hreached => exact iff_of_false Bool.false_ne_true hreached
  . intro t ht
    rw [hlock'] at ht
    unfold LockoutConfig.lock at ht
    split at ht
    . rcases Option.map_eq_some_iff.mp ht with ⟨last, hlast, rfl⟩
      rw [hlast, Int.add_sub_cancel]
    . contradiction
  . intro v hv
    rcases htracks.serve hduration v hv with ⟨hserved, hreply⟩
    rcases hserved.row with ⟨u'', hrow'', _, hattempts'', hlock''⟩
    refine ⟨_, _, u'', rfl, rfl, hrow'', ?_, ?_⟩
    . intro a ha hsome
      rw [hreply a ha hsome, hlock'', run_now]
    . intro hclears
      have hnil := htracks.cleared hduration v hv hclears
      rw [hnil] at hattempts'' hlock''
      exact ⟨hattempts'', hlock''.trans (lock_nil cfg.lockout)⟩

namespace Sample

/--
A login with a wrong password.
-/
def wrongLogin : Visit AccountRequest Draw where
  request := .login ⟨none, "guess", "pandaria"⟩
  draws _ := draw 4
  wait := 0

end Sample

open Sample in
/--
Five wrong passwords lock the account for 15 minutes.
-/
theorem lockout_state_machine_reached :
    ∃ u, byEmail "default" "ada@app.example" (serveAll (semantics config) (AccountRequest.handle config
        "default" "ada@app.example" userId) (List.replicate 5 wrongLogin) server).2 = some (userId, u)
      ∧ u.failedLoginAttempts = 5 ∧ u.lockedUntil.isSome = true := by
  rcases lockout_state_machine config (by decide) (by decide) server "default" "ada@app.example" userId _
    rfl (by decide +kernel) (by decide +kernel) rfl rfl (List.replicate 5 wrongLogin)
    (fun v hv => by rw [List.eq_of_mem_replicate hv]; exact fun _ => rfl) with
    ⟨_, failures, u, rfl, hfailures, hrow, hattempts, hlock, _⟩
  have hlength : failures.length = 5 := by
    rw [hfailures]
    decide +kernel
  rw [hlength] at hattempts hlock
  exact ⟨u, hrow, hattempts, hlock.mpr (by decide)⟩

end Aspectus
