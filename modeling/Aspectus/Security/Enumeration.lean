import Aspectus.Discipline.Audit
import Aspectus.Security.Sample

/-!
This module contains what the responses of `/login` tell about the existence of an account: they are the
ones for an unknown account as long as the account is never reported to be locked.
-/

namespace Aspectus

open Interaction Prog Statement

/--
A request to log in to an account that is known from the context.
-/
structure Attempt where
  forwardedFor : Option String
  password : String
  clientId : String

def Attempt.handle (cfg : Config) (tenantId email : String) (a : Attempt) : App Response :=
  login cfg a.forwardedFor ⟨email, a.password, tenantId, a.clientId⟩

/--
The responses to some attempts that are made one after the other.
-/
abbrev attempts (cfg : Config) (tenantId email : String) (vs : List (Visit Attempt Draw)) (s : Server) :
    List Response :=
  (serveAll (semantics cfg) (Attempt.handle cfg tenantId email) vs s).1

/--
The state with one more user.
-/
def Server.withUser (s : Server) (id : String) (u : User) : Server :=
  { s with users := s.users.insert id u }

/--
Whether an attempt gets as far as an answer about the account: the project has to be known, and the
`SELECT` has to succeed.
-/
def asks (tenantId email : String) (v : Visit Attempt Draw) : Bool :=
  (Project.parse v.request.clientId).isSome && (v.draws 0).fault.isNone
    && storable tenantId && storable email

/--
The lockout of the account with the row `u` is not noticed by attempts with a wrong password: it was not locked
before, and the attempts do not reach the threshold.
-/
structure Unnoticed (cfg : Config) (u : User) (tried : List (Visit Attempt Draw)) : Prop where
  unlocked : u.lockedUntil = none
  threshold : u.failedLoginAttempts + tried.length < cfg.lockout.threshold

/--
The row after a wrong password.
-/
def User.failedOnce (u : User) (now : Instant) : User :=
  { u with failedLoginAttempts := u.failedLoginAttempts + 1, updatedAt := now }

theorem Unnoticed.cons {cfg : Config} {u : User} {v : Visit Attempt Draw} {tried : List (Visit Attempt Draw)}
    (now : Instant)
    : Unnoticed cfg u (v :: tried)
        ↔
      Unnoticed cfg u [v] ∧ (tried = [] ∨ Unnoticed cfg (u.failedOnce now) tried) := by
  constructor
  . intro h
    have hthreshold := h.threshold
    simp only [List.length_cons, Int.natCast_add, Int.cast_ofNat_Int] at hthreshold
    refine ⟨⟨h.unlocked, ?_⟩, .inr ⟨h.unlocked, ?_⟩⟩
    . simp only [List.length_singleton, Int.cast_ofNat_Int]
      omega
    . dsimp only [User.failedOnce]
      omega
  . rintro ⟨h, rfl | h'⟩
    . exact h
    . have hthreshold := h'.threshold
      dsimp only [User.failedOnce] at hthreshold
      refine ⟨h.unlocked, ?_⟩
      simp only [List.length_cons, Int.natCast_add, Int.cast_ofNat_Int]
      omega

section Attempt

variable {cfg : Config} {tenantId email id : String} {u : User} {s : Server} {v : Visit Attempt Draw}

theorem asks_iff {v : Visit Attempt Draw} :
    asks tenantId email v = true
      ↔
    (∃ p, Project.parse v.request.clientId = some p) ∧ (v.draws 0).fault = none
      ∧ [tenantId, email].all storable = true := by
  simp [asks, Option.isSome_iff_exists, and_assoc]

/--
An attempt that asks goes on with the row that is selected.
-/
theorem run_attempt (h : asks tenantId email v = true) :
    (v.request.handle cfg tenantId email).run (semantics cfg) v.draws s
      =
    Prog.run (semantics cfg) (match Statement.selectLogin tenantId email s with
      | .error _ => return authUnavailable
      | .ok none => return login.invalidCredentials
      | .ok (some row) =>
        match row.lockedUntil with
        | some _ => do
          let now ← App.host .now
          if login.isLocked row now then
            login.blocked row (clientIp v.request.forwardedFor)
          else
            login.checkPassword cfg ⟨email, v.request.password, tenantId, v.request.clientId⟩ row
              (clientIp v.request.forwardedFor)
        | none =>
          login.checkPassword cfg ⟨email, v.request.password, tenantId, v.request.clientId⟩ row
            (clientIp v.request.forwardedFor)) (fun n => v.draws (n + 1)) s := by
  rcases asks_iff.mp h with ⟨⟨p, hp⟩, hfault, hstorable⟩
  unfold Attempt.handle login
  dsimp only
  rw [hp]
  dsimp only
  unfold App.user
  rw [run_perform_bind]
  have hexec : ((semantics cfg).exec (.user (.selectLogin tenantId email)) (v.draws 0) s)
      = (Statement.selectLogin tenantId email s, s) :=
    query_answers hfault hstorable
  rw [hexec]
  rcases Statement.selectLogin tenantId email s with e | (_ | row)
  . rfl
  . rfl
  . cases row.lockedUntil with
    | none => rfl
    | some lockedUntil => rfl

variable (cfg) in
/--
An attempt that does not ask is answered without looking at the state.
-/
theorem attempt_idle (h : asks tenantId email v = false) (s' : Server) :
    ((v.request.handle cfg tenantId email).run (semantics cfg) v.draws s).2.2 = s
      ∧ ((v.request.handle cfg tenantId email).run (semantics cfg) v.draws s).1
        = ((v.request.handle cfg tenantId email).run (semantics cfg) v.draws s').1 := by
  unfold Attempt.handle login
  dsimp only
  cases hp : Project.parse v.request.clientId with
  | none => exact ⟨rfl, rfl⟩
  | some p =>
    dsimp only
    unfold App.user
    rw [run_perform_bind, run_perform_bind]
    have hexec : ∀ s, ∃ e, ((semantics cfg).exec (.user (.selectLogin tenantId email)) (v.draws 0) s)
        = (Except.error e, s) := by
      intro s
      rcases run_cases (v.draws 0) [tenantId, email]
        (fun s => (Statement.selectLogin tenantId email s).map fun a => (a, s)) s with
        ⟨e, hrun⟩ | ⟨a, s', hfault, hparams, _⟩
      . exact ⟨e, hrun⟩
      . rw [asks_iff.mpr ⟨⟨p, hp⟩, hfault, hparams⟩] at h
        contradiction
    rcases hexec s with ⟨e, he⟩
    rcases hexec s' with ⟨e', he'⟩
    rw [he, he']
    exact ⟨rfl, rfl⟩

variable (cfg) in
/--
An attempt for an account that does not exist.
-/
theorem attempt_absent (h : asks tenantId email v = true) (habsent : byEmail tenantId email s = none) :
    ((v.request.handle cfg tenantId email).run (semantics cfg) v.draws s).1 = login.invalidCredentials
      ∧ ((v.request.handle cfg tenantId email).run (semantics cfg) v.draws s).2.2 = s := by
  rw [run_attempt h]
  unfold Statement.selectLogin
  rw [habsent]
  exact ⟨rfl, rfl⟩

theorem invalidCredentials_ne {detail path : String}
    (h : detail ≠ "Invalid email or password") : unauthorized detail path ≠ login.invalidCredentials := by
  intro heq
  injection heq with _ hbody
  injection hbody with hbody
  injection hbody with _ _ _ _ hdetail
  exact h hdetail

theorem authUnavailable_ne : authUnavailable ≠ login.invalidCredentials := by
  intro heq
  injection heq with hstatus
  contradiction

/--
A wrong password for an account that was never locked.
-/
theorem attempt_failed (h : asks tenantId email v = true) (hrow : byEmail tenantId email s = some (id, u))
    (hwrong : ∀ hash, u.passwordHash = some hash →
      cfg.verifyPassword v.request.password hash ≠ .ok true)
    (hunlocked : u.lockedUntil = none) {hash : String} (hhash : u.passwordHash = some hash)
    : (v.request.handle cfg tenantId email).run (semantics cfg) v.draws s
        =
      (login.failed cfg ⟨id, u.tenantId, hash, none, u.failedLoginAttempts, u.isSuspended⟩
        (clientIp v.request.forwardedFor)).run (semantics cfg) (fun n => v.draws (n + 1)) s := by
  have hselect : Statement.selectLogin tenantId email s
      = .ok (some ⟨id, u.tenantId, hash, none, u.failedLoginAttempts, u.isSuspended⟩) := by
    unfold Statement.selectLogin
    rw [hrow]
    dsimp only
    rw [hhash, hunlocked]
    rfl
  rw [run_attempt h, hselect]
  dsimp only
  unfold login.checkPassword
  split
  . next hverify => exact absurd hverify (hwrong hash hhash)
  . rfl

variable (cfg) in
/--
A wrong password is answered according to the statement that counts it.
-/
theorem run_failed (row : LoginRow) (ip : String) (draws : Nat → Draw) (s : Server)
    {r : Result (Int × Option Instant)} {s' : Server}
    (hrecord : Statement.run (draws 0) [row.id] (recordFailedLogin row.id cfg.lockout.threshold
      cfg.lockout.durationSecs) s = (r, s'))
    : ((login.failed cfg row ip).run (semantics cfg) draws s).1 = (match r with
        | .error _ => authUnavailable
        | .ok (_, lockedUntil) =>
          if lockedUntil.isSome then login.locked else login.invalidCredentials)
      ∧ ((login.failed cfg row ip).run (semantics cfg) draws s).2.2.users = s'.users := by
  have hexec : (semantics cfg).exec (.user (.recordFailedLogin row.id cfg.lockout.threshold
      cfg.lockout.durationSecs)) (draws 0) s = (r, s') :=
    hrecord
  unfold login.failed App.user
  rw [run_perform_bind, hexec]
  cases r with
  | error e => exact ⟨rfl, rfl⟩
  | ok counted =>
    rcases counted with ⟨attempts, lockedUntil⟩
    dsimp only
    unfold auditAuthEvent
    rcases run_audited cfg {
        tenantId := row.tenantId
        actorId := row.id
        actorType := .user
        action := "user.login_failed"
        targetType := "user"
        targetId := row.id
        metadata := .obj [("failed_login_attempts", .num attempts), ("ip", .str ip)]
      } (if lockedUntil.isSome then (return login.locked : App Response)
        else return login.invalidCredentials) (fun n => draws (n + 1)) s' with ⟨auditLogs, hrun⟩
    rw [hrun]
    split
    . exact ⟨rfl, rfl⟩
    . exact ⟨rfl, rfl⟩

/--
An update of the account that keeps its tenant and its email.
-/
theorem byEmail_updateUser (hrow : byEmail tenantId email s = some (id, u)) {f : User → User}
    (hf : ∀ u : User, (f u).tenantId = u.tenantId ∧ (f u).email = u.email)
    : byEmail tenantId email (updateUser id f s) = some (id, { f u with updatedAt := s.now }) := by
  unfold byEmail at hrow ⊢
  unfold updateUser Table.updateAt
  rw [Table.select_updateWhere _ fun _ u => by rw [(hf u).1, (hf u).2], List.head?_map, hrow]
  simp

/--
A wrong password that is counted without being noticed.
-/
theorem attempt_unnoticed (h : asks tenantId email v = true)
    (hrow : byEmail tenantId email s = some (id, u)) {hash : String} (hhash : u.passwordHash = some hash)
    (hwrong : ∀ hash, u.passwordHash = some hash →
      cfg.verifyPassword v.request.password hash ≠ .ok true)
    (hstorable : storable id = true) (hcounted : (v.draws 1).fault = none) (hunnoticed : Unnoticed cfg u [v])
    : ((v.request.handle cfg tenantId email).run (semantics cfg) v.draws s).1 = login.invalidCredentials
      ∧ byEmail tenantId email
          ((v.request.handle cfg tenantId email).run (semantics cfg) v.draws s).2.2
        = some (id, u.failedOnce s.now) := by
  have hthreshold := hunnoticed.threshold
  have hrange := cfg.lockout.threshold_le
  simp only [List.length_singleton, Int.cast_ofNat_Int] at hthreshold
  have hrecord : Statement.run (v.draws 1) [id] (recordFailedLogin id cfg.lockout.threshold
      cfg.lockout.durationSecs) s = (.ok (u.failedLoginAttempts + 1, none), updateUser id (fun u' =>
        { u' with failedLoginAttempts := u.failedLoginAttempts + 1, lockedUntil := none }) s) := by
    apply run_healthy hcounted (by simp [hstorable])
    unfold recordFailedLogin
    rw [(byEmail_some hrow).1]
    dsimp only
    rw [if_neg (by omega), if_neg (by omega), if_neg (by omega), hunnoticed.unlocked]
  rw [attempt_failed h hrow hwrong hunnoticed.unlocked hhash]
  rcases run_failed cfg ⟨id, u.tenantId, hash, none, u.failedLoginAttempts, u.isSuspended⟩
    (clientIp v.request.forwardedFor) (fun n => v.draws (n + 1)) s hrecord with ⟨hresponse, husers⟩
  refine ⟨hresponse, ?_⟩
  have hrow' := byEmail_updateUser hrow (f := fun u' =>
    { u' with failedLoginAttempts := u.failedLoginAttempts + 1, lockedUntil := none })
    fun _ => ⟨rfl, rfl⟩
  unfold byEmail at hrow' ⊢
  rw [husers, hrow']
  unfold User.failedOnce
  rw [← hunnoticed.unlocked]

/--
A wrong password is only answered like an unknown account if the statement counted it without locking
the account.
-/
theorem failed_invalid {row : LoginRow} {ip : String} {draws : Nat → Draw}
    (h : ((login.failed cfg row ip).run (semantics cfg) draws s).1 = login.invalidCredentials)
    : ∃ attempts s', Statement.run (draws 0) [row.id] (recordFailedLogin row.id cfg.lockout.threshold
        cfg.lockout.durationSecs) s = (.ok (attempts, none), s') := by
  cases hrecord : Statement.run (draws 0) [row.id] (recordFailedLogin row.id cfg.lockout.threshold
    cfg.lockout.durationSecs) s with
  | mk r s' =>
    rw [(run_failed cfg row ip draws s hrecord).1] at h
    cases r with
    | error e => exact absurd h authUnavailable_ne
    | ok counted =>
      rcases counted with ⟨attempts, lockedUntil⟩
      cases lockedUntil with
      | none => exact ⟨attempts, s', rfl⟩
      | some t => exact absurd h (invalidCredentials_ne (by decide))

/--
A wrong password that is counted without a lock being reported.
-/
theorem recordFailedLogin_unlocked {threshold durationSecs attempts : Int} {s' : Server}
    (hlookup : s.users.lookup id = some u)
    (h : recordFailedLogin id threshold durationSecs s = .ok ((attempts, none), s'))
    : u.lockedUntil = none ∧ u.failedLoginAttempts + 1 < threshold := by
  unfold recordFailedLogin at h
  rw [hlookup] at h
  dsimp only at h
  split at h
  . contradiction
  . split at h
    . contradiction
    . injection h with h
      injection h with h _
      injection h with _ h
      split at h
      . contradiction
      . next hthreshold => exact ⟨h, by omega⟩

/--
An attempt that is answered like one for an unknown account is not noticed.
-/
theorem unnoticed_of_attempt (h : asks tenantId email v = true)
    (hrow : byEmail tenantId email s = some (id, u)) {hash : String} (hhash : u.passwordHash = some hash)
    (hwrong : ∀ hash, u.passwordHash = some hash →
      cfg.verifyPassword v.request.password hash ≠ .ok true)
    (hresponse : ((v.request.handle cfg tenantId email).run (semantics cfg) v.draws s).1
      = login.invalidCredentials)
    : Unnoticed cfg u [v] := by
  have hlookup := (byEmail_some hrow).1
  cases hlocked : u.lockedUntil with
  | none =>
    rw [attempt_failed h hrow hwrong hlocked hhash] at hresponse
    rcases failed_invalid hresponse with ⟨attempts, s', hrecord⟩
    have hok : (Statement.run (v.draws 1) [id] (recordFailedLogin id cfg.lockout.threshold
        cfg.lockout.durationSecs) s).1 = .ok (attempts, none) :=
      congrArg Prod.fst hrecord
    rcases recordFailedLogin_unlocked hlookup (run_ok hok) with ⟨_, hthreshold⟩
    exact ⟨hlocked, by simpa using hthreshold⟩
  | some lockedUntil =>
    exfalso
    have hselect : Statement.selectLogin tenantId email s
        = .ok (some ⟨id, u.tenantId, hash, some lockedUntil, u.failedLoginAttempts, u.isSuspended⟩) := by
      unfold Statement.selectLogin
      rw [hrow]
      dsimp only
      rw [hhash, hlocked]
      rfl
    rw [run_attempt h, hselect] at hresponse
    dsimp only at hresponse
    unfold App.host at hresponse
    rw [run_perform_bind] at hresponse
    split at hresponse
    . -- The lock is still in force.
      unfold login.blocked auditAuthEvent at hresponse
      rcases run_audited cfg _ (return login.locked : App Response) _ _ with ⟨_, hrun⟩
      rw [hrun] at hresponse
      exact invalidCredentials_ne (by decide) hresponse
    . -- The lock is over, but the statement still returns it.
      unfold login.checkPassword at hresponse
      split at hresponse
      . next hverify => exact hwrong hash hhash hverify
      . rcases failed_invalid hresponse with ⟨attempts, s', hrecord⟩
        have hunlocked := (recordFailedLogin_unlocked hlookup (run_ok (congrArg Prod.fst hrecord))).1
        rw [hlocked] at hunlocked
        contradiction

/--
The attempts in a state with the account and in one without it.
-/
theorem attempts_iff (tenantId email id : String) (vs : List (Visit Attempt Draw)) {u : User}
    {s s' : Server} (hrow : byEmail tenantId email s' = some (id, u))
    (habsent : byEmail tenantId email s = none) {hash : String} (hhash : u.passwordHash = some hash)
    (hwrong : ∀ v ∈ vs, ∀ hash, u.passwordHash = some hash →
      cfg.verifyPassword v.request.password hash ≠ .ok true)
    (hstorable : storable id = true) (hcounted : ∀ v ∈ vs, (v.draws 1).fault = none)
    : attempts cfg tenantId email vs s' = attempts cfg tenantId email vs s
        ↔
      vs.filter (asks tenantId email) = [] ∨ Unnoticed cfg u (vs.filter (asks tenantId email)) := by
  induction vs generalizing s s' u with
  | nil => exact ⟨fun _ => .inl rfl, fun _ => rfl⟩
  | cons v vs ih =>
    have hwrong' := (List.forall_mem_cons.mp hwrong).2
    have hcounted' := (List.forall_mem_cons.mp hcounted).2
    unfold attempts
    simp only [serveAll_cons, List.cons.injEq]
    cases hasks : asks tenantId email v with
    | false =>
      rcases attempt_idle cfg (s := s') hasks s with ⟨hstore', hresponse⟩
      rw [hresponse, hstore', (attempt_idle cfg hasks s).1, List.filter_cons_of_neg (by simp [hasks])]
      simp only [true_and]
      exact ih hrow habsent hhash hwrong' hcounted'
    | true =>
      rcases attempt_absent cfg hasks habsent with ⟨hresponse, hstore⟩
      rw [hresponse, hstore, List.filter_cons_of_pos hasks, Unnoticed.cons s'.now]
      by_cases hunnoticed : Unnoticed cfg u [v]
      . rcases attempt_unnoticed hasks hrow hhash (hwrong v List.mem_cons_self) hstorable
          (hcounted v List.mem_cons_self) hunnoticed with ⟨hresponse', hrow'⟩
        simp only [hresponse', hunnoticed, true_and, List.cons_ne_nil, false_or]
        exact ih hrow' habsent hhash hwrong' hcounted'
      . constructor
        . rintro ⟨hresponse', _⟩
          exact absurd (unnoticed_of_attempt hasks hrow hhash (hwrong v List.mem_cons_self) hresponse')
            hunnoticed
        . rintro (hnil | ⟨h, _⟩)
          . contradiction
          . contradiction

end Attempt

theorem byEmail_withUser {s : Server} {tenantId email id : String} {u : User}
    (htenant : u.tenantId = tenantId) (hemail : u.email = some email)
    : byEmail tenantId email (s.withUser id u) = some (id, u) := by
  unfold byEmail Server.withUser Table.select
  simp [htenant, hemail]

/--
Two states differ in whether an account with a password exists, and it is tried with wrong passwords. If the
statement that counts them does not fail, then the responses are the same in both states if and only if the lockout
is not noticed: no attempt gets as far as an answer about the account, or it was not locked before and the threshold
is not reached.
-/
theorem login_enumeration (cfg : Config) (s : Server) (tenantId email id : String) (u : User)
    (habsent : byEmail tenantId email s = none) (hid : storable id = true) (htenant : u.tenantId = tenantId)
    (hemail : u.email = some email) (hpassword : u.passwordHash.isSome) (vs : List (Visit Attempt Draw))
    (hwrong : ∀ v ∈ vs, ∀ hash, u.passwordHash = some hash →
      cfg.verifyPassword v.request.password hash ≠ .ok true)
    (hcounted : ∀ v ∈ vs, (v.draws 1).fault = none)
    : attempts cfg tenantId email vs (s.withUser id u) = attempts cfg tenantId email vs s
        ↔
      vs.filter (asks tenantId email) = [] ∨ Unnoticed cfg u (vs.filter (asks tenantId email)) := by
  rcases Option.isSome_iff_exists.mp hpassword with ⟨hash, hhash⟩
  exact attempts_iff tenantId email id vs (byEmail_withUser htenant hemail) habsent hhash hwrong hid hcounted

namespace Sample

def nobody : Server :=
  { server with users := ∅ }

def somebody : User where
  tenantId := "default"
  email := some "ada@app.example"
  passwordHash := some passwordHash
  displayName := none
  isSuspended := false
  failedLoginAttempts := 0
  lockedUntil := none
  lastSignInAt := none
  createdAt := now
  updatedAt := now

/--
Five seconds pass after an attempt.
-/
def guess : Visit Attempt Draw :=
  ⟨⟨none, "wrong", "pandaria"⟩, fun n => draw n, 5000000⟩

def problemDetail (a : Response) : String :=
  match a.body with
  | .problem p => p.detail
  | _ => ""

end Sample

open Sample in
/--
The account is not noticed by four attempts.
-/
theorem login_enumeration_four :
    attempts config "default" "ada@app.example" (List.replicate 4 guess)
        (nobody.withUser userId somebody)
      =
    attempts config "default" "ada@app.example" (List.replicate 4 guess) nobody := by
  refine (login_enumeration config nobody "default" "ada@app.example" userId somebody rfl (by decide +kernel)
    rfl rfl rfl (List.replicate 4 guess) ?_ ?_).mpr (.inr ?_)
  . intro v hv hash hhash
    injection hhash with hhash
    rw [List.eq_of_mem_replicate hv, ← hhash]
    decide
  . intro v hv
    rw [List.eq_of_mem_replicate hv]
    rfl
  . have hfilter : (List.replicate 4 guess).filter (asks "default" "ada@app.example")
        = List.replicate 4 guess := by
      rw [List.filter_eq_self]
      intro v hv
      rw [List.eq_of_mem_replicate hv]
      decide +kernel
    rw [hfilter]
    exact ⟨rfl, by decide⟩

open Sample in
/--
The fifth attempt locks the account, which its response says.
-/
theorem login_enumeration_locked :
    byEmail "default" "ada@app.example" nobody = none
      ∧ (∀ v ∈ List.replicate 5 guess, ∀ hash, somebody.passwordHash = some hash →
          config.verifyPassword v.request.password hash ≠ .ok true)
      ∧ attempts config "default" "ada@app.example" (List.replicate 5 guess)
          (nobody.withUser userId somebody)
        ≠ attempts config "default" "ada@app.example" (List.replicate 5 guess) nobody := by
  refine ⟨rfl, ?_, ?_⟩
  . intro v hv hash hhash
    injection hhash with hhash
    rw [List.eq_of_mem_replicate hv, ← hhash]
    decide
  . intro heq
    have hdetails := congrArg (List.map problemDetail) heq
    revert hdetails
    decide +kernel

/--
A guess is refused whether or not somebody has the address.
-/
example : (attempts Sample.config "default" "ada@app.example" [Sample.guess] Sample.nobody).map
    (fun a => a.status) = [401] := by
  decide +kernel

end Aspectus
