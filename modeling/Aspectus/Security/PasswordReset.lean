import Aspectus.Discipline.Audit
import Aspectus.Discipline.Passwords
import Aspectus.Security.Sample

/-!
This module contains what a reset of a password leaves behind: a token is claimed at most once, but it is claimed
before the password is set, and an error in between loses it.
-/

namespace Aspectus

open Interaction Prog Machine Statement

variable {cfg : Config} {s s' : Server} {draws : Nat → Draw} {d : Draw} {tokenHash id : String}

/--
The state after a token was claimed.
-/
def claimed (tokenHash : String) (s : Server) : Server :=
  { s with passwordResetTokens := s.passwordResetTokens.updateAt tokenHash fun t => { t with used := true } }

/--
The token can be claimed.
-/
def ResetUsable (s : Server) (tokenHash : String) (t : PasswordResetToken) : Prop :=
  s.passwordResetTokens.lookup tokenHash = some t ∧ t.used = false ∧ s.now < t.expiresAt

/--
If the reset is answered with an error, then no user was changed, and the token can be claimed if it could
before.
-/
def AllOrNothing (cfg : Config) (s : Server) (req : ResetPasswordRequest) (draws : Nat → Draw) : Prop :=
  400 ≤ ((resetPassword cfg req).run (semantics cfg) draws s).1.status →
    ((resetPassword cfg req).run (semantics cfg) draws s).2.2.users = s.users
      ∧ ∀ t, ResetUsable s (cfg.sha256Text req.token) t →
        ResetUsable ((resetPassword cfg req).run (semantics cfg) draws s).2.2 (cfg.sha256Text req.token) t

/--
Thread `i` serves a reset with the token and has changed a password.
-/
def ResetBy (m : AuthMachine) (token : String) (i : Nat) : Prop :=
  (∃ req, Started m.log i (.resetPassword req) ∧ req.token = token)
    ∧ ∃ id passwordHash b, Called (eventsOf i m.log) (.user (.setPassword id passwordHash)) (.ok b)

/--
In every state of every execution, at most one of the resets with a token has changed a password.
-/
def SingleUse (cfg : Config) (s : Server) (token : String) : Prop :=
  ∀ m, AuthMachine.Reachable cfg s m → ∀ i j, ResetBy m token i → ResetBy m token j → i = j

section Claim

theorem claimResetToken_some (h : claimResetToken tokenHash s = .ok (some id, s')) :
    ∃ t, ResetUsable s tokenHash t ∧ t.userId = id
      ∧ s'.passwordResetTokens.lookup tokenHash = some { t with used := true } := by
  unfold claimResetToken at h
  split at h
  . next t ht =>
    split at h
    . next husable =>
      injection h with h
      injection h with hid hs'
      injection hid with hid
      subst hs'
      simp only [Bool.and_eq_true, Bool.not_eq_true', decide_eq_true_eq] at husable
      refine ⟨t, ⟨ht, husable⟩, hid, ?_⟩
      simp [ht]
    . cases h
  . cases h

theorem claimResetToken_usable {t : PasswordResetToken} (h : ResetUsable s tokenHash t) :
    claimResetToken tokenHash s = .ok (some t.userId, claimed tokenHash s) := by
  rcases h with ⟨ht, hunused, hearly⟩
  unfold claimResetToken
  rw [ht]
  dsimp only
  rw [if_pos (by simp [hunused, hearly])]
  rfl

theorem not_usable_claimed {t t' : PasswordResetToken} (h : ResetUsable s tokenHash t) :
    ¬ResetUsable (claimed tokenHash s) tokenHash t' := by
  rintro ⟨ht', hunused, _⟩
  have hused : (claimed tokenHash s).passwordResetTokens.lookup tokenHash = some { t with used := true } := by
    simp [claimed, h.1]
  rw [ht'] at hused
  cases hused
  contradiction

theorem claimResetToken_unusable (h : ∀ t, ¬ResetUsable s tokenHash t) :
    claimResetToken tokenHash s = .ok (none, s) := by
  unfold claimResetToken
  split
  . next t ht =>
    split
    . next husable =>
      simp only [Bool.and_eq_true, Bool.not_eq_true', decide_eq_true_eq] at husable
      exact absurd ⟨ht, husable⟩ (h t)
    . rfl
  . rfl

/--
A token that was used stays used.
-/
def UsedKept (s s' : Server) : Prop :=
  Table.Grows (fun t t' : PasswordResetToken => t.used = true → t'.used = true) s.passwordResetTokens
    s'.passwordResetTokens

theorem UsedKept.of_eq (h : s'.passwordResetTokens = s.passwordResetTokens) : UsedKept s s' := by
  unfold UsedKept
  rw [h]
  exact .refl (fun _ ht => ht) _

theorem Op.exec_usedKept (o : Op) : UsedKept s (o.exec cfg d s).2 := by
  by_cases hgroup : ∃ o', o = .reset o'
  . rcases hgroup with ⟨o', rfl⟩
    cases o' with
    | insert tokenHash userId expiresAt =>
      apply run_store (P := UsedKept s) (.of_eq rfl)
      intro _ s' h
      rcases insertResetToken_ok h with ⟨tokens, htokens, rfl⟩
      exact .insertNew (fun _ ht => ht) htokens
    | claim tokenHash =>
      apply run_store (P := UsedKept s) (.of_eq rfl)
      intro _ s' h
      rcases claimResetToken_ok h with ⟨_, rfl⟩ | ⟨t, _, _, rfl⟩
      . exact .of_eq rfl
      . exact .updateAt (fun _ ht => ht) fun _ _ _ => rfl
  . exact .of_eq ((exec_framed cfg d s o).resetTokens (by simpa using hgroup))

theorem usedKept_evolution (cfg : Config) : Evolution (semantics cfg) UsedKept where
  refl _ := .of_eq rfl
  trans h h' := h.trans (fun hab hbc ht => hbc (hab ht)) h'
  exec o _ _ := Op.exec_usedKept o
  advance _ _ := .of_eq rfl

end Claim

section Once

variable {m : AuthMachine} (hm : AuthMachine.Reachable cfg s m) {token : String} {i j : Nat}
include hm

/--
A token that was claimed before is not claimed again.
-/
theorem AuthMachine.Reachable.claim_once {e e' : AuthEntry} {rest : List AuthEntry}
    (he : e :: rest <:+ m.log) (he' : e' ∈ rest) {id' : String}
    (hclaim : Did e (.reset (.claim tokenHash)) (.ok (some id)))
    (hclaim' : Did e' (.reset (.claim tokenHash)) (.ok (some id'))) : False := by
  have hok := hclaim.run (hm.sound (he.mem List.mem_cons_self)) fun d hres => ⟨hres.symm, rfl⟩
  have hok' := hclaim'.run (hm.sound ((suffix_tail he).mem he')) fun d hres => ⟨hres.symm, rfl⟩
  rcases claimResetToken_some hok with ⟨t, ⟨ht, hunused, _⟩, _⟩
  rcases claimResetToken_some hok' with ⟨t', _, _, hpost⟩
  rcases (usedKept_evolution cfg).between hm he he' tokenHash _ hpost with ⟨t'', ht'', hkept⟩
  rw [ht] at ht''
  cases ht''
  exact Bool.false_ne_true (hunused.symm.trans (hkept rfl))

/--
A reset that has changed a password has claimed its token.
-/
theorem ResetBy.claimed (h : ResetBy m token i) :
    ∃ e rest id, e :: rest <:+ m.log ∧ e.thread = i
      ∧ Did e (.reset (.claim (cfg.sha256Text token))) (.ok (some id)) := by
  rcases h with ⟨⟨req, hstarted, rfl⟩, id, passwordHash, b, hcalled⟩
  rcases hcalled.located with ⟨e, rest, he, rfl, d, hw⟩
  rcases Reaches.called (AuthRequest.handle_resets cfg) hm he hw with ⟨q, hq, hallowed⟩
  cases hm.started_unique hstarted (hq.of_suffix (suffix_tail he))
  rcases (hallowed req rfl).located with ⟨e', rest', he', hi, hdid⟩
  exact ⟨e', rest', id, he'.trans (suffix_tail he), hi, hdid⟩

theorem ResetBy.unique (hi : ResetBy m token i) (hj : ResetBy m token j) : i = j := by
  rcases hi.claimed hm with ⟨e, rest, id, he, rfl, hclaim⟩
  rcases hj.claimed hm with ⟨e', rest', id', he', rfl, hclaim'⟩
  rcases suffix_trichotomy he he' with ⟨heq, _⟩ | hold | hold
  . rw [heq]
  . exact (hm.claim_once he (hold.mem List.mem_cons_self) hclaim hclaim').elim
  . exact (hm.claim_once he' (hold.mem List.mem_cons_self) hclaim' hclaim).elim

end Once

section Alone

variable {req : ResetPasswordRequest}

/--
The database accepts a statement with these texts.
-/
def Accepts (d : Draw) (params : List String) : Prop :=
  d.fault = none ∧ params.all storable = true

theorem run_refused {α : Type} {params : List String} {f : Server → Result (α × Server)}
    (h : ¬Accepts d params) : ∃ e, Statement.run d params f s = (.error e, s) := by
  rcases run_cases d params f s with ⟨e, hrun⟩ | ⟨a, s', hfault, hparams, _⟩
  . exact ⟨e, hrun⟩
  . exact absurd ⟨hfault, hparams⟩ h

theorem hash_exec (hhash : d.hostFault = none) (newPassword : String) :
    (semantics cfg).exec (.host (.hashPassword newPassword)) d s
      = ((.ok (cfg.hashPassword d.salt newPassword) : Result String), s) := by
  change (d.host _, s) = _
  unfold Draw.host
  rw [hhash]

/--
What is left to do after the token was claimed goes well if and only if the password can be hashed and stored.
-/
theorem run_updatePassword (newPassword : String) :
    ((draws 0).hostFault = none ∧ Accepts (draws 1) [cfg.hashPassword (draws 0).salt newPassword, id]
        ∧ ((resetPassword.updatePassword id newPassword).run (semantics cfg) draws s).1.status = 200)
      ∨ (¬((draws 0).hostFault = none ∧ Accepts (draws 1) [cfg.hashPassword (draws 0).salt newPassword, id])
        ∧ ((resetPassword.updatePassword id newPassword).run (semantics cfg) draws s).1.status = 500
        ∧ ((resetPassword.updatePassword id newPassword).run (semantics cfg) draws s).2.2 = s) := by
  unfold resetPassword.updatePassword App.host
  cases hhash : (draws 0).hostFault with
  | some e =>
    have hexec : (semantics cfg).exec (.host (.hashPassword newPassword)) (draws 0) s
        = ((.error e : Result String), s) := by
      change ((draws 0).host _, s) = _
      unfold Draw.host
      rw [hhash]
    rw [run_perform_bind_of hexec]
    exact .inr ⟨nofun, rfl, rfl⟩
  | none =>
    rw [run_perform_bind_of (hash_exec hhash newPassword)]
    unfold App.user
    dsimp only
    by_cases hset : Accepts (draws 1) [cfg.hashPassword (draws 0).salt newPassword, id]
    . refine .inl ⟨rfl, hset, ?_⟩
      have hexec : (semantics cfg).exec (.user (.setPassword id (cfg.hashPassword (draws 0).salt newPassword)))
          (draws 1) s = ((.ok (s.users.lookup id).isSome : Result Bool), updateUser id (fun u =>
            { u with passwordHash := some (cfg.hashPassword (draws 0).salt newPassword) }) s) := by
        change Statement.run (draws 1) _ (updateUserCounted _ _) s = _
        exact run_healthy hset.1 hset.2 rfl
      rw [run_perform_bind_of hexec]
      dsimp only
      rw [run_perform_bind]
      split
      . unfold auditAuthEvent
        rw [run_bind]
        rfl
      . rfl
    . rcases run_refused (f := updateUserCounted id fun u =>
        { u with passwordHash := some (cfg.hashPassword (draws 0).salt newPassword) }) (s := s) hset with
        ⟨e, hrefused⟩
      have hexec : (semantics cfg).exec (.user (.setPassword id (cfg.hashPassword (draws 0).salt newPassword)))
          (draws 1) s = ((.error e : Result Bool), s) := hrefused
      rw [run_perform_bind_of hexec]
      exact .inr ⟨fun h => hset h.2, rfl, rfl⟩

/--
What is left to do goes well for every token that the reset could claim.
-/
def Completes (cfg : Config) (s : Server) (req : ResetPasswordRequest) (draws : Nat → Draw) : Prop :=
  cfg.passwordPolicy.validate req.newPassword = .ok () → Accepts (draws 0) [cfg.sha256Text req.token] →
    ∀ t, ResetUsable s (cfg.sha256Text req.token) t → (draws 1).hostFault = none
      ∧ Accepts (draws 2) [cfg.hashPassword (draws 1).salt req.newPassword, t.userId]

theorem allOrNothing_iff : AllOrNothing cfg s req draws ↔ Completes cfg s req draws := by
  unfold AllOrNothing Completes resetPassword
  cases hvalid : cfg.passwordPolicy.validate req.newPassword with
  | error msg =>
    refine iff_of_true ?_ nofun
    intro _
    exact ⟨rfl, fun _ h => h⟩
  | ok u =>
    unfold App.reset
    dsimp only
    by_cases hclaim : Accepts (draws 0) [cfg.sha256Text req.token]
    . by_cases husable : ∃ t, ResetUsable s (cfg.sha256Text req.token) t
      . rcases husable with ⟨t, ht⟩
        have hexec : (semantics cfg).exec (.reset (.claim (cfg.sha256Text req.token))) (draws 0) s
            = ((.ok (some t.userId) : Result (Option String)), claimed (cfg.sha256Text req.token) s) :=
          run_healthy hclaim.1 hclaim.2 (claimResetToken_usable ht)
        rw [run_perform_bind_of hexec]
        dsimp only
        rcases @run_updatePassword cfg (claimed (cfg.sha256Text req.token) s) (fun n => draws (n + 1)) t.userId
          req.newPassword with
          ⟨hhash, hset, hstatus⟩ | ⟨hfails, hstatus, hstore⟩
        . refine iff_of_true ?_ ?_
          . intro herror
            rw [hstatus] at herror
            contradiction
          . intro _ _ t' ht'
            cases ht.1.symm.trans ht'.1
            exact ⟨hhash, hset⟩
        . refine iff_of_false ?_ fun hcond => hfails (hcond rfl hclaim t ht)
          intro hall
          rw [hstatus, hstore] at hall
          exact not_usable_claimed ht ((hall (by decide)).2 t ht)
      . rw [not_exists] at husable
        have hexec : (semantics cfg).exec (.reset (.claim (cfg.sha256Text req.token))) (draws 0) s
            = ((.ok none : Result (Option String)), s) :=
          run_healthy hclaim.1 hclaim.2 (claimResetToken_unusable husable)
        rw [run_perform_bind_of hexec]
        refine iff_of_true ?_ fun _ _ t ht => absurd ht (husable t)
        intro _
        exact ⟨rfl, fun _ h => h⟩
    . rcases run_refused (f := claimResetToken (cfg.sha256Text req.token)) (s := s) hclaim with ⟨e, hrefused⟩
      have hexec : (semantics cfg).exec (.reset (.claim (cfg.sha256Text req.token))) (draws 0) s
          = ((.error e : Result (Option String)), s) := hrefused
      rw [run_perform_bind_of hexec]
      refine iff_of_true ?_ fun _ hclaim' => absurd hclaim' hclaim
      intro _
      exact ⟨rfl, fun _ h => h⟩

end Alone

/--
A reset is all-or-nothing if and only if nothing fails after it has claimed its token. Every token is used by at
most one reset.
-/
theorem password_reset (cfg : Config) (s : Server) (req : ResetPasswordRequest) (draws : Nat → Draw) :
    (AllOrNothing cfg s req draws ∧ SingleUse cfg s req.token) ↔ Completes cfg s req draws := by
  rw [allOrNothing_iff]
  constructor
  . intro h
    exact h.1
  . intro h
    exact ⟨h, fun m hm i j hi hj => hi.unique hm hj⟩

namespace Sample

def resetRequest : ResetPasswordRequest where
  token := Hex.encode (raw 6)
  newPassword := "N3wPassword"

/--
The user has asked for a reset.
-/
def resetServer : Server :=
  { server with
    passwordResetTokens := (∅ : Table String PasswordResetToken).insert (sha256 (utf8 resetRequest.token))
      ⟨userId, now + forgotPassword.resetLifetime, false⟩ }

/--
The database can not be reached for the third operation.
-/
def resetDraws (n : Nat) : Draw :=
  if n = 2 then { draw 1 with fault := some "connection closed" } else draw 1

end Sample

open Sample in
/--
The token is lost if the password can not be stored.
-/
theorem password_reset_lost :
    ((resetPassword config resetRequest).run (semantics config) resetDraws resetServer).1.status = 500
      ∧ ¬AllOrNothing config resetServer resetRequest resetDraws := by
  have hchecks : ((resetPassword config resetRequest).run (semantics config) resetDraws resetServer).1.status
        = 500
      ∧ (((resetPassword config resetRequest).run (semantics config) resetDraws
        resetServer).2.2.passwordResetTokens.lookup (config.sha256Text resetRequest.token)).any
        (fun t => t.used) = true := by
    decide +kernel
  rcases hchecks with ⟨hstatus, hused⟩
  refine ⟨hstatus, ?_⟩
  intro hall
  have husable : ResetUsable resetServer (config.sha256Text resetRequest.token)
      ⟨userId, now + forgotPassword.resetLifetime, false⟩ :=
    ⟨AList.lookup_insert _, rfl, by decide +kernel⟩
  rcases (hall (hstatus ▸ by decide)).2 _ husable with ⟨hrow, _⟩
  rw [hrow] at hused
  contradiction

end Aspectus
