import Aspectus.Discipline.OAuth

/-!
This module contains the proofs that the remaining endpoints follow the discipline, and therefore
that every request does.
-/

namespace Aspectus

open Interaction Prog

variable {cfg : Config} {q : AuthRequest} {h : List (Event Api)}

/--
A quiet program may be followed by any answer that carries no credential.
-/
theorem conforms_quiet_pure {α : Type} {p : App α} {r : Response} (hp : Quiet p)
    (hr : ∀ h, Answered cfg q h r)
    : (p >>= fun _ => Pure.pure r).Conforms (Allowed cfg q) (Answered cfg q) h := by
  apply conforms_quiet_bind hp
  intro new a _
  exact hr _

namespace login

variable {forwardedFor : Option String} {req : LoginRequest} {row : LoginRow} {ip : String}

theorem blocked_conforms :
    (blocked row ip).Conforms (Allowed cfg q) (Answered cfg q) h := by
  unfold blocked
  apply conforms_quiet_pure (auditAuthEvent_quiet ..)
  intro h
  trivial

theorem failed_conforms :
    (failed cfg row ip).Conforms (Allowed cfg q) (Answered cfg q) h := by
  unfold failed
  apply conforms_quiet rfl
  rintro (e | ⟨attempts, lockedUntil⟩)
  . trivial
  . dsimp only
    apply conforms_quiet_bind (auditAuthEvent_quiet ..)
    intro new _ _
    split
    . trivial
    . trivial

theorem succeed_conforms
    (hrow : Called h (.user (.selectLogin req.tenantId req.email)) (.ok (some row)))
    (hpassword : cfg.verifyPassword req.password row.passwordHash = .ok true)
    (hsign : Absent Op.isSign h) (hcreate : Absent Op.isCreate h)
    : (succeed cfg row req.clientId ip).Conforms (Allowed cfg (.login forwardedFor req))
        (Answered cfg (.login forwardedFor req)) h := by
  unfold succeed
  apply conforms_quiet rfl
  intro cleared
  split
  . apply conforms_quiet_pure (auditAuthEvent_quiet ..)
    intro h
    trivial
  . next hsuspended =>
    apply conforms_quiet rfl
    intro updated
    apply conforms_quiet_bind (auditAuthEvent_quiet ..)
    intro new _ hnew
    apply issueTokens_conforms
    . exact .login (((hrow.cons _).cons _).append new) hpassword (by simpa using hsuspended)
    . exact absent_isSign_append hnew ((hsign.cons rfl).cons rfl)
    . exact absent_isCreate_append hnew ((hcreate.cons rfl).cons rfl)

theorem checkPassword_conforms
    (hrow : Called h (.user (.selectLogin req.tenantId req.email)) (.ok (some row)))
    (hsign : Absent Op.isSign h) (hcreate : Absent Op.isCreate h)
    : (checkPassword cfg req row ip).Conforms (Allowed cfg (.login forwardedFor req))
        (Answered cfg (.login forwardedFor req)) h := by
  unfold checkPassword
  split
  . next hpassword => exact succeed_conforms hrow hpassword hsign hcreate
  . apply failed_conforms

end login

theorem login_conforms (cfg : Config) (forwardedFor : Option String) (req : LoginRequest) :
    (login cfg forwardedFor req).Conforms (Allowed cfg (.login forwardedFor req))
      (Answered cfg (.login forwardedFor req)) [] := by
  unfold login
  dsimp only
  split
  . trivial
  . apply conforms_quiet rfl
    rintro (e | _ | row)
    . trivial
    . trivial
    . dsimp only
      split
      . apply conforms_quiet rfl
        intro now
        split
        . apply login.blocked_conforms
        . exact login.checkPassword_conforms ((Called.head _ _ _).cons _)
            ((Absent.nil.cons rfl).cons rfl) ((Absent.nil.cons rfl).cons rfl)
      . exact login.checkPassword_conforms (Called.head _ _ _) (Absent.nil.cons rfl)
          (Absent.nil.cons rfl)

namespace register

theorem assignDefaultRole_quiet (userId : String) : Quiet (assignDefaultRole userId) :=
  assignDefaultRole_uses rfl rfl (fun _ _ => rfl) rfl

variable {forwardedFor : Option String} {reg : RegisterRequest} {ip : String}

theorem createUser_conforms (hsign : Absent Op.isSign h) (hcreate : Absent Op.isCreate h)
    : (createUser cfg ip reg).Conforms (Allowed cfg (.register forwardedFor reg))
        (Answered cfg (.register forwardedFor reg)) h := by
  unfold createUser
  apply conforms_quiet rfl
  rintro (e | passwordHash)
  . trivial
  . apply conforms_quiet rfl
    intro userId
    apply conforms_perform_bind
    . exact ⟨forwardedFor, reg, rfl, rfl, rfl, rfl, (Called.head _ _ _).cons _⟩
    . rintro (e | _)
      . trivial
      . apply conforms_quiet_bind (assignDefaultRole_quiet userId)
        intro assigned _ hassigned
        apply conforms_quiet_bind (auditAuthEvent_quiet ..)
        intro audited _ haudited
        apply issueTokens_conforms
        . exact @Authorized.register _ _ _ _ _ passwordHash _
            (((Called.head _ _ _).append assigned).append audited)
        . apply absent_isSign_append haudited
          apply absent_isSign_append hassigned
          exact ((hsign.cons rfl).cons rfl).cons rfl
        . apply absent_isCreate_append haudited
          apply absent_isCreate_append hassigned
          exact ((hcreate.cons rfl).cons rfl).cons rfl

theorem checkDatabase_conforms
    : (checkDatabase cfg ip reg).Conforms (Allowed cfg (.register forwardedFor reg))
        (Answered cfg (.register forwardedFor reg)) [] := by
  unfold checkDatabase
  apply conforms_quiet rfl
  rintro (e | taken)
  . trivial
  . cases taken with
    | true => trivial
    | false =>
      apply conforms_quiet rfl
      rintro (e | exists_)
      . trivial
      . cases exists_ with
        | false => trivial
        | true =>
          exact createUser_conforms ((Absent.nil.cons rfl).cons rfl)
            ((Absent.nil.cons rfl).cons rfl)

end register

theorem register_conforms (cfg : Config) (forwardedFor : Option String) (reg : RegisterRequest) :
    (register cfg forwardedFor reg).Conforms (Allowed cfg (.register forwardedFor reg))
      (Answered cfg (.register forwardedFor reg)) [] := by
  unfold register
  dsimp only
  split
  . trivial
  . split
    . trivial
    . split
      . trivial
      . split
        . trivial
        . apply register.checkDatabase_conforms

theorem revoke_quiet (cfg : Config) (token : String) : Quiet (JwtVerifier.revoke cfg token) :=
  jwtRevoke_uses rfl fun _ _ _ => rfl

theorem logout_conforms (cfg : Config) (req : LogoutRequest) :
    (logout cfg req).Conforms (Allowed cfg (.logout req)) (Answered cfg (.logout req)) [] := by
  unfold logout
  apply conforms_perform_bind
  . exact ⟨.inr ⟨req, rfl, rfl⟩, Absent.nil⟩
  . intro r
    split
    . split
      . apply conforms_quiet_pure (revoke_quiet ..)
        intro h
        trivial
      . trivial
    . trivial

theorem forgotPassword_conforms (cfg : Config) (req : ForgotPasswordRequest) :
    (forgotPassword cfg req).Conforms (Allowed cfg (.forgotPassword req))
      (Answered cfg (.forgotPassword req)) [] := by
  unfold forgotPassword
  apply conforms_quiet rfl
  rintro (e | _ | ⟨userId, tenantId⟩)
  . trivial
  . trivial
  . unfold forgotPassword.createToken
    apply conforms_quiet rfl
    rintro (e | raw)
    . trivial
    . apply conforms_quiet rfl
      intro now
      apply conforms_quiet rfl
      rintro (e | _)
      . trivial
      . apply conforms_quiet rfl
        intro sent
        trivial

theorem resetPassword_conforms (cfg : Config) (req : ResetPasswordRequest) :
    (resetPassword cfg req).Conforms (Allowed cfg (.resetPassword req))
      (Answered cfg (.resetPassword req)) [] := by
  unfold resetPassword
  split
  . trivial
  . apply conforms_quiet rfl
    rintro (e | _ | userId)
    . trivial
    . trivial
    . unfold resetPassword.updatePassword
      apply conforms_quiet rfl
      rintro (e | passwordHash)
      . trivial
      . apply conforms_perform_bind
        . exact ⟨req.newPassword, Called.head _ _ _⟩
        . rintro (e | updated)
          . trivial
          . apply conforms_quiet rfl
            intro tenant
            split
            . apply conforms_quiet_pure (auditAuthEvent_quiet ..)
              intro h
              trivial
            . trivial

namespace changePassword

theorem updatePassword_conforms {id newPassword : String} {user : User} :
    (updatePassword id user newPassword).Conforms (Allowed cfg q) (Answered cfg q) h := by
  unfold updatePassword
  apply conforms_quiet rfl
  rintro (e | newHash)
  . trivial
  . apply conforms_perform_bind
    . exact ⟨newPassword, Called.head _ _ _⟩
    . rintro (e | updated)
      . trivial
      . cases updated with
        | false => trivial
        | true =>
          apply conforms_quiet_pure (auditAuthEvent_quiet ..)
          intro h
          trivial

end changePassword

theorem changePassword_conforms (cfg : Config) (id : String) (req : ChangePasswordRequest) :
    (changePassword cfg id req).Conforms (Allowed cfg (.changePassword id req))
      (Answered cfg (.changePassword id req)) [] := by
  unfold changePassword
  split
  . trivial
  . apply conforms_quiet rfl
    rintro (e | _ | user)
    . trivial
    . trivial
    . dsimp only
      split
      . trivial
      . unfold changePassword.checkPassword
        split
        . trivial
        . split
          . apply changePassword.updatePassword_conforms
          . trivial

theorem suspend_conforms (cfg : Config) (id : String) (suspended : Bool) :
    (suspend id suspended).Conforms (Allowed cfg (.suspend id suspended))
      (Answered cfg (.suspend id suspended)) [] := by
  unfold suspend
  apply conforms_perform_bind
  . rfl
  . rintro (e | updated)
    . trivial
    . cases updated with
      | false => trivial
      | true =>
        apply conforms_quiet_pure (auditEvent_quiet _)
        intro h
        trivial

theorem unlock_conforms (cfg : Config) (id : String) :
    (unlock id).Conforms (Allowed cfg (.unlock id)) (Answered cfg (.unlock id)) [] := by
  unfold unlock
  apply conforms_quiet rfl
  rintro (e | _ | user)
  . trivial
  . trivial
  . apply conforms_quiet rfl
    rintro (e | cleared)
    . trivial
    . cases cleared with
      | false => trivial
      | true =>
        apply conforms_quiet_pure (auditEvent_quiet _)
        intro h
        trivial

/--
Every request follows the discipline.
-/
theorem AuthRequest.handle_conforms (cfg : Config) (q : AuthRequest) :
    (q.handle cfg).Conforms (Allowed cfg q) (Answered cfg q) [] := by
  cases q with
  | login forwardedFor req => apply login_conforms
  | register forwardedFor reg => apply register_conforms
  | authorize req => apply authorize_conforms
  | token req => apply token_conforms
  | logout req => apply logout_conforms
  | forgotPassword req => apply forgotPassword_conforms
  | resetPassword req => apply resetPassword_conforms
  | changePassword id req => apply changePassword_conforms
  | suspend id suspended => apply suspend_conforms
  | unlock id => apply unlock_conforms
  | createClient req => apply createClient_conforms

end Aspectus
