import Aspectus.Discipline.Calls
import Aspectus.Interaction.Insensitive

/-!
This module contains what the programs of the server do not look at: how many tokens were revoked, and whether
a token that cannot be rotated is stored, unless it was revoked.
-/

namespace Aspectus

open Interaction Prog

/--
Answers that no program distinguishes: how many tokens were revoked or deleted is not looked at, and a token
that was never revoked is like none when it is looked up after its rotation failed.
-/
def AlikeAnswers : (o : ServerApi.Op) → ServerApi.Res o → ServerApi.Res o → Prop
  | .left (.refresh (.revokeAllForUser _)), r, r' => r = r' ∨ ∃ n n', r = .ok n ∧ r' = .ok n'
  | .left (.refresh (.findByHashAny _)), r, r' =>
    r = r' ∨ (r = .ok none ∧ ∃ userId, r' = .ok (some (userId, false)))
  | .right _, r, r' => r = r' ∨ ∃ n n', r = .ok n ∧ r' = .ok n'
  | .left _, r, r' => r = r'

/--
Operations with answers that are only like themselves.
-/
def Op.isPlain : Op → Bool
  | .refresh (.revokeAllForUser _) => false
  | .refresh (.findByHashAny _) => false
  | _ => true

theorem eq_of_alike {o : Op} (ho : o.isPlain = true) {r r' : o.Res} (h : AlikeAnswers (.left o) r r') :
    r = r' := by
  cases o with
  | refresh o =>
    cases o with
    | revokeAllForUser userId => contradiction
    | findByHashAny tokenHash => contradiction
    | _ => exact h
  | _ => exact h

/--
A program that goes on in the same way after answers that are alike.
-/
abbrev Blind {α : Type} (p : App α) : Prop :=
  p.Insensitive fun o => AlikeAnswers (.left o)

variable {cfg : Config}

theorem blind_perform_bind {α : Type} {o : Op} {f : o.Res → App α} (ho : o.isPlain = true)
    (hf : ∀ r, Blind (f r)) : Blind (perform (S := Api) o >>= f) := by
  apply insensitive_perform_bind
  . intro r r' h
    rw [eq_of_alike ho h]
  . exact hf

theorem Blind.of_uses {α : Type} {U : Op → Prop} {p : App α} (hp : p.Uses U)
    (hplain : ∀ o, U o → o.isPlain = true) : Blind p :=
  hp.insensitive fun o ho _ _ => eq_of_alike (hplain o ho)

theorem issueTokens_blind (userId tenantId clientId : String) :
    Blind (issueTokens cfg userId tenantId clientId) := by
  apply Blind.of_uses issueTokens_calls
  intro o ho
  unfold Op.isPlain
  split
  . exact ho.elim
  . exact ho.elim
  . rfl

/--
A token that could not be rotated only matters if it was revoked.
-/
theorem refuse_blind (tokenHash : String) : Blind (token.refuse tokenHash) := by
  unfold token.refuse
  apply insensitive_perform_bind
  . rintro r r' (rfl | ⟨rfl, userId, rfl⟩)
    . rfl
    . rfl
  . intro r
    split
    . apply insensitive_perform_bind
      . intro r r' _
        rfl
      . intro r
        trivial
    . trivial

theorem token_blind (req : TokenRequest) : Blind (token cfg req) := by
  unfold token token.authorizationCode token.refreshToken token.withClient token.exchange token.rotate
    token.redeem token.succeed
  repeat' first
    | exact trivial | apply issueTokens_blind | apply refuse_blind | apply blind_perform_bind rfl | intro _
    | split

/--
Only the refresh grant asks for what there are different answers to that are alike.
-/
theorem AuthRequest.handle_blind (q : AuthRequest) : Blind (q.handle cfg) := by
  by_cases hq : ∃ req, q = .token req
  . rcases hq with ⟨req, rfl⟩
    exact token_blind req
  . apply Blind.of_uses q.handle_calls
    intro o ho
    unfold Op.isPlain
    split
    . exact absurd ho hq
    . exact absurd ho hq
    . rfl

theorem KeyRequest.handle_blind (q : KeyRequest) : Blind (q.handle cfg) := by
  apply Blind.of_uses q.handle_calls
  intro o ho
  unfold Op.isPlain
  split
  . exact ho.elim
  . exact ho.elim
  . rfl

theorem ProjectTokenRequest.handle_blind (q : ProjectTokenRequest) : Blind (q.handle cfg) := by
  apply Blind.of_uses q.handle_calls
  intro o ho
  unfold Op.isPlain
  split
  . exact ho.elim
  . exact ho.elim
  . rfl

theorem RoleRequest.handle_blind (q : RoleRequest) : Blind (q.handle cfg) := by
  apply Blind.of_uses q.handle_calls
  intro o ho
  unfold Op.isPlain
  split
  . exact ho.elim
  . exact ho.elim
  . rfl

theorem Endpoint.handle_blind (endpoint : Endpoint) : Blind (endpoint.handle cfg) := by
  cases endpoint with
  | auth q => exact q.handle_blind
  | key q => exact q.handle_blind
  | serviceToken q => exact q.handle_blind
  | other layer a => trivial

theorem Call.handle_blind (call : Call) : Blind (call.handle cfg) := by
  apply Call.handle_rule
  . exact fun _ => trivial
  . intro α p f hp hf
    apply Insensitive.bind _ hf
    apply Blind.of_uses hp
    intro o ho
    unfold Op.isPlain
    split
    . contradiction
    . contradiction
    . rfl
  . exact Endpoint.handle_blind

/--
No task distinguishes answers that are alike.
-/
theorem Task.handle_insensitive (task : Task) : (task.handle cfg).Insensitive AlikeAnswers := by
  cases task with
  | call c => exact (c.handle_blind.left fun _ _ _ h => h).bind fun _ => trivial
  | role q => exact (q.handle_blind.left fun _ _ _ h => h).bind fun _ => trivial
  | cleanup =>
    dsimp only [Task.handle]
    unfold runCleanup CleanupOp.perform
    apply insensitive_perform_bind
    . rintro r r' (rfl | ⟨n, n', rfl, rfl⟩)
      . rfl
      . refine congrArg (Prog.call (S := ServerApi) (.right .deleteResetTokens)) ?_
        funext r
        cases r with
        | error e => rfl
        | ok reset => rfl
    . rintro (e | refresh)
      . trivial
      . apply insensitive_perform_bind
        . rintro r r' (rfl | ⟨n, n', rfl, rfl⟩)
          . rfl
          . rfl
        . rintro (e | reset)
          . trivial
          . trivial

/--
The cleanup only deletes tokens.
-/
theorem Task.cleanup_uses : (Task.cleanup.handle cfg).Uses fun o => ∃ o', o = SumOp.right o' := by
  dsimp only [Task.handle]
  unfold runCleanup CleanupOp.perform
  apply uses_perform_bind ⟨_, rfl⟩
  rintro (e | refresh)
  . trivial
  . apply uses_perform_bind ⟨_, rfl⟩
    rintro (e | reset)
    . trivial
    . trivial

end Aspectus
