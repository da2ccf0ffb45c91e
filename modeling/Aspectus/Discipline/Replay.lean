import Aspectus.Discipline.Basic

/-!
This module contains what a refresh grant does before it is answered: once the client has
authenticated it tries to rotate the token, and if it finds the token revoked it revokes all tokens of
the user.
-/

namespace Aspectus

open Interaction Prog

/--
The events contain the attempt to rotate the token, and the reaction to a token that was revoked.
-/
def Handled (h : List (Event Api)) (tokenHash : String) : Prop :=
  ∃ r, Called h (.refresh (.rotate tokenHash)) r ∧ (r = .ok none →
    ∃ r', Called h (.refresh (.findByHashAny tokenHash)) r' ∧ ∀ userId, r' = .ok (some (userId, true)) →
      ∃ n, Called h (.refresh (.revokeAllForUser userId)) n)

/--
A refresh grant that was answered has read its client, and if the client has authenticated it has
handled the token it presents.
-/
def HandlesReplay (cfg : Config) (q : AuthRequest) (h : List (Event Api)) : Prop :=
  ∀ req presented clientId, q = .token req → req.grantType = "refresh_token" →
    req.refreshToken = some presented → req.clientId = some clientId →
    ∃ r, Called h (.client (.selectSecretHash clientId)) r ∧ ∀ row, r = .ok row →
      token.secretMatches cfg (req.clientSecret.getD "") row = true →
      Handled h (cfg.sha256Text presented)

theorem Handled.append {h : List (Event Api)} {tokenHash : String} (hh : Handled h tokenHash)
    (new : List (Event Api)) : Handled (new ++ h) tokenHash := by
  rcases hh with ⟨r, hrotate, hreplay⟩
  refine ⟨r, hrotate.append new, fun hr => ?_⟩
  rcases hreplay hr with ⟨r', hfind, hrevoke⟩
  refine ⟨r', hfind.append new, fun userId hr' => ?_⟩
  rcases hrevoke userId hr' with ⟨n, hn⟩
  exact ⟨n, hn.append new⟩

namespace token

variable {cfg : Config} {req : TokenRequest} {h : List (Event Api)}

theorem rotate_handles (tokenHash requestClientId : String) :
    (rotate cfg tokenHash requestClientId).Conforms (fun _ _ => True)
      (fun h _ => Handled h tokenHash) h := by
  unfold rotate
  apply conforms_perform_bind trivial
  rintro (e | _ | ⟨userId, clientId, oldHash⟩)
  . exact ⟨_, Called.head _ _ _, by simp⟩
  . unfold refuse
    apply conforms_perform_bind trivial
    intro r
    split
    . next userId =>
      apply conforms_perform_bind trivial
      intro n
      refine ⟨_, ((Called.head _ _ _).cons _).cons _, fun _ => ?_⟩
      refine ⟨_, (Called.head _ _ _).cons _, fun userId' hr => ?_⟩
      simp only [Except.ok.injEq, Option.some.injEq, Prod.mk.injEq, and_true] at hr
      subst hr
      exact ⟨n, Called.head _ _ _⟩
    . next hother =>
      refine ⟨_, (Called.head _ _ _).cons _, fun _ => ?_⟩
      exact ⟨r, Called.head _ _ _, fun userId hr => absurd hr (hother userId)⟩
  . apply conforms_of_append
    intro new a
    exact Handled.append ⟨_, Called.head _ _ _, by simp⟩ new

theorem refreshToken_handles (cfg : Config) (req : TokenRequest) :
    (refreshToken cfg req).Conforms (fun _ _ => True)
      (fun h _ => HandlesReplay cfg (.token req) h) [] := by
  unfold refreshToken
  split
  . next hnone =>
    rintro req' presented clientId ⟨⟩ _ htoken
    rw [hnone] at htoken
    contradiction
  . next presented htoken =>
    unfold withClient
    split
    . next hnone =>
      rintro req' presented clientId ⟨⟩ _ _ hid
      rw [hnone] at hid
      contradiction
    . next clientId hid =>
      apply conforms_perform_bind trivial
      rintro (e | row)
      . rintro req' presented' clientId' ⟨⟩ _ _ hid'
        rw [hid] at hid'
        injection hid' with hid'
        subst hid'
        exact ⟨_, Called.head _ _ _, by simp⟩
      . dsimp only
        split
        . apply (rotate_handles (cfg.sha256Text presented) clientId).mono
          . intros
            trivial
          . rintro new a hh req' presented' clientId' ⟨⟩ _ htoken' hid'
            rw [hid] at hid'
            injection hid' with hid'
            rw [htoken] at htoken'
            injection htoken' with htoken'
            subst hid' htoken'
            exact ⟨_, (Called.head _ _ _).append new, fun _ _ _ => hh⟩
        . next hsecret =>
          rintro req' presented' clientId' ⟨⟩ _ _ hid'
          rw [hid] at hid'
          injection hid' with hid'
          subst hid'
          refine ⟨_, Called.head _ _ _, fun row' hrow hmatches => ?_⟩
          injection hrow with hrow
          subst hrow
          exact absurd hmatches hsecret

end token

/--
Every request that was answered has handled the refresh token it presents.
-/
theorem AuthRequest.handle_handles (cfg : Config) (q : AuthRequest) :
    (q.handle cfg).Conforms (fun _ _ => True) (fun h _ => HandlesReplay cfg q h) [] := by
  cases q with
  | token req =>
    by_cases hgrant : req.grantType = "refresh_token"
    . unfold AuthRequest.handle Aspectus.token
      dsimp only
      rw [hgrant]
      exact token.refreshToken_handles cfg req
    . apply conforms_of_append
      rintro new a req' presented clientId ⟨⟩ hgrant'
      exact absurd hgrant' hgrant
  | _ =>
    apply conforms_of_append
    intro new a req' presented clientId hq
    contradiction

end Aspectus
