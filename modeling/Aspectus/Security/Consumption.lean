import Aspectus.Discipline.OAuth
import Aspectus.Interaction.Run
import Aspectus.Security.Sample

/-!
This module contains when a refresh grant consumes the token it presents: as soon as its rotation
succeeds, whatever becomes of the rest of the grant.
-/

namespace Aspectus

open Interaction Prog Statement

variable {cfg : Config} {s : Server} {draws : Nat → Draw}

/--
The state after a token request that nothing interferes with, together with the response.
-/
def serve (cfg : Config) (req : TokenRequest) (draws : Nat → Draw) (s : Server) :
    Response × Server :=
  ((run (semantics cfg) (token cfg req) draws s).1, (run (semantics cfg) (token cfg req) draws s).2.2)

/--
The client of the request authenticates, `d` is drawn for the statement that reads it.
-/
def ClientPasses (cfg : Config) (req : TokenRequest) (d : Draw) (s : Server) : Prop :=
  ∃ clientId client, req.clientId = some clientId ∧ d.fault = none ∧ storable clientId = true
    ∧ s.oauth2Clients.lookup clientId = some client
    ∧ token.secretMatches cfg (req.clientSecret.getD "") (some client.clientSecretHash) = true

/--
The request gets as far as to rotate the token it presents.
-/
def Claims (cfg : Config) (req : TokenRequest) (tokenHash : String) (draws : Nat → Draw)
    (s : Server) : Prop :=
  ClientPasses cfg req (draws 0) s ∧ (draws 1).fault = none ∧ storable tokenHash = true

def Op.isRevocation : Op → Bool
  | .refresh (.rotate ..) => true
  | .refresh (.revokeAllForUser ..) => true
  | _ => false

/--
A program that revokes no refresh token.
-/
abbrev Harmless {α : Type} (p : App α) : Prop :=
  p.Uses fun (o : Op) => o.isRevocation = false

theorem harmless_perform_bind {α : Type} {o : Op} {f : o.Res → App α} (ho : o.isRevocation = false)
    (hf : ∀ r, Harmless (f r)) : Harmless (perform (S := Api) o >>= f) :=
  uses_perform_bind ho hf

/--
Issuing tokens revokes none.
-/
theorem issueTokens_harmless (cfg : Config) (userId tenantId clientId : String) :
    Harmless (issueTokens cfg userId tenantId clientId) := by
  refine issueTokens_calls.mono fun o ho => ?_
  unfold Op.isRevocation
  split
  . exact ho.elim
  . exact ho.elim
  . rfl

theorem succeed_uses (cfg : Config) (userId clientId : String) :
    Harmless (token.succeed cfg userId clientId) := by
  unfold token.succeed
  apply harmless_perform_bind rfl
  rintro (e | _ | ⟨tenantId, suspended⟩)
  . trivial
  . trivial
  . cases suspended with
    | true => trivial
    | false => apply issueTokens_harmless

/--
Only revocations change the rows of refresh tokens.
-/
theorem Op.exec_refreshToken_kept {o : Op} (ho : o.isRevocation = false) (d : Draw)
    {tokenHash : String} {t : RefreshToken} (ht : s.refreshTokens.lookup tokenHash = some t)
    : (o.exec cfg d s).2.refreshTokens.lookup tokenHash = some t := by
  by_cases hgroup : ∃ o', o = .refresh o'
  . rcases hgroup with ⟨o', rfl⟩
    cases o' with
    | create tokenHash' userId clientId expiresAt =>
      apply run_store (P := fun s' => s'.refreshTokens.lookup tokenHash = some t) ht
      intro _ s' h
      rcases createRefreshToken_ok h with ⟨tokens, htokens, rfl⟩
      exact Table.lookup_insertNew_of_some htokens ht
    | findByHashAny tokenHash' =>
      exact query_keeps (P := fun s' => s'.refreshTokens.lookup tokenHash = some t) ht
    | rotate tokenHash' => contradiction
    | revokeAllForUser userId => contradiction
  . rw [(exec_framed cfg d s o).refreshTokens (by simpa using hgroup)]
    exact ht

/--
A refresh token is only changed in ways that are kept.
-/
theorem run_kept {α : Type} (p : App α) {tokenHash : String} {t : RefreshToken}
    (ht : s.refreshTokens.lookup tokenHash = some t)
    : ∃ t', (run (semantics cfg) p draws s).2.2.refreshTokens.lookup tokenHash = some t'
        ∧ t.Kept t' := by
  refine (uses_of_forall (U := fun _ => True) (fun _ => trivial) p).run_keeps
    (P := fun s' : Server => ∃ t', s'.refreshTokens.lookup tokenHash = some t' ∧ t.Kept t') ?_
    ⟨t, ht, .refl t⟩
  rintro o d s _ ⟨t', ht', hkept⟩
  rcases ((evolution cfg).exec o d s).refreshTokens _ _ ht' with ⟨t'', ht'', hkept'⟩
  exact ⟨t'', ht'', hkept.trans hkept'⟩

theorem token_eq {req : TokenRequest} {presented : String}
    (hgrant : req.grantType = "refresh_token") (htoken : req.refreshToken = some presented) :
    token cfg req = token.withClient cfg req (token.rotate cfg (cfg.sha256Text presented)) := by
  unfold token token.refreshToken
  rw [hgrant, htoken]
  rfl

section Grant

variable {req : TokenRequest}

/--
A request whose client does not authenticate changes nothing and issues nothing.
-/
theorem run_withClient_refused {grant : String → App Response}
    (hclient : ¬ClientPasses cfg req (draws 0) s)
    : (run (semantics cfg) (token.withClient cfg req grant) draws s).2.2 = s
        ∧ ∀ t, (run (semantics cfg) (token.withClient cfg req grant) draws s).1.body ≠ .userTokens t := by
  unfold token.withClient
  split
  . exact ⟨rfl, by intro t; nofun⟩
  . next clientId hid =>
    unfold App.client
    rw [run_perform_bind]
    have hstore : ((semantics cfg).exec (.client (.selectSecretHash clientId)) (draws 0) s).2 = s :=
      query_store _
    rw [hstore]
    cases hrow : ((semantics cfg).exec (.client (.selectSecretHash clientId)) (draws 0) s).1 with
    | error e => exact ⟨rfl, by intro t; nofun⟩
    | ok row =>
      dsimp only
      split
      . next hsecret =>
        have haccepted := run_accepted hrow
        have hread := query_ok hrow
        injection hread with hread
        cases hlookup : s.oauth2Clients.lookup clientId with
        | none =>
          rw [hlookup] at hread
          subst hread
          contradiction
        | some client =>
          rw [hlookup] at hread
          subst hread
          exact absurd ⟨clientId, client, hid, haccepted.1, by simpa using haccepted.2, hlookup, hsecret⟩
            hclient
      . exact ⟨rfl, by intro t; nofun⟩

/--
A request whose client authenticates goes on with its grant.
-/
theorem run_withClient (grant : String → App Response)
    (hclient : ClientPasses cfg req (draws 0) s)
    : ∃ clientId, req.clientId = some clientId
        ∧ run (semantics cfg) (token.withClient cfg req grant) draws s
          = run (semantics cfg) (grant clientId) (fun n => draws (n + 1)) s := by
  rcases hclient with ⟨clientId, client, hid, hfault, hstorable, hlookup, hsecret⟩
  refine ⟨clientId, hid, ?_⟩
  unfold token.withClient
  rw [hid]
  have hexec : (semantics cfg).exec (.client (.selectSecretHash clientId)) (draws 0) s
      = ((.ok (some client.clientSecretHash) : Result (Option (Option String))), s) := by
    change query (draws 0) [clientId] (selectSecretHash clientId) s = _
    apply query_healthy hfault (by simp [hstorable])
    unfold selectSecretHash
    rw [hlookup]
    rfl
  unfold App.client
  dsimp only
  rw [run_perform_bind, hexec]
  dsimp only
  rw [if_pos hsecret]

/--
The rotation of a token that is neither revoked nor expired goes through, or changes nothing.
-/
theorem run_rotate (cfg : Config) (draws : Nat → Draw) {tokenHash : String} (clientId : String)
    {t : RefreshToken} (ht : s.refreshTokens.lookup tokenHash = some t)
    (hrotatable : rotatable s.now t = true)
    : ((draws 0).fault = none ∧ storable tokenHash = true
          ∧ run (semantics cfg) (token.rotate cfg tokenHash clientId) draws s
            = run (semantics cfg) (if t.clientId ≠ clientId then
                Pure.pure (unauthorized "Invalid client_id" "/token")
              else
                token.succeed cfg t.userId t.clientId) (fun n => draws (n + 1))
              { s with refreshTokens := s.refreshTokens.updateAt tokenHash fun t =>
                { t with revokedAt := some s.now } })
        ∨ (¬((draws 0).fault = none ∧ storable tokenHash = true)
          ∧ run (semantics cfg) (token.rotate cfg tokenHash clientId) draws s
            = (tokenUnavailable, (fun n => draws (n + 1)), s)) := by
  have hrotate : Statement.rotate tokenHash s = .ok (some (t.userId, t.clientId, tokenHash),
      { s with refreshTokens := s.refreshTokens.updateAt tokenHash fun t =>
        { t with revokedAt := some s.now } }) := by
    unfold Statement.rotate
    rw [ht]
    dsimp only
    rw [if_pos hrotatable]
  have hexec : (semantics cfg).exec (.refresh (.rotate tokenHash)) (draws 0) s
      = Statement.run (draws 0) [tokenHash] (Statement.rotate tokenHash) s := by
    rfl
  unfold token.rotate App.refresh
  rw [run_perform_bind, hexec]
  by_cases haccepted : (draws 0).fault = none ∧ storable tokenHash = true
  . left
    refine ⟨haccepted.1, haccepted.2, ?_⟩
    rw [run_healthy haccepted.1 (by simp [haccepted.2]) hrotate]
  . right
    refine ⟨haccepted, ?_⟩
    rcases run_cases (draws 0) [tokenHash] (Statement.rotate tokenHash) s with
      ⟨e, hrun⟩ | ⟨_, _, hfault, hparams, _⟩
    . rw [hrun]
      rfl
    . exact absurd ⟨hfault, by simpa using hparams⟩ haccepted

/--
A rotation of a token that is revoked is treated as a replay.
-/
theorem run_replay {tokenHash clientId : String} {t : RefreshToken}
    (ht : s.refreshTokens.lookup tokenHash = some t) (hrevoked : t.revokedAt.isSome = true)
    (hhealthy : ∀ n < 3, (draws n).fault = none)
    (hstorable : storable tokenHash = true ∧ storable t.userId = true)
    : (run (semantics cfg) (token.rotate cfg tokenHash clientId) draws s).1
          = unauthorized "Invalid or expired refresh_token" "/token"
        ∧ ∀ tokenHash' t', s.refreshTokens.lookup tokenHash' = some t' → t'.userId = t.userId →
          ∃ t'', (run (semantics cfg) (token.rotate cfg tokenHash clientId)
              draws s).2.2.refreshTokens.lookup tokenHash' = some t''
            ∧ t''.revokedAt.isSome = true := by
  have hrotate : (semantics cfg).exec (.refresh (.rotate tokenHash)) (draws 0) s
      = ((.ok none : Result (Option (String × String × String))), s) := by
    change Statement.run (draws 0) [tokenHash] (Statement.rotate tokenHash) s = _
    apply run_healthy (hhealthy 0 (by decide)) (by simp [hstorable.1])
    unfold Statement.rotate
    rw [ht]
    cases hr : t.revokedAt with
    | none => simp [hr] at hrevoked
    | some at_ => simp [rotatable, hr]
  have hfind : (semantics cfg).exec (.refresh (.findByHashAny tokenHash)) (draws 1) s
      = ((.ok (some (t.userId, true)) : Result (Option (String × Bool))), s) := by
    change query (draws 1) [tokenHash] (Statement.findByHashAny tokenHash) s = _
    apply query_healthy (hhealthy 1 (by decide)) (by simp [hstorable.1])
    unfold Statement.findByHashAny
    rw [ht]
    simp [hrevoked]
  have hrevoke := run_healthy (d := draws 2) (s := s) (hhealthy 2 (by decide))
    (show [t.userId].all storable = true by simp [hstorable.2])
    (show Statement.revokeAllForUser t.userId s = .ok (_, _) from rfl)
  have hexec : (semantics cfg).exec (.refresh (.revokeAllForUser t.userId)) (draws 2) s
      = Statement.run (draws 2) [t.userId] (Statement.revokeAllForUser t.userId) s := by
    rfl
  unfold token.rotate App.refresh
  rw [run_perform_bind, hrotate]
  unfold token.refuse App.refresh
  dsimp only
  rw [run_perform_bind, hfind]
  dsimp only
  rw [run_perform_bind, hexec, hrevoke]
  refine ⟨rfl, ?_⟩
  intro tokenHash' t' ht' huser
  refine ⟨if t'.revokedAt.isNone then { t' with revokedAt := some s.now } else t', ?_, ?_⟩
  . simp [ht', huser]
  . cases hr : t'.revokedAt with
    | none => simp
    | some at_ => simp [hr]

section Serve

variable {presented : String} {t : RefreshToken} (hgrant : req.grantType = "refresh_token")
  (htoken : req.refreshToken = some presented)
  (ht : s.refreshTokens.lookup (cfg.sha256Text presented) = some t)
include hgrant htoken ht

/--
A grant that does not get as far as its rotation changes nothing and issues nothing.
-/
theorem serve_refused (hrotatable : rotatable s.now t = true)
    (hclaims : ¬Claims cfg req (cfg.sha256Text presented) draws s)
    : (serve cfg req draws s).2 = s
        ∧ ∀ tokens, (serve cfg req draws s).1.body ≠ .userTokens tokens := by
  unfold serve
  rw [token_eq hgrant htoken]
  by_cases hclient : ClientPasses cfg req (draws 0) s
  . rcases run_withClient (token.rotate cfg (cfg.sha256Text presented)) hclient with
      ⟨clientId, _, hrun⟩
    rcases run_rotate cfg (fun n => draws (n + 1)) clientId ht
      hrotatable with ⟨hfault, hstorable, _⟩ | ⟨_, hrotate⟩
    . exact absurd ⟨hclient, hfault, hstorable⟩ hclaims
    . rw [hrun, hrotate]
      exact ⟨rfl, by intro t; nofun⟩
  . exact run_withClient_refused hclient

/--
A grant that gets as far as its rotation goes on from a state in which the token is revoked.
-/
theorem serve_claimed (hrotatable : rotatable s.now t = true)
    (hclaims : Claims cfg req (cfg.sha256Text presented) draws s)
    : ∃ clientId, req.clientId = some clientId ∧ (serve cfg req draws s).2
        = (run (semantics cfg) (if t.clientId ≠ clientId then
            Pure.pure (unauthorized "Invalid client_id" "/token")
          else
            token.succeed cfg t.userId t.clientId) (fun n => draws (n + 2))
          { s with refreshTokens := s.refreshTokens.updateAt (cfg.sha256Text presented) fun t =>
            { t with revokedAt := some s.now } }).2.2 := by
  rcases hclaims with ⟨hclient, hfault, hstorable⟩
  rcases run_withClient (token.rotate cfg (cfg.sha256Text presented)) hclient with
    ⟨clientId, hid, hrun⟩
  refine ⟨clientId, hid, ?_⟩
  unfold serve
  rw [token_eq hgrant htoken, hrun]
  rcases run_rotate cfg (fun n => draws (n + 1)) clientId ht
    hrotatable with ⟨_, _, hrotate⟩ | ⟨hrefused, _⟩
  . rw [hrotate]
  . exact absurd ⟨hfault, hstorable⟩ hrefused

theorem serve_replay (hrevoked : t.revokedAt.isSome = true)
    (hclient : ClientPasses cfg req (draws 0) s) (hhealthy : ∀ n < 4, (draws n).fault = none)
    (hstorable : storable (cfg.sha256Text presented) = true ∧ storable t.userId = true)
    : (serve cfg req draws s).1 = unauthorized "Invalid or expired refresh_token" "/token"
        ∧ ∀ tokenHash t', s.refreshTokens.lookup tokenHash = some t' → t'.userId = t.userId →
          ∃ t'', (serve cfg req draws s).2.refreshTokens.lookup tokenHash = some t''
            ∧ t''.revokedAt.isSome = true := by
  rcases run_withClient (token.rotate cfg (cfg.sha256Text presented)) hclient with
    ⟨clientId, _, hrun⟩
  unfold serve
  rw [token_eq hgrant htoken, hrun]
  apply run_replay ht hrevoked
  . intro n hn
    exact hhealthy (n + 1) (by omega)
  . exact hstorable

end Serve

end Grant

/--
The refresh grant consumes the token it presents exactly when it gets as far as its rotation.

If it does not, nothing changes, and a retry by the right client leaves the other tokens of the user
alone. If it does, the token stays revoked whatever becomes of the rest of the grant, and a retry is
treated as a replay that revokes all tokens of the user.
-/
theorem refresh_grant_consumption (cfg : Config) (s : Server) (req : TokenRequest)
    (draws : Nat → Draw) (presented : String) (t : RefreshToken)
    (hgrant : req.grantType = "refresh_token") (htoken : req.refreshToken = some presented)
    (ht : s.refreshTokens.lookup (cfg.sha256Text presented) = some t)
    (hrotatable : rotatable s.now t = true) :
    (¬Claims cfg req (cfg.sha256Text presented) draws s →
      (serve cfg req draws s).2 = s
      ∧ (∀ tokens, (serve cfg req draws s).1.body ≠ .userTokens tokens)
      ∧ ∀ retry draws', retry.grantType = "refresh_token" → retry.refreshToken = some presented →
        retry.clientId = some t.clientId →
        Claims cfg retry (cfg.sha256Text presented) draws' (serve cfg req draws s).2 →
        ∀ tokenHash t', tokenHash ≠ cfg.sha256Text presented →
          s.refreshTokens.lookup tokenHash = some t' →
          (serve cfg retry draws' (serve cfg req draws s).2).2.refreshTokens.lookup tokenHash
            = some t')
    ∧ (Claims cfg req (cfg.sha256Text presented) draws s →
      (∃ t', (serve cfg req draws s).2.refreshTokens.lookup (cfg.sha256Text presented) = some t'
        ∧ t'.revokedAt.isSome = true)
      ∧ ∀ retry draws', retry.grantType = "refresh_token" → retry.refreshToken = some presented →
        ClientPasses cfg retry (draws' 0) (serve cfg req draws s).2 →
        (∀ n < 4, (draws' n).fault = none) → storable t.userId = true →
        (serve cfg retry draws' (serve cfg req draws s).2).1
            = unauthorized "Invalid or expired refresh_token" "/token"
          ∧ ∀ tokenHash t', (serve cfg req draws s).2.refreshTokens.lookup tokenHash = some t' →
            t'.userId = t.userId →
            ∃ t'', (serve cfg retry draws' (serve cfg req draws s).2).2.refreshTokens.lookup tokenHash
                = some t''
              ∧ t''.revokedAt.isSome = true) := by
  constructor
  . intro hclaims
    rcases serve_refused hgrant htoken ht hrotatable hclaims with ⟨hunchanged, hrefused⟩
    refine ⟨hunchanged, hrefused, ?_⟩
    rw [hunchanged]
    intro retry draws' hgrant' htoken' hid hclaims' tokenHash t' hne ht'
    rcases serve_claimed hgrant' htoken' ht hrotatable hclaims' with ⟨clientId, hid', hserve⟩
    rw [hid] at hid'
    injection hid' with hid'
    subst hid'
    rw [hserve, if_neg (by simp)]
    refine (succeed_uses cfg t.userId t.clientId).run_keeps
      (P := fun s' : Server => s'.refreshTokens.lookup tokenHash = some t') ?_ (by simp [hne, ht'])
    intro o d s' ho hs'
    exact Op.exec_refreshToken_kept ho d hs'
  . intro hclaims
    rcases serve_claimed hgrant htoken ht hrotatable hclaims with ⟨clientId, _, hserve⟩
    -- Whatever follows the rotation, the token stays revoked.
    have hrevoked : ∃ t', (serve cfg req draws s).2.refreshTokens.lookup (cfg.sha256Text presented)
        = some t' ∧ RefreshToken.Kept { t with revokedAt := some s.now } t' := by
      rw [hserve]
      apply run_kept
      simp [ht]
    rcases hrevoked with ⟨t', ht', hkept⟩
    have hisSome : t'.revokedAt.isSome = true := by
      rw [hkept.revokedAt _ rfl]
      rfl
    refine ⟨⟨t', ht', hisSome⟩, ?_⟩
    intro retry draws' hgrant' htoken' hclient hhealthy hstorable
    have huser : t'.userId = t.userId := hkept.userId
    have hreplay := serve_replay hgrant' htoken' ht' hisSome hclient hhealthy
      ⟨hclaims.2.2, huser ▸ hstorable⟩
    rw [huser] at hreplay
    exact hreplay

namespace Sample

/--
Another client presents the first token.
-/
def mismatchedGrant : TokenRequest :=
  { refreshGrant 1 with clientId := some otherClientId, clientSecret := some otherClientSecret }

def mismatchedDraws (n : Nat) : Draw :=
  draw (n + 1)

/--
The state that the mismatched grant leaves behind.
-/
def mismatched : Response × Server :=
  Aspectus.serve config mismatchedGrant mismatchedDraws refreshServer

def holdsTokens : Body → Bool
  | .userTokens _ => true
  | _ => false

/--
The token that is presented is usable, and its user is active.
-/
theorem refreshServer_token :
    ∃ t, refreshServer.refreshTokens.lookup (tokenHash 1) = some t
      ∧ rotatable refreshServer.now t = true ∧ storable t.userId = true
      ∧ ∃ u, refreshServer.users.lookup t.userId = some u ∧ u.isSuspended = false := by
  have h : (refreshServer.refreshTokens.lookup (tokenHash 1)).any (fun t =>
      rotatable refreshServer.now t && storable t.userId
        && (refreshServer.users.lookup t.userId).any (!·.isSuspended)) = true := by
    decide +kernel
  rcases (Option.any_eq_true _ _).mp h with ⟨t, ht, h⟩
  simp only [Bool.and_eq_true, Option.any_eq_true, Bool.not_eq_true'] at h
  exact ⟨t, ht, h.1.1, h.1.2, h.2⟩

theorem clientPasses {req : TokenRequest} {d : Draw} {s : Server} {clientId : String}
    (hid : req.clientId = some clientId) (hfault : d.fault = none)
    (hstorable : storable clientId = true)
    (h : (s.oauth2Clients.lookup clientId).any (fun client =>
      token.secretMatches config (req.clientSecret.getD "") (some client.clientSecretHash)) = true)
    : ClientPasses config req d s := by
  rcases (Option.any_eq_true _ _).mp h with ⟨client, hclient, hsecret⟩
  exact ⟨clientId, client, hid, hfault, hstorable, hclient, hsecret⟩

end Sample

open Sample in
theorem refresh_grant_consumption_mismatched :
    (Aspectus.serve config (refreshGrant 1) mismatchedDraws mismatched.2).1
      = unauthorized "Invalid or expired refresh_token" "/token" := by
  rcases refreshServer_token with ⟨t, ht, hrotatable, hstorable, _⟩
  have hconsumption := refresh_grant_consumption config refreshServer mismatchedGrant mismatchedDraws
    (issueTokens.refreshToken (raw 1)) t rfl rfl ht hrotatable
  have hclaims : Claims config mismatchedGrant (tokenHash 1) mismatchedDraws refreshServer :=
    ⟨clientPasses rfl rfl (storable_ofList (by decide)) (by decide +kernel), rfl, sha256_storable _⟩
  have hpasses : ClientPasses config (refreshGrant 1) (mismatchedDraws 0) mismatched.2 :=
    clientPasses rfl rfl (storable_ofList (by decide)) (by decide +kernel)
  exact ((hconsumption.2 hclaims).2 (refreshGrant 1) mismatchedDraws rfl rfl hpasses
    (fun _ _ => rfl) hstorable).1

open Sample in
/--
A client that presents the token of another client gets no tokens, but the token is revoked.
-/
theorem refresh_token_lost :
    ¬∀ req draws presented t, req.grantType = "refresh_token" → req.refreshToken = some presented →
      refreshServer.refreshTokens.lookup (config.sha256Text presented) = some t →
      rotatable refreshServer.now t = true →
      (∃ u, refreshServer.users.lookup t.userId = some u ∧ u.isSuspended = false) →
      (∀ tokens, (Aspectus.serve config req draws refreshServer).1.body ≠ .userTokens tokens) →
      (∃ t', (Aspectus.serve config req draws refreshServer).2.refreshTokens.lookup
          (config.sha256Text presented) = some t' ∧ t'.revokedAt = none)
        ∧ ∀ retry draws', retry.grantType = "refresh_token" → retry.refreshToken = some presented →
          retry.clientId = some t.clientId →
          Claims config retry (config.sha256Text presented) draws'
            (Aspectus.serve config req draws refreshServer).2 →
          ∀ tokenHash t', tokenHash ≠ config.sha256Text presented →
            refreshServer.refreshTokens.lookup tokenHash = some t' →
            (Aspectus.serve config retry draws'
              (Aspectus.serve config req draws refreshServer).2).2.refreshTokens.lookup tokenHash
                = some t' := by
  intro hclaim
  rcases refreshServer_token with ⟨t, ht, hrotatable, _, huser⟩
  have hchecks : holdsTokens mismatched.1.body = false
      ∧ (mismatched.2.refreshTokens.lookup (tokenHash 1)).any (fun t => t.revokedAt.isSome)
        = true := by
    decide +kernel
  rcases hchecks with ⟨hrefused, hrevoked⟩
  have hnone : ∀ tokens, mismatched.1.body ≠ .userTokens tokens := by
    intro tokens hbody
    rw [hbody] at hrefused
    cases hrefused
  rcases (hclaim mismatchedGrant mismatchedDraws (issueTokens.refreshToken (raw 1)) t rfl rfl ht
    hrotatable huser hnone).1 with ⟨t', ht', hunrevoked⟩
  rcases (Option.any_eq_true _ _).mp hrevoked with ⟨t'', ht'', hsome⟩
  have := ht'.symm.trans ht''
  injection this with this
  rw [← this, hunrevoked] at hsome
  cases hsome

end Aspectus
