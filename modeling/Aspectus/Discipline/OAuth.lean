import Aspectus.Discipline.Basic

/-!
This module contains the proofs that the OAuth endpoints follow the discipline.
-/

namespace Aspectus

open Interaction Prog

/--
A program that only calls quiet operations.
-/
abbrev Quiet {α : Type} (p : App α) : Prop :=
  p.Uses fun (o : Op) => o.isQuiet = true

theorem auditEvent_quiet (params : AuditAuthParams) : Quiet (auditEvent params) :=
  auditEvent_uses rfl rfl fun _ _ _ _ => rfl

theorem auditAuthEvent_quiet (tenantId userId action : String) (metadata : List (String × Json)) :
    Quiet (auditAuthEvent tenantId userId action metadata) := by
  apply auditEvent_quiet

theorem expand_quiet (userId : String) : Quiet (ScopeExpander.expand userId) :=
  expand_uses rfl rfl fun _ => rfl

variable {cfg : Config} {q : AuthRequest} {h : List (Event Api)}

/--
What follows a quiet program is entered with some quiet events added.
-/
theorem conforms_quiet_bind {α : Type} {p : App α} {f : α → App Response}
    (hp : Quiet p)
    (hf : ∀ new a, (∀ ev ∈ new, ev.op.isQuiet = true) →
      (f a).Conforms (Allowed cfg q) (Answered cfg q) (new ++ h))
    : (p >>= f).Conforms (Allowed cfg q) (Answered cfg q) h := by
  apply hp.conforms_bind
  . intro new o _ ho
    exact Allowed.of_isQuiet ho
  . exact hf

/--
The rule for a single quiet operation.
-/
theorem conforms_quiet {o : Op} {f : o.Res → App Response} (ho : o.isQuiet = true)
    (hf : ∀ r, (f r).Conforms (Allowed cfg q) (Answered cfg q) (⟨o, r⟩ :: h))
    : (perform (S := Api) o >>= f).Conforms (Allowed cfg q) (Answered cfg q) h :=
  conforms_perform_bind (Allowed.of_isQuiet ho) hf

theorem absent_isSign_append {new : List (Event Api)} (hnew : ∀ ev ∈ new, ev.op.isQuiet = true)
    (h' : Absent Op.isSign h) : Absent Op.isSign (new ++ h) :=
  h'.append fun ev hev => Op.isSign_of_isQuiet (hnew ev hev)

theorem absent_isCreate_append {new : List (Event Api)} (hnew : ∀ ev ∈ new, ev.op.isQuiet = true)
    (h' : Absent Op.isCreate h) : Absent Op.isCreate (new ++ h) :=
  h'.append fun ev hev => Op.isCreate_of_isQuiet (hnew ev hev)

/--
A JWT is only signed by requests that are authorized to issue one.
-/
theorem signWithTenantName_conforms {req : JwtSignRequest} {clientId : String}
    {f : Except CoreError String → App Response}
    (hauth : Authorized cfg h q req.sub req.tenantId clientId) (hsign : Absent Op.isSign h)
    (hf : ∀ new r, (∀ ev ∈ new, ev.op.isCreate = false) →
      (∀ token, r = .ok token → ∃ claims, Called new (.host (.encodeJwt claims)) (.ok token)
        ∧ claims.sub = req.sub ∧ claims.tenantId = req.tenantId) →
      (f r).Conforms (Allowed cfg q) (Answered cfg q) (new ++ h))
    : (JwtSigner.signWithTenantName req >>= f).Conforms (Allowed cfg q) (Answered cfg q) h := by
  rw [conforms_bind]
  unfold JwtSigner.signWithTenantName
  apply conforms_perform_bind (Allowed.of_isQuiet rfl)
  intro now
  apply conforms_perform_bind (Allowed.of_isQuiet rfl)
  intro jti
  apply conforms_perform_bind
  . exact ⟨⟨clientId, (hauth.cons _).cons _⟩, (hsign.cons rfl).cons rfl⟩
  . intro r
    cases r with
    | error e =>
      apply hf [_, _, _]
      . simp [Op.isCreate]
      . simp
    | ok token =>
      apply hf [_, _, _]
      . simp [Op.isCreate]
      . intro token' htoken
        injection htoken with htoken
        subst htoken
        exact ⟨_, Called.head _ _ _, rfl, rfl⟩

open issueTokens in
/--
Tokens are only issued by requests that are authorized to, and only once.
-/
theorem issueTokens_conforms {userId tenantId clientId : String}
    (hauth : Authorized cfg h q userId tenantId clientId) (hsign : Absent Op.isSign h)
    (hcreate : Absent Op.isCreate h)
    : (issueTokens cfg userId tenantId clientId).Conforms (Allowed cfg q) (Answered cfg q) h := by
  unfold issueTokens
  dsimp only
  apply conforms_quiet_bind (expand_quiet userId)
  intro new scopes hnew
  replace hauth := hauth.append new
  replace hsign := absent_isSign_append hnew hsign
  replace hcreate := absent_isCreate_append hnew hcreate
  apply conforms_quiet rfl
  intro tenantRow
  apply conforms_quiet rfl
  intro userInfo
  apply signWithTenantName_conforms ((hauth.cons _).cons _) ((hsign.cons rfl).cons rfl)
  intro signed r hsigned htoken
  cases r with
  | error e => trivial
  | ok access =>
    rcases htoken access rfl with ⟨claims, hclaims, hsub, htenant⟩
    apply conforms_quiet rfl
    rintro (e | raw)
    . trivial
    . apply conforms_quiet rfl
      intro now
      apply conforms_perform_bind
      . constructor
        . exact ⟨tenantId, ((((hauth.cons _).cons _).append signed).cons _).cons _⟩
        . exact ⟨raw, (Called.head _ _ _).cons _, rfl⟩
        . exact ((((hcreate.cons rfl).cons rfl).append hsigned).cons rfl).cons rfl
      . rintro (e | _)
        . trivial
        . constructor
          . refine ⟨clientId, _, ?_, Called.head _ _ _⟩
            exact (((((hauth.cons _).cons _).append signed).cons _).cons _).cons _
          . exact ⟨claims, (((hclaims.append_left _).cons _).cons _).cons _, hsub, htenant⟩

namespace authorize

theorem createCode_conforms {req : AuthorizeRequest} {userId tenantId passwordHash : String}
    (hcredentials : Called h (.user (.selectCredentials req.tenantId req.email))
      (.ok (some (userId, tenantId, passwordHash))))
    (hpassword : cfg.verifyPassword req.password passwordHash = .ok true)
    (hregistered : Called h (.client (.validateRedirectUri req.clientId req.redirectUri)) (.ok true))
    (hactive : Called h (.user (.isSuspended userId)) (.ok false)) (hcode : Absent Op.isCreateCode h)
    : (createCode cfg req userId).Conforms (Allowed cfg (.authorize req))
        (Answered cfg (.authorize req)) h := by
  unfold createCode
  apply conforms_quiet rfl
  rintro (e | raw)
  . trivial
  . apply conforms_quiet rfl
    intro now
    apply conforms_perform_bind
    . constructor
      . exact ⟨req, tenantId, passwordHash, rfl, rfl, rfl, (hcredentials.cons _).cons _, hpassword⟩
      . exact (hregistered.cons _).cons _
      . exact (hactive.cons _).cons _
      . exact ⟨raw, (Called.head _ _ _).cons _, rfl⟩
      . exact (hcode.cons rfl).cons rfl
    . rintro (e | _)
      . trivial
      . dsimp only
        split
        . next challenge hchallenge =>
          apply conforms_perform_bind
          . exact ⟨req, userId, _, rfl, hchallenge, Called.head _ _ _⟩
          . intro r
            refine ⟨req, userId, _, rfl, rfl, (Called.head _ _ _).cons _, ?_⟩
            intro challenge' hchallenge'
            rw [hchallenge] at hchallenge'
            injection hchallenge' with hchallenge'
            subst hchallenge'
            exact ⟨r, Called.head _ _ _⟩
        . next hnone =>
          refine ⟨req, userId, _, rfl, rfl, Called.head _ _ _, ?_⟩
          simp [hnone]

theorem authenticate_conforms {req : AuthorizeRequest}
    (hregistered : Called h (.client (.validateRedirectUri req.clientId req.redirectUri)) (.ok true))
    (hcode : Absent Op.isCreateCode h)
    : (authenticate cfg req).Conforms (Allowed cfg (.authorize req))
        (Answered cfg (.authorize req)) h := by
  unfold authenticate
  apply conforms_quiet rfl
  rintro (e | _ | ⟨id, tenantId, hash⟩)
  . trivial
  . trivial
  . dsimp only
    split
    . next hpassword =>
      apply conforms_quiet rfl
      rintro (e | suspended)
      . trivial
      . cases suspended with
        | true => trivial
        | false =>
          exact createCode_conforms ((Called.head _ _ _).cons _) hpassword
            ((hregistered.cons _).cons _) (Called.head _ _ _) ((hcode.cons rfl).cons rfl)
    . trivial

end authorize

theorem authorize_conforms (cfg : Config) (req : AuthorizeRequest) :
    (authorize cfg req).Conforms (Allowed cfg (.authorize req)) (Answered cfg (.authorize req)) [] := by
  unfold authorize
  apply conforms_quiet rfl
  rintro (e | valid)
  . trivial
  . cases valid with
    | false => trivial
    | true =>
      dsimp only
      split
      . trivial
      . exact authorize.authenticate_conforms (Called.head _ _ _) (Absent.nil.cons rfl)

namespace token

variable {req : TokenRequest}

/--
A grant is only entered once the client has authenticated.
-/
theorem withClient_conforms {grant : String → App Response}
    (hgrant : ∀ clientId row, Authenticated cfg req
      [⟨.client (.selectSecretHash clientId), row⟩] clientId →
      (grant clientId).Conforms (Allowed cfg (.token req)) (Answered cfg (.token req))
        [⟨.client (.selectSecretHash clientId), row⟩])
    : (withClient cfg req grant).Conforms (Allowed cfg (.token req)) (Answered cfg (.token req))
        [] := by
  unfold withClient
  split
  . trivial
  . next clientId hid =>
    apply conforms_quiet rfl
    rintro (e | row)
    . trivial
    . dsimp only
      split
      . next hsecret =>
        exact hgrant clientId (.ok row) ⟨hid, row, Called.head _ _ _, hsecret⟩
      . trivial

theorem redeem_conforms {code userId clientId redirectUri : String}
    (hgrant : req.grantType = "authorization_code") (hcode : req.code = some code)
    (hclient : Authenticated cfg req h clientId)
    (hexchange : Called h (.code (.exchangeCode code)) (.ok (some (userId, clientId, redirectUri))))
    (huri : req.redirectUri = some redirectUri) (hsign : Absent Op.isSign h)
    (hcreate : Absent Op.isCreate h)
    : (redeem cfg req code userId clientId).Conforms (Allowed cfg (.token req))
        (Answered cfg (.token req)) h := by
  unfold redeem
  apply conforms_perform_bind
  . exact ⟨_, hexchange⟩
  rintro (e | challenge)
  . trivial
  . dsimp only
    split
    . next response hverifier =>
      -- Every refusal of the verifier is a problem.
      unfold checkVerifier at hverifier
      split at hverifier
      . split at hverifier
        . contradiction
        . injection hverifier with hverifier
          subst hverifier
          trivial
      . injection hverifier with hverifier
        subst hverifier
        trivial
      . injection hverifier with hverifier
        subst hverifier
        trivial
      . contradiction
    . next hverifier =>
      apply conforms_quiet rfl
      rintro (e | _ | tenantId)
      . trivial
      . trivial
      . apply issueTokens_conforms
        . exact .code hgrant hcode (hclient.append [_, _]) ((hexchange.cons _).cons _) huri
            ((Called.head _ _ _).cons _) hverifier (Called.head _ _ _)
        . exact (hsign.cons rfl).cons rfl
        . exact (hcreate.cons rfl).cons rfl

theorem exchange_conforms {code clientId : String}
    (hgrant : req.grantType = "authorization_code") (hcode : req.code = some code)
    (hclient : Authenticated cfg req h clientId) (hsign : Absent Op.isSign h)
    (hcreate : Absent Op.isCreate h) (hexchange : Absent Op.isExchange h)
    : (exchange cfg req code clientId).Conforms (Allowed cfg (.token req))
        (Answered cfg (.token req)) h := by
  unfold exchange
  apply conforms_perform_bind
  . exact ⟨⟨req, clientId, rfl, hgrant, hcode, hclient⟩, hexchange⟩
  . rintro (e | _ | ⟨userId, storedClientId, storedRedirectUri⟩)
    . trivial
    . trivial
    . dsimp only
      split
      . trivial
      . next hid =>
        split
        . trivial
        . next hempty =>
          split
          . trivial
          . next huri =>
            simp only [ne_eq, Decidable.not_not] at hid huri
            subst hid
            have huri : req.redirectUri = some storedRedirectUri := by
              cases hr : req.redirectUri with
              | none => simp [hr] at hempty
              | some uri =>
                rw [hr] at huri
                exact congrArg some huri
            exact redeem_conforms hgrant hcode (hclient.append [_]) (Called.head _ _ _) huri
              (hsign.cons rfl) (hcreate.cons rfl)

theorem succeed_conforms {presented userId clientId tokenHash : String}
    (hgrant : req.grantType = "refresh_token") (htoken : req.refreshToken = some presented)
    (hclient : Authenticated cfg req h clientId)
    (hrotate : Called h (.refresh (.rotate (cfg.sha256Text presented)))
      (.ok (some (userId, clientId, tokenHash))))
    (hsign : Absent Op.isSign h) (hcreate : Absent Op.isCreate h)
    : (succeed cfg userId clientId).Conforms (Allowed cfg (.token req)) (Answered cfg (.token req))
        h := by
  unfold succeed
  apply conforms_quiet rfl
  rintro (e | _ | ⟨tenantId, suspended⟩)
  . trivial
  . trivial
  . cases suspended with
    | true => trivial
    | false =>
      apply issueTokens_conforms
      . exact .refresh hgrant htoken (hclient.append [_]) (hrotate.cons _) (Called.head _ _ _)
      . exact hsign.cons rfl
      . exact hcreate.cons rfl

theorem refuse_conforms {tokenHash : String} (hpresents : Presents cfg (.token req) tokenHash)
    : (refuse tokenHash).Conforms (Allowed cfg (.token req)) (Answered cfg (.token req)) h := by
  unfold refuse
  apply conforms_quiet rfl
  rintro (e | _ | ⟨userId, revoked⟩)
  . trivial
  . trivial
  . cases revoked with
    | false => trivial
    | true =>
      apply conforms_perform_bind
      . exact ⟨tokenHash, hpresents, Called.head _ _ _⟩
      . intro n
        trivial

theorem rotate_conforms {presented clientId : String} (hgrant : req.grantType = "refresh_token")
    (htoken : req.refreshToken = some presented) (hclient : Authenticated cfg req h clientId)
    (hsign : Absent Op.isSign h) (hcreate : Absent Op.isCreate h) (hrotate : Absent Op.isRotate h)
    : (rotate cfg (cfg.sha256Text presented) clientId).Conforms (Allowed cfg (.token req))
        (Answered cfg (.token req)) h := by
  have hpresents : Presents cfg (.token req) (cfg.sha256Text presented) :=
    ⟨req, presented, rfl, hgrant, htoken, rfl⟩
  unfold rotate
  apply conforms_perform_bind
  . exact ⟨.inl hpresents, hrotate⟩
  . rintro (e | _ | ⟨userId, storedClientId, tokenHash⟩)
    . trivial
    . exact refuse_conforms hpresents
    . dsimp only
      split
      . trivial
      . next hid =>
        simp only [ne_eq, Decidable.not_not] at hid
        subst hid
        exact succeed_conforms hgrant htoken (hclient.append [_]) (Called.head _ _ _)
          (hsign.cons rfl) (hcreate.cons rfl)

theorem authorizationCode_conforms (hgrant : req.grantType = "authorization_code") :
    (authorizationCode cfg req).Conforms (Allowed cfg (.token req)) (Answered cfg (.token req))
      [] := by
  unfold authorizationCode
  split
  . trivial
  . next code hcode =>
    apply withClient_conforms
    intro clientId row hclient
    exact exchange_conforms hgrant hcode hclient (Absent.nil.cons rfl) (Absent.nil.cons rfl)
      (Absent.nil.cons rfl)

theorem refreshToken_conforms (hgrant : req.grantType = "refresh_token") :
    (refreshToken cfg req).Conforms (Allowed cfg (.token req)) (Answered cfg (.token req)) [] := by
  unfold refreshToken
  split
  . trivial
  . next presented htoken =>
    apply withClient_conforms
    intro clientId row hclient
    exact rotate_conforms hgrant htoken hclient (Absent.nil.cons rfl) (Absent.nil.cons rfl)
      (Absent.nil.cons rfl)

end token

theorem token_conforms (cfg : Config) (req : TokenRequest) :
    (token cfg req).Conforms (Allowed cfg (.token req)) (Answered cfg (.token req)) [] := by
  unfold token
  split
  . next hgrant => exact token.authorizationCode_conforms hgrant
  . next hgrant => exact token.refreshToken_conforms hgrant
  . trivial

theorem createClient_conforms (cfg : Config) (req : CreateClientRequest) :
    (createClient cfg req).Conforms (Allowed cfg (.createClient req))
      (Answered cfg (.createClient req)) [] := by
  unfold createClient
  apply conforms_quiet rfl
  intro id
  apply conforms_quiet rfl
  rintro (e | raw)
  . trivial
  . apply conforms_quiet rfl
    rintro (e | _)
    . trivial
    . trivial

end Aspectus
