import Aspectus.Discipline.Calls

/-!
This module contains the discipline that the handlers of the authentication service follow: what a
request has to have done before it may issue a credential, claim one, or change a user.
-/

namespace Aspectus

open Interaction

/--
The events `h` of a request contain that the operation `o` was called and gave the answer `r`.
-/
def Called (h : List (Event Api)) (o : Op) (r : o.Res) : Prop :=
  (⟨o, r⟩ : Event Api) ∈ h

theorem Called.append {h : List (Event Api)} {o : Op} {r : o.Res} (hc : Called h o r)
    (new : List (Event Api)) : Called (new ++ h) o r :=
  List.mem_append_right _ hc

theorem Called.append_left {new : List (Event Api)} {o : Op} {r : o.Res} (hc : Called new o r)
    (h : List (Event Api)) : Called (new ++ h) o r :=
  List.mem_append_left _ hc

theorem Called.cons {h : List (Event Api)} {o : Op} {r : o.Res} (hc : Called h o r)
    (ev : Event Api) : Called (ev :: h) o r :=
  List.mem_cons_of_mem _ hc

theorem Called.head (h : List (Event Api)) (o : Op) (r : o.Res) : Called (⟨o, r⟩ :: h) o r :=
  List.mem_cons_self

/--
The events `h` of a request contain no call of the kind `p`.
-/
def Absent (p : Op → Bool) (h : List (Event Api)) : Prop :=
  ∀ ev ∈ h, p ev.op = false

namespace Absent

variable {p : Op → Bool} {h : List (Event Api)}

@[simp]
theorem nil : Absent p [] := by
  simp [Absent]

theorem cons {ev : Event Api} (hev : p ev.op = false) (ha : Absent p h) : Absent p (ev :: h) :=
  List.forall_mem_cons.mpr ⟨hev, ha⟩

theorem append {new : List (Event Api)} (hnew : ∀ ev ∈ new, p ev.op = false)
    (ha : Absent p h) : Absent p (new ++ h) :=
  List.forall_mem_append.mpr ⟨hnew, ha⟩

end Absent

namespace Op

def isSign : Op → Bool
  | .host (.encodeJwt ..) => true
  | _ => false

def isCreate : Op → Bool
  | .refresh (.create ..) => true
  | _ => false

def isRotate : Op → Bool
  | .refresh (.rotate ..) => true
  | _ => false

def isExchange : Op → Bool
  | .code (.exchangeCode ..) => true
  | _ => false

def isCreateCode : Op → Bool
  | .code (.createCode ..) => true
  | _ => false

/--
The operations that neither issue nor claim a credential nor change what a user may do.
-/
def isQuiet : Op → Bool
  | .user (.insert ..) => false
  | .user (.setPassword ..) => false
  | .user (.setSuspended ..) => false
  | .code _ => false
  | .refresh (.create ..) => false
  | .refresh (.rotate ..) => false
  | .refresh (.revokeAllForUser ..) => false
  | .key _ => false
  | .host (.encodeJwt ..) => false
  | _ => true

theorem isSign_of_isQuiet {o : Op} (h : o.isQuiet = true) : o.isSign = false := by
  unfold isSign
  split
  . exact absurd h (by simp [isQuiet])
  . rfl

theorem isCreate_of_isQuiet {o : Op} (h : o.isQuiet = true) : o.isCreate = false := by
  unfold isCreate
  split
  . exact absurd h (by simp [isQuiet])
  . rfl

end Op

/--
The client of a token request authenticates as `clientId`.
-/
def Authenticated (cfg : Config) (req : TokenRequest) (h : List (Event Api)) (clientId : String) :
    Prop :=
  req.clientId = some clientId ∧ ∃ row, Called h (.client (.selectSecretHash clientId)) (.ok row)
    ∧ token.secretMatches cfg (req.clientSecret.getD "") row = true

/--
A request `q` with the events `h` is authorized to issue tokens for a user and a client.
-/
inductive Authorized (cfg : Config) (h : List (Event Api)) :
    AuthRequest → (userId tenantId clientId : String) → Prop where
  | login {forwardedFor : Option String} {req : LoginRequest} {row : LoginRow}
    (hrow : Called h (.user (.selectLogin req.tenantId req.email)) (.ok (some row)))
    (hpassword : cfg.verifyPassword req.password row.passwordHash = .ok true)
    (hsuspended : row.isSuspended = false)
    : Authorized cfg h (.login forwardedFor req) row.id row.tenantId req.clientId
  | register {forwardedFor : Option String} {reg : RegisterRequest} {userId passwordHash : String}
    {user : User}
    (hinsert : Called h (.user (.insert userId reg.tenantId reg.email passwordHash reg.displayName))
      (.ok user))
    : Authorized cfg h (.register forwardedFor reg) userId reg.tenantId reg.clientId
  | code {req : TokenRequest} {code userId tenantId clientId redirectUri : String}
    {challenge : Option (Option String)} (hgrant : req.grantType = "authorization_code")
    (hcode : req.code = some code) (hclient : Authenticated cfg req h clientId)
    (hexchange : Called h (.code (.exchangeCode code)) (.ok (some (userId, clientId, redirectUri))))
    (huri : req.redirectUri = some redirectUri)
    (hchallenge : Called h (.code (.selectChallenge code)) (.ok challenge))
    (hverifier : token.checkVerifier cfg challenge.join req.codeVerifier = .ok ())
    (htenant : Called h (.user (.selectTenant userId)) (.ok (some tenantId)))
    : Authorized cfg h (.token req) userId tenantId clientId
  | refresh {req : TokenRequest} {presented userId tenantId clientId tokenHash : String}
    (hgrant : req.grantType = "refresh_token") (htoken : req.refreshToken = some presented)
    (hclient : Authenticated cfg req h clientId)
    (hrotate : Called h (.refresh (.rotate (cfg.sha256Text presented)))
      (.ok (some (userId, clientId, tokenHash))))
    (htenant : Called h (.user (.selectTenantAndSuspended userId)) (.ok (some (tenantId, false))))
    : Authorized cfg h (.token req) userId tenantId clientId

theorem Authenticated.append {cfg : Config} {req : TokenRequest} {h : List (Event Api)}
    {clientId : String} (ha : Authenticated cfg req h clientId) (new : List (Event Api)) :
    Authenticated cfg req (new ++ h) clientId := by
  rcases ha with ⟨hid, row, hrow, hsecret⟩
  exact ⟨hid, row, hrow.append new, hsecret⟩

theorem Authorized.append {cfg : Config} {h : List (Event Api)} {q : AuthRequest}
    {userId tenantId clientId : String} (ha : Authorized cfg h q userId tenantId clientId)
    (new : List (Event Api)) : Authorized cfg (new ++ h) q userId tenantId clientId := by
  cases ha with
  | login hrow hpassword hsuspended => exact .login (hrow.append new) hpassword hsuspended
  | register hinsert => exact .register (hinsert.append new)
  | code hgrant hcode hclient hexchange huri hchallenge hverifier htenant =>
    exact .code hgrant hcode (hclient.append new) (hexchange.append new) huri
      (hchallenge.append new) hverifier (htenant.append new)
  | refresh hgrant htoken hclient hrotate htenant =>
    exact .refresh hgrant htoken (hclient.append new) (hrotate.append new) (htenant.append new)

theorem Authorized.cons {cfg : Config} {h : List (Event Api)} {q : AuthRequest}
    {userId tenantId clientId : String} (ha : Authorized cfg h q userId tenantId clientId)
    (ev : Event Api) : Authorized cfg (ev :: h) q userId tenantId clientId :=
  ha.append [ev]

/--
The request may sign a JWT with these claims.
-/
structure MaySign (cfg : Config) (q : AuthRequest) (h : List (Event Api)) (claims : JwtClaims) :
    Prop where
  authorized : ∃ clientId, Authorized cfg h q claims.sub claims.tenantId clientId
  first : Absent Op.isSign h

/--
The request may create a refresh token that is stored under `tokenHash`.
-/
structure MayCreate (cfg : Config) (q : AuthRequest) (h : List (Event Api))
    (tokenHash userId clientId : String) : Prop where
  authorized : ∃ tenantId, Authorized cfg h q userId tenantId clientId
  drawn : ∃ raw, Called h (.host .random) (.ok raw)
    ∧ tokenHash = cfg.sha256Text (issueTokens.refreshToken raw)
  first : Absent Op.isCreate h

/--
The request may create an authorization code.
-/
structure MayCreateCode (cfg : Config) (q : AuthRequest) (h : List (Event Api))
    (code userId clientId redirectUri : String) : Prop where
  request : ∃ req tenantId passwordHash, q = .authorize req ∧ clientId = req.clientId
    ∧ redirectUri = req.redirectUri
    ∧ Called h (.user (.selectCredentials req.tenantId req.email))
      (.ok (some (userId, tenantId, passwordHash)))
    ∧ cfg.verifyPassword req.password passwordHash = .ok true
  registered : Called h (.client (.validateRedirectUri clientId redirectUri)) (.ok true)
  active : Called h (.user (.isSuspended userId)) (.ok false)
  drawn : ∃ raw, Called h (.host .random) (.ok raw) ∧ code = cfg.sha256 raw
  first : Absent Op.isCreateCode h

/--
The request may store a challenge with an authorization code: it carried the challenge and has just
created the code.
-/
def MaySetChallenge (q : AuthRequest) (h : List (Event Api)) (challenge code : String) : Prop :=
  ∃ req userId expiresAt, q = .authorize req ∧ req.codeChallenge = some challenge
    ∧ Called h (.code (.createCode code userId req.clientId req.redirectUri expiresAt)) (.ok ())

/--
The request may claim an authorization code.
-/
structure MayExchange (cfg : Config) (q : AuthRequest) (h : List (Event Api)) (code : String) :
    Prop where
  request : ∃ req clientId, q = .token req ∧ req.grantType = "authorization_code"
    ∧ req.code = some code ∧ Authenticated cfg req h clientId
  first : Absent Op.isExchange h

/--
The request may read the challenge of a code: it has claimed the code.
-/
def MayReadChallenge (h : List (Event Api)) (code : String) : Prop :=
  ∃ row, Called h (.code (.exchangeCode code)) (.ok (some row))

/--
The request is a refresh grant that presents the token with this hash.
-/
def Presents (cfg : Config) (q : AuthRequest) (tokenHash : String) : Prop :=
  ∃ req presented, q = .token req ∧ req.grantType = "refresh_token"
    ∧ req.refreshToken = some presented ∧ tokenHash = cfg.sha256Text presented

/--
The request is a logout with the token with this hash.
-/
def LogsOut (cfg : Config) (q : AuthRequest) (tokenHash : String) : Prop :=
  ∃ req, q = .logout req ∧ tokenHash = cfg.sha256Text req.refreshToken

structure MayRotate (cfg : Config) (q : AuthRequest) (h : List (Event Api)) (tokenHash : String) :
    Prop where
  request : Presents cfg q tokenHash ∨ LogsOut cfg q tokenHash
  first : Absent Op.isRotate h

/--
The request may revoke all refresh tokens of a user: it has found the token it presents revoked.
-/
def MayRevokeAll (cfg : Config) (q : AuthRequest) (h : List (Event Api)) (userId : String) : Prop :=
  ∃ tokenHash, Presents cfg q tokenHash
    ∧ Called h (.refresh (.findByHashAny tokenHash)) (.ok (some (userId, true)))

/--
What a request `q` may do after the events `h`.
-/
def Allowed (cfg : Config) (q : AuthRequest) (h : List (Event Api)) : Op → Prop
  | .host (.encodeJwt claims) => MaySign cfg q h claims
  | .refresh (.create tokenHash userId clientId _) => MayCreate cfg q h tokenHash userId clientId
  | .refresh (.rotate tokenHash) => MayRotate cfg q h tokenHash
  | .refresh (.revokeAllForUser userId) => MayRevokeAll cfg q h userId
  | .code (.createCode code userId clientId redirectUri _) =>
    MayCreateCode cfg q h code userId clientId redirectUri
  | .code (.setChallenge challenge code) => MaySetChallenge q h challenge code
  | .code (.exchangeCode code) => MayExchange cfg q h code
  | .code (.selectChallenge code) => MayReadChallenge h code
  | .user (.insert _ tenantId email passwordHash displayName) =>
    ∃ forwardedFor reg, q = .register forwardedFor reg ∧ tenantId = reg.tenantId
      ∧ email = reg.email ∧ displayName = reg.displayName
      ∧ Called h (.host (.hashPassword reg.password)) (.ok passwordHash)
  | .user (.setPassword _ passwordHash) =>
    ∃ password, Called h (.host (.hashPassword password)) (.ok passwordHash)
  | .user (.setSuspended id suspended) => q = .suspend id suspended
  | .key _ => False
  | _ => True

/--
The tokens in a response are the ones that the request has issued.
-/
structure Issued (cfg : Config) (q : AuthRequest) (h : List (Event Api)) (t : UserTokens) : Prop where
  authorized : ∃ clientId expiresAt, Authorized cfg h q t.user.id t.tenant.id clientId
    ∧ Called h (.refresh (.create (cfg.sha256Text t.refreshToken) t.user.id clientId expiresAt))
      (.ok ())
  signed : ∃ claims, Called h (.host (.encodeJwt claims)) (.ok t.accessToken)
    ∧ claims.sub = t.user.id ∧ claims.tenantId = t.tenant.id

/--
The code in a response is the one that the request has created, and the challenge the request
carried was at least tried to be stored with it.
-/
def CodeCreated (q : AuthRequest) (h : List (Event Api)) (code redirectUri : String) : Prop :=
  ∃ req userId expiresAt, q = .authorize req ∧ redirectUri = req.redirectUri
    ∧ Called h (.code (.createCode code userId req.clientId req.redirectUri expiresAt)) (.ok ())
    ∧ ∀ challenge, req.codeChallenge = some challenge →
      ∃ r, Called h (.code (.setChallenge challenge code)) r

/--
What a request `q` may answer after the events `h`.
-/
def Answered (cfg : Config) (q : AuthRequest) (h : List (Event Api)) (r : Response) : Prop :=
  match r.body with
  | .userTokens t => Issued cfg q h t
  | .code code redirectUri => CodeCreated q h code redirectUri
  | _ => True

theorem Allowed.of_isQuiet {cfg : Config} {q : AuthRequest} {h : List (Event Api)} {o : Op}
    (ho : o.isQuiet = true) : Allowed cfg q h o := by
  unfold Allowed
  split
  all_goals trivial

/--
Operations on the host and the audit log.
-/
def Op.isAside : Op → Bool
  | .host _ => true
  | .auditAppend .. => true
  | _ => false

theorem auditEvent_aside (params : AuditAuthParams) :
    (auditEvent params).Uses fun (o : Op) => o.isAside = true :=
  auditEvent_uses rfl rfl fun _ _ _ _ => rfl

end Aspectus
