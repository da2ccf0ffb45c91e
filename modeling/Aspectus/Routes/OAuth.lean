import Aspectus.Routes.IssueTokens

/-!
This module contains the OAuth endpoints: `/authorize`, `/oauth/token` with its two grants, and the
registration of clients.
-/

namespace Aspectus

open Interaction

structure AuthorizeRequest where
  email : String
  password : String
  tenantId : String
  clientId : String
  redirectUri : String
  codeChallenge : Option String
  codeChallengeMethod : Option String

structure TokenRequest where
  grantType : String
  code : Option String
  codeVerifier : Option String
  clientId : Option String
  clientSecret : Option String
  redirectUri : Option String
  refreshToken : Option String

def internalError (detail : String) : Response :=
  (ProblemDetails.internalError detail).intoResponse

def validationFailed (detail : String) : Response :=
  (ProblemDetails.validationFailed detail []).intoResponse

def unauthorized (detail inst : String) : Response :=
  (ProblemDetails.unauthorized detail inst).intoResponse

def authUnavailable : Response :=
  internalError "Authentication service temporarily unavailable"

def tokenUnavailable : Response :=
  internalError "Token service temporarily unavailable"

namespace authorize

/--
How long an authorization code is valid: 5 minutes.
-/
def codeLifetime : Int :=
  Instant.seconds 300

/--
Create a code for a user that was authenticated and is not suspended.
-/
def createCode (cfg : Config) (req : AuthorizeRequest) (userId : String) : App Response := do
  match ← App.host .random with
  | .error _ => return authUnavailable
  | .ok raw =>
    let code := cfg.sha256 raw
    let now ← App.host .now
    match ← App.code (.createCode code userId req.clientId req.redirectUri (now + codeLifetime)) with
    | .error _ => return authUnavailable
    | .ok () =>
      match req.codeChallenge with
      | some challenge =>
        -- The result of this statement is ignored.
        let _ ← App.code (.setChallenge challenge code)
        return ⟨200, .code code req.redirectUri⟩
      | none => return ⟨200, .code code req.redirectUri⟩

/--
Check the password and the suspension of the user.
-/
def authenticate (cfg : Config) (req : AuthorizeRequest) : App Response := do
  match ← App.user (.selectCredentials req.tenantId req.email) with
  | .error _ => return authUnavailable
  | .ok none => return unauthorized "Invalid credentials" "/authorize"
  | .ok (some (id, _, hash)) =>
    match cfg.verifyPassword req.password hash with
    | .ok true =>
      match ← App.user (.isSuspended id) with
      | .error _ => return authUnavailable
      | .ok true => return unauthorized "Account is suspended" "/authorize"
      | .ok false => createCode cfg req id
    | _ => return unauthorized "Invalid credentials" "/authorize"

end authorize

open authorize in
def authorize (cfg : Config) (req : AuthorizeRequest) : App Response := do
  match ← App.client (.validateRedirectUri req.clientId req.redirectUri) with
  | .error _ => return authUnavailable
  | .ok false => return validationFailed "Invalid client_id or redirect_uri"
  | .ok true =>
    if req.codeChallenge.isSome ∧ req.codeChallengeMethod ≠ some "S256" then
      return validationFailed "code_challenge_method must be S256 when code_challenge is provided"
    else
      authenticate cfg req

namespace token

/--
Whether the secret stored for a client, if there is one, is the given one.
-/
def secretMatches (cfg : Config) (secret : String) : Option (Option String) → Bool
  | none => false
  | some none => true
  | some (some storedHash) => storedHash = cfg.sha256Text secret

/--
Continue with `grant` if the client authenticates, this is how both grants begin.
-/
def withClient (cfg : Config) (req : TokenRequest) (grant : String → App Response) :
    App Response :=
  match req.clientId with
  | none => return validationFailed "client_id required"
  | some clientId => do
    match ← App.client (.selectSecretHash clientId) with
    | .error _ => return tokenUnavailable
    | .ok row =>
      if secretMatches cfg (req.clientSecret.getD "") row then
        grant clientId
      else
        return unauthorized "Invalid client_id or client_secret" "/token"

/--
The PKCE challenge a verifier is the answer to.
-/
def challengeOf (cfg : Config) (verifier : String) : String :=
  cfg.sha256Text verifier

/--
Enforce the verifier if and only if a challenge was stored with the code.
-/
def checkVerifier (cfg : Config) : Option String → Option String → Except Response Unit
  | some expectedChallenge, some verifier =>
    if expectedChallenge = challengeOf cfg verifier then
      .ok ()
    else
      .error (unauthorized "Invalid code_verifier" "/token")
  | some _, none => .error (unauthorized "code_verifier required (PKCE challenge was sent)" "/token")
  | none, some _ =>
    .error (unauthorized "code_verifier provided but no PKCE challenge was stored" "/token")
  | none, none => .ok ()

/--
Redeem a code that was claimed for the right client and redirect URI.
-/
def redeem (cfg : Config) (req : TokenRequest) (code userId clientId : String) : App Response := do
  match ← App.code (.selectChallenge code) with
  | .error _ => return tokenUnavailable
  | .ok challenge =>
    match checkVerifier cfg challenge.join req.codeVerifier with
    | .error response => return response
    | .ok () =>
      match ← App.user (.selectTenant userId) with
      | .error _ => return tokenUnavailable
      | .ok none => return internalError "User not found"
      | .ok (some tenantId) => issueTokens cfg userId tenantId clientId

/--
Claim the code and check that it was created for this client and redirect URI.
-/
def exchange (cfg : Config) (req : TokenRequest) (code requestClientId : String) :
    App Response := do
  match ← App.code (.exchangeCode code) with
  | .error _ => return tokenUnavailable
  | .ok none => return unauthorized "Invalid or expired code" "/token"
  | .ok (some (userId, clientId, storedRedirectUri)) =>
    if clientId ≠ requestClientId then
      return unauthorized "Invalid client_id" "/token"
    else if req.redirectUri.getD "" = "" then
      return validationFailed "redirect_uri required"
    else if req.redirectUri.getD "" ≠ storedRedirectUri then
      return unauthorized "redirect_uri mismatch" "/token"
    else
      redeem cfg req code userId clientId

def authorizationCode (cfg : Config) (req : TokenRequest) : App Response :=
  match req.code with
  | none => return validationFailed "code required"
  | some code => withClient cfg req (exchange cfg req code)

/--
Issue the successor of a refresh token that was claimed.
-/
def succeed (cfg : Config) (userId clientId : String) : App Response := do
  match ← App.user (.selectTenantAndSuspended userId) with
  | .error _ => return tokenUnavailable
  | .ok none => return internalError "User not found"
  | .ok (some (_, true)) => return unauthorized "Account is suspended" "/token"
  | .ok (some (tenantId, false)) => issueTokens cfg userId tenantId clientId

/--
Refuse a token that could not be claimed. If it was revoked before this is a replay attack, and all
tokens of the user are revoked.
-/
def refuse (hash : String) : App Response := do
  match ← App.refresh (.findByHashAny hash) with
  | .ok (some (userId, true)) =>
    let _ ← App.refresh (.revokeAllForUser userId)
    return unauthorized "Invalid or expired refresh_token" "/token"
  | _ => return unauthorized "Invalid or expired refresh_token" "/token"

/--
Claim the token and check that it was issued to this client.
-/
def rotate (cfg : Config) (hash requestClientId : String) : App Response := do
  match ← App.refresh (.rotate hash) with
  | .error _ => return tokenUnavailable
  | .ok none => refuse hash
  | .ok (some (userId, clientId, _)) =>
    if clientId ≠ requestClientId then
      return unauthorized "Invalid client_id" "/token"
    else
      succeed cfg userId clientId

def refreshToken (cfg : Config) (req : TokenRequest) : App Response :=
  match req.refreshToken with
  | none => return validationFailed "refresh_token required"
  | some token => withClient cfg req (rotate cfg (cfg.sha256Text token))

end token

def token (cfg : Config) (req : TokenRequest) : App Response :=
  match req.grantType with
  | "authorization_code" => token.authorizationCode cfg req
  | "refresh_token" => token.refreshToken cfg req
  | _ => return validationFailed "Unsupported grant_type"

structure CreateClientRequest where
  name : String
  redirectUris : List String

def createClient (cfg : Config) (req : CreateClientRequest) : App Response := do
  let id := "client_" ++ (← App.host .generateId)
  match ← App.host .random with
  | .error _ => return internalError "Failed to create client"
  | .ok raw =>
    let secret := Hex.encode raw
    match ← App.client (.create id req.name req.redirectUris (cfg.sha256Text secret)) with
    | .error _ => return internalError "Failed to create client"
    | .ok () => return ⟨201, .client id req.name secret⟩

end Aspectus
