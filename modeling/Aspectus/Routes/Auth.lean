import Aspectus.Routes.OAuth

/-!
This module contains the endpoints for login pages: `/login`, `/register`, `/logout`,
`/forgot-password` and `/reset-password`.
-/

namespace Aspectus

open Interaction

structure LoginRequest where
  email : String
  password : String
  tenantId : String
  clientId : String

namespace login

def locked : Response :=
  unauthorized "Account is temporarily locked due to too many failed login attempts" "/login"

def invalidCredentials : Response :=
  (ProblemDetails.withCodeInstance .invalidCredentials "Invalid email or password"
    "/login").intoResponse

/--
Whether the account is locked at `now`.
-/
def isLocked (row : LoginRow) (now : Instant) : Bool :=
  match row.lockedUntil with
  | some lockedUntil => now < lockedUntil
  | none => false

def blocked (row : LoginRow) (ip : String) : App Response := do
  auditAuthEvent row.tenantId row.id "user.login_blocked" [
    ("reason", .str "account_locked"),
    ("locked_until", (row.lockedUntil.map Json.time).getD .null),
    ("failed_login_attempts", .num row.failedLoginAttempts),
    ("ip", .str ip)
  ]
  return locked

/--
Count a wrong password, which may lock the account.
-/
def failed (cfg : Config) (row : LoginRow) (ip : String) : App Response := do
  match ← App.user (.recordFailedLogin row.id cfg.lockout.threshold cfg.lockout.durationSecs) with
  | .error _ => return authUnavailable
  | .ok (attempts, lockedUntil) =>
    auditAuthEvent row.tenantId row.id "user.login_failed" [
      ("failed_login_attempts", .num attempts),
      ("ip", .str ip)
    ]
    if lockedUntil.isSome then
      return locked
    else
      return invalidCredentials

/--
Log the user in unless it is suspended.
-/
def succeed (cfg : Config) (row : LoginRow) (clientId ip : String) : App Response := do
  let _ ← App.user (.clearFailedLogins row.id)
  if row.isSuspended then
    auditAuthEvent row.tenantId row.id "user.login_blocked" [
      ("reason", .str "account_suspended"),
      ("ip", .str ip)
    ]
    return unauthorized "Account is suspended" "/login"
  else
    let _ ← App.user (.updateLastSignIn row.id)
    auditAuthEvent row.tenantId row.id "user.login" [
      ("ip", .str ip),
      ("client_id", .str clientId)
    ]
    issueTokens cfg row.id row.tenantId clientId

/--
Check the password of an account that is not locked.
-/
def checkPassword (cfg : Config) (req : LoginRequest) (row : LoginRow) (ip : String) :
    App Response :=
  match cfg.verifyPassword req.password row.passwordHash with
  | .ok true => succeed cfg row req.clientId ip
  | _ => failed cfg row ip

end login

open login in
def login (cfg : Config) (forwardedFor : Option String) (req : LoginRequest) : App Response := do
  let ip := clientIp forwardedFor
  match Project.parse req.clientId with
  | none => return validationFailed ("Unknown project: " ++ req.clientId)
  | some _ =>
    match ← App.user (.selectLogin req.tenantId req.email) with
    | .error _ => return authUnavailable
    | .ok none => return invalidCredentials
    | .ok (some row) =>
      -- The clock is only read if the account was locked at some point.
      match row.lockedUntil with
      | some _ =>
        let now ← App.host .now
        if isLocked row now then
          blocked row ip
        else
          checkPassword cfg req row ip
      | none => checkPassword cfg req row ip

structure RegisterRequest where
  email : String
  password : String
  displayName : Option String
  tenantId : String
  clientId : String

namespace register

def validEmail (email : String) : Bool :=
  contains email '@' && 5 ≤ byteLength email

/--
Give the new user the default role, failures are not fatal.
-/
def assignDefaultRole (userId : String) : App Unit := do
  match (← App.role .selectDefault).toOption.join with
  | some roleId =>
    let id ← App.host .generateId
    match ← App.role (.assignDefault id userId roleId) with
    | .ok () => ScopeExpander.invalidate userId
    | .error _ => return ()
  | none => return ()

def createUser (cfg : Config) (ip : String) (reg : RegisterRequest) : App Response := do
  match ← App.host (.hashPassword reg.password) with
  | .error _ => return internalError "Failed to process registration"
  | .ok passwordHash =>
    let userId ← App.host .generateId
    match ← App.user (.insert userId reg.tenantId reg.email passwordHash reg.displayName) with
    | .error _ => return internalError "Failed to create account"
    | .ok _ =>
      assignDefaultRole userId
      auditAuthEvent reg.tenantId userId "user.registered" [
        ("ip", .str ip),
        ("email", .str reg.email)
      ]
      issueTokens cfg userId reg.tenantId reg.clientId

def tenantMissing (tenantId : String) : Response :=
  (ProblemDetails.notFound ("Tenant '" ++ tenantId ++ "' does not exist. "
    ++ "In production, ask an admin to create the tenant via `POST /tenants` "
    ++ "(Service Token auth) before creating users.")).intoResponse

/--
Refuse emails that are taken in the tenant and tenants that do not exist.
-/
def checkDatabase (cfg : Config) (ip : String) (reg : RegisterRequest) : App Response := do
  match ← App.user (.existsEmail reg.tenantId reg.email) with
  | .error _ => return authUnavailable
  | .ok true =>
    return (ProblemDetails.withCodeErrors .emailAlreadyExists "Email is already registered"
      []).intoResponse
  | .ok false =>
    match ← App.tenant (.exists reg.tenantId) with
    | .error _ => return authUnavailable
    | .ok false => return tenantMissing reg.tenantId
    | .ok true => createUser cfg ip reg

end register

open register in
def register (cfg : Config) (forwardedFor : Option String) (reg : RegisterRequest) :
    App Response := do
  let ip := clientIp forwardedFor
  if !cfg.registrationEnabled then
    return (ProblemDetails.forbidden "Public registration is disabled").intoResponse
  else
    match Project.parse reg.clientId with
    | none => return validationFailed ("Unknown project: " ++ reg.clientId)
    | some _ =>
      if !validEmail reg.email then
        return (ProblemDetails.withCodeErrors .invalidEmailFormat "Invalid email address"
          []).intoResponse
      else
        match cfg.passwordPolicy.validate reg.password with
        | .error msg => return (ProblemDetails.withCodeErrors .passwordTooShort msg []).intoResponse
        | .ok () => checkDatabase cfg ip reg

structure LogoutRequest where
  refreshToken : String
  accessToken : Option String

def logout (cfg : Config) (req : LogoutRequest) : App Response := do
  -- A failure of this statement is only logged.
  let _ ← App.refresh (.rotate (cfg.sha256Text req.refreshToken))
  match req.accessToken with
  | some accessToken =>
    if startsWith accessToken "eyJ" then
      let _ ← JwtVerifier.revoke cfg accessToken
      return .noContent
    else
      return .noContent
  | none => return .noContent

structure ForgotPasswordRequest where
  email : String
  tenantId : String

namespace forgotPassword

def sent : Response :=
  ⟨200, .message "If this email is registered, a reset link has been sent."⟩

/--
How long a reset token is valid: 1 hour.
-/
def resetLifetime : Int :=
  Instant.seconds 3600

def createToken (cfg : Config) (email userId : String) : App Response := do
  match ← App.host .random with
  | .error _ => return authUnavailable
  | .ok raw =>
    let token := Hex.encode raw
    let now ← App.host .now
    match ← App.reset (.insert (cfg.sha256Text token) userId (now + resetLifetime)) with
    | .error _ => return internalError "Failed to process request"
    | .ok () =>
      let _ ← App.host (.sendPasswordReset email
        ("https://aspectus.local/reset-password?token=" ++ token))
      return sent

end forgotPassword

open forgotPassword in
def forgotPassword (cfg : Config) (req : ForgotPasswordRequest) : App Response := do
  match ← App.user (.selectByEmail req.tenantId req.email) with
  | .ok (some (userId, _)) => createToken cfg req.email userId
  | _ => return sent

structure ResetPasswordRequest where
  token : String
  newPassword : String

namespace resetPassword

def updatePassword (userId newPassword : String) : App Response := do
  match ← App.host (.hashPassword newPassword) with
  | .error _ => return internalError "Failed to update password"
  | .ok passwordHash =>
    match ← App.user (.setPassword userId passwordHash) with
    | .error _ => return internalError "Failed to update password"
    | .ok _ =>
      match (← App.user (.selectTenant userId)).toOption.join with
      | some tenantId =>
        auditAuthEvent tenantId userId "user.password_reset" [("method", .str "email_reset_token")]
        return ⟨200, .message "Password has been reset successfully."⟩
      | none => return ⟨200, .message "Password has been reset successfully."⟩

end resetPassword

open resetPassword in
def resetPassword (cfg : Config) (req : ResetPasswordRequest) : App Response := do
  match cfg.passwordPolicy.validate req.newPassword with
  | .error msg => return validationFailed msg
  | .ok () =>
    match ← App.reset (.claim (cfg.sha256Text req.token)) with
    | .error _ => return authUnavailable
    | .ok none => return validationFailed "Invalid or expired reset token"
    | .ok (some userId) => updatePassword userId req.newPassword

end Aspectus
