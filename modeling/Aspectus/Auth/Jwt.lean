import Aspectus.Store.Op

/-!
This module contains the password policy and the signing, verification and revocation of JWTs.
-/

namespace Aspectus

open Interaction

namespace PasswordPolicy

/--
Fails with the message of the first rule that is broken.
-/
def validate (policy : PasswordPolicy) (password : String) : Except String Unit :=
  let chars := password.toList
  if byteLength password < policy.minLength then
    .error "Password is too short"
  else if policy.requireUppercase && !chars.any Char.isUpper then
    .error "Password must contain an uppercase letter"
  else if policy.requireLowercase && !chars.any Char.isLower then
    .error "Password must contain a lowercase letter"
  else if policy.requireDigit && !chars.any Char.isDigit then
    .error "Password must contain a digit"
  else if policy.requireSpecial && !chars.any (fun c => !c.isAlphanum) then
    .error "Password must contain a special character"
  else
    .ok ()

end PasswordPolicy

/--
The hash of a text under which a credential is stored.
-/
def Config.sha256Text (cfg : Config) (s : String) : String :=
  cfg.sha256 (utf8 s)

structure JwtSignRequest where
  sub : String
  tenantId : String
  tenantName : Option String
  project : Project
  scopes : String
  identityType : IdentityType
  ttlSeconds : Nat

/--
A timestamp as `usize`.
-/
def unsigned (t : Int) : Nat :=
  (t % 18446744073709551616).toNat

/--
A `usize` as `i64`.
-/
def toI64 (n : Nat) : Int :=
  n.toUInt64.toInt64.toInt

namespace JwtSigner

def claims (req : JwtSignRequest) (now : Instant) (jti : String) : JwtClaims where
  sub := req.sub
  tenantId := req.tenantId
  scope := req.scopes
  clientId := req.project.toString
  identityType := req.identityType.toString
  aud := req.project.toString
  iss := "https://aspectus"
  iat := unsigned now.timestamp
  exp := unsigned now.timestamp + req.ttlSeconds
  jti := jti
  tenantName := req.tenantName

def signWithTenantName (req : JwtSignRequest) : App (Except CoreError String) := do
  let now ← App.host .now
  let jti ← App.host .generateId
  match ← App.host (.encodeJwt (claims req now jti)) with
  | .ok token => return .ok token
  | .error e => return .error (.internal ("JWT: " ++ e))

def sign (sub tenantId : String) (project : Project) (scopes : String)
    (identityType : IdentityType) (ttlSeconds : Nat) : App (Except CoreError String) :=
  signWithTenantName {
    sub := sub
    tenantId := tenantId
    tenantName := none
    project := project
    scopes := scopes
    identityType := identityType
    ttlSeconds := ttlSeconds
  }

end JwtSigner

namespace JwtVerifier

def revokedKey (jti : String) : String :=
  "jwt_revoked:" ++ jti

def verifyValidation (cfg : Config) : Validation :=
  { Validation.default with
    validateExp := true
    validateAud := false
    issuer := some "https://aspectus"
    leeway := cfg.jwtClockSkewSeconds }

def verify (cfg : Config) (token : String) : App IntrospectResponse := do
  let now ← App.host .now
  match cfg.decodeJwt (verifyValidation cfg) now token with
  | none => return .inactive
  | some claims =>
    match ← App.cache (.get (revokedKey claims.jti)) with
    | some _ => return .inactive
    | none =>
      let identityType := (IdentityType.parse claims.identityType).getD .user
      return .mkActive claims.tenantId claims.sub identityType claims.clientId claims.scope
        (toI64 claims.exp) none "jwt"

def revokeValidation : Validation :=
  { Validation.default with validateExp := false, validateSignature := false }

def revoke (cfg : Config) (token : String) : App Bool := do
  let now ← App.host .now
  match cfg.decodeJwt revokeValidation now token with
  | none => return false
  | some claims =>
    let now ← App.host .now
    let ttl := max (claims.exp - unsigned now.timestamp) 1
    App.cache (.set (revokedKey claims.jti) "1" ttl)
    return true

end JwtVerifier

end Aspectus
