import Aspectus.Core.Basic

/-!
This module contains what the service is configured with and the cryptography it relies on.
-/

namespace Aspectus

structure LockoutConfig where
  /-- Number of consecutive failed logins before the account is locked. -/
  threshold : Int
  threshold_le : threshold ≤ 2147483647
  /-- How long the account stays locked (seconds). -/
  durationSecs : Int

structure PasswordPolicy where
  minLength : Nat
  requireUppercase : Bool
  requireLowercase : Bool
  requireDigit : Bool
  requireSpecial : Bool

structure JwtClaims where
  sub : String
  tenantId : String
  scope : String
  clientId : String
  identityType : String
  aud : String
  iss : String
  iat : Nat
  exp : Nat
  jti : String
  tenantName : Option String
deriving DecidableEq

/--
What a JWT is checked for when it is decoded.
-/
structure Validation where
  validateExp : Bool
  validateAud : Bool
  issuer : Option String
  leeway : Nat
  validateSignature : Bool

/--
The defaults of `jsonwebtoken`.
-/
def Validation.default : Validation where
  validateExp := true
  validateAud := true
  issuer := none
  leeway := 60
  validateSignature := true

/--
The environment variables that were parsed and the primitives of the cryptography libraries.
-/
structure Config where
  /-- The SHA-256 digest of some bytes as lower case hexadecimal digits. -/
  sha256 : List UInt8 → String
  /-- The argon2id hash of a password for a salt. -/
  hashPassword : String → String → String
  verifyPassword : String → String → Except String Bool
  encodeJwt : JwtClaims → String
  decodeJwt : Validation → Instant → String → Option JwtClaims
  /-- The instant an RFC 3339 text denotes. -/
  parseRfc3339 : String → Option Instant
  /-- The order in which the database sorts texts. -/
  collation : String → String → Bool
  lockout : LockoutConfig
  passwordPolicy : PasswordPolicy
  registrationEnabled : Bool
  jwtTtlSeconds : Nat
  opaqueTokenTtlSeconds : Nat
  jwtClockSkewSeconds : Nat

end Aspectus
