import Aspectus.Auth.Jwt

/-!
This module contains what is relied on of the library that decodes JWTs.
-/

namespace Aspectus

/--
Whether the claims of a well-formed token pass a validation at `now`. The validations set no audience,
and the claims always have one.
-/
def Validation.accepts (v : Validation) (signed : Bool) (now : Instant) (claims : JwtClaims) : Bool :=
  (signed || !v.validateSignature)
    && (decide (now.timestamp ≤ claims.exp + v.leeway) || !v.validateExp)
    && !v.validateAud
    && (v.issuer.map fun issuer => decide (claims.iss = issuer)).getD true

/--
Tokens are decoded like `jsonwebtoken` does it: `payload` are the claims of a well-formed token, and
`signed` says whether it has a valid signature.
-/
def DecodesJwt (cfg : Config) (payload : String → Option JwtClaims) (signed : String → Bool) : Prop :=
  ∀ v now token, cfg.decodeJwt v now token
    = (payload token).filter fun claims => v.accepts (signed token) now claims

section Payload

/-!
The payload of a token is a JSON object. A member the code knows may not occur twice, and all others are
ignored.
-/

def members (fields : List (String × Json)) (name : String) : List Json :=
  (fields.filter fun field => field.1 = name).map fun field => field.2

def readString (fields : List (String × Json)) (name : String) : Option String :=
  match members fields name with
  | [.str s] => some s
  | _ => none

def readUsize (fields : List (String × Json)) (name : String) : Option Nat :=
  match members fields name with
  | [.num n] => if 0 ≤ n ∧ n < 18446744073709551616 then some n.toNat else none
  | _ => none

/--
A text that may be missing or null.
-/
def readOptional (fields : List (String × Json)) (name : String) : Option (Option String) :=
  match members fields name with
  | [] => some none
  | [.null] => some none
  | [.str s] => some (some s)
  | _ => none

def JwtClaims.read (fields : List (String × Json)) : Option JwtClaims := do
  let sub ← readString fields "sub"
  let tenantId ← readString fields "tenant_id"
  let scope ← readString fields "scope"
  let clientId ← readString fields "client_id"
  let identityType ← readString fields "identity_type"
  let aud ← readString fields "aud"
  let iss ← readString fields "iss"
  let iat ← readUsize fields "iat"
  let exp ← readUsize fields "exp"
  let jti ← readString fields "jti"
  let tenantName ← readOptional fields "tenant_name"
  return {
    sub := sub
    tenantId := tenantId
    scope := scope
    clientId := clientId
    identityType := identityType
    aud := aud
    iss := iss
    iat := iat
    exp := exp
    jti := jti
    tenantName := tenantName
  }

/--
The payload of the tokens that are signed, which leaves a name out that there is not.
-/
def JwtClaims.write (claims : JwtClaims) : List (String × Json) :=
  [("sub", .str claims.sub), ("tenant_id", .str claims.tenantId), ("scope", .str claims.scope),
    ("client_id", .str claims.clientId), ("identity_type", .str claims.identityType),
    ("aud", .str claims.aud), ("iss", .str claims.iss), ("iat", .num claims.iat),
    ("exp", .num claims.exp), ("jti", .str claims.jti)]
    ++ (claims.tenantName.map fun name => ("tenant_name", .str name)).toList

/--
What is signed is read back, as long as the times fit.
-/
theorem JwtClaims.read_write (claims : JwtClaims) (hiat : claims.iat < 18446744073709551616)
    (hexp : claims.exp < 18446744073709551616) : JwtClaims.read claims.write = some claims := by
  have hiat' : (claims.iat : Int) < 18446744073709551616 := by omega
  have hexp' : (claims.exp : Int) < 18446744073709551616 := by omega
  rcases claims with ⟨sub, tenantId, scope, clientId, identityType, aud, iss, iat, exp, jti, _ | name⟩
  . simp [read, write, readString, readUsize, readOptional, members, hiat', hexp']
  . simp [read, write, readString, readUsize, readOptional, members, hiat', hexp']

end Payload

variable {cfg : Config} {payload : String → Option JwtClaims} {signed : String → Bool}

/--
A revocation never decodes its token: the validation of the audience is left on, but no audience is
set that the one of the token could be compared with.
-/
theorem DecodesJwt.revokeValidation (h : DecodesJwt cfg payload signed) (now : Instant)
    (token : String) : cfg.decodeJwt JwtVerifier.revokeValidation now token = none := by
  rw [h]
  apply Option.filter_eq_none_iff.mpr
  intro claims _
  simp [Validation.accepts, JwtVerifier.revokeValidation, Validation.default]

/--
A verification decodes a signed token of this issuer until it expires.
-/
theorem DecodesJwt.verifyValidation (h : DecodesJwt cfg payload signed) {token : String}
    {claims : JwtClaims} (hpayload : payload token = some claims) (hsigned : signed token = true)
    (hiss : claims.iss = "https://aspectus") {now : Instant} (hexp : now.timestamp ≤ claims.exp)
    : cfg.decodeJwt (JwtVerifier.verifyValidation cfg) now token = some claims := by
  have hleeway : now.timestamp ≤ claims.exp + cfg.jwtClockSkewSeconds :=
    Int.le_trans hexp (Int.le_add_of_nonneg_right (Int.natCast_nonneg _))
  rw [h, hpayload]
  apply Option.filter_some_pos
  simp [Validation.accepts, JwtVerifier.verifyValidation, hsigned, hiss, hleeway]

end Aspectus
