import Aspectus.Auth.JsonWebToken

/-!
This module contains the verification of JWTs in the client library, which fetches the key of the server
once an hour and then verifies tokens on its own.
-/

namespace Aspectus
namespace Client

/--
The claims the client reads, unlike the server it does not look at the name of the tenant.
-/
structure JwtClaims where
  sub : String
  tenantId : String
  scope : String
  clientId : String
  identityType : String
  aud : String
  iss : String
  iat : Nat
  exp : Nat
  jti : String
deriving DecidableEq

namespace JwtClaims

def read (fields : List (String × Json)) : Option JwtClaims := do
  let sub ← readString fields "sub"
  let tenantId ← readString fields "tenant_id"
  let scope ← readString fields "scope"
  let clientId ← readString fields "client_id"
  let identityType ← readString fields "identity_type"
  let aud ← readString fields "aud"
  let iss ← readString fields "iss"
  let iat ← readUsize fields "iat"
  let exp ← readUsize fields "exp"
  let jti ← readString fields "jti"
  return {
    sub := sub
    tenantId := tenantId
    scope := scope
    clientId := clientId
    identityType := identityType
    aud := aud
    iss := iss
    iat := iat
    exp := exp
    jti := jti
  }

/--
The claims as the server reads them.
-/
def named (claims : JwtClaims) (tenantName : Option String) : Aspectus.JwtClaims where
  sub := claims.sub
  tenantId := claims.tenantId
  scope := claims.scope
  clientId := claims.clientId
  identityType := claims.identityType
  aud := claims.aud
  iss := claims.iss
  iat := claims.iat
  exp := claims.exp
  jti := claims.jti
  tenantName := tenantName

end JwtClaims

inductive ClientError where
  | jwksFetch (message : String)
  | jwksInvalid
  | jwtVerify (message : String)
deriving DecidableEq

structure JwkKey where
  alg : Option String
  n : String
  e : String

/--
The answer to a request for the keys of the server. The body may fail to parse.
-/
structure JwksReply where
  status : Nat
  keys : Except String (List JwkKey)

/--
What is relied on of the library for JWTs.
-/
structure Library (Key : Type) where
  fromRsaComponents : String → String → Except String Key
  decode : Validation → Key → Instant → String → Except String JwtClaims

structure JwtVerifier (Key : Type) where
  decodingKey : Option Key
  lastRefresh : Option Instant

namespace JwtVerifier

variable {Key : Type}

def fetchJwks (lib : Library Key) (reply : Except String JwksReply) (now : Instant) :
    Except ClientError (JwtVerifier Key) :=
  match reply with
  | .error e => .error (.jwksFetch e)
  | .ok reply =>
    if ¬(200 ≤ reply.status ∧ reply.status < 300) then
      .error (.jwksFetch ("HTTP " ++ toString reply.status))
    else
      match reply.keys with
      | .error e => .error (.jwksFetch ("Failed to parse JWKS: " ++ e))
      | .ok keys =>
        match keys.find? fun key => key.alg = some "RS256" with
        | none => .error .jwksInvalid
        | some key =>
          match lib.fromRsaComponents key.n key.e with
          | .error e => .error (.jwtVerify ("Invalid JWK: " ++ e))
          | .ok key => .ok ⟨some key, some now⟩

def needsRefresh (verifier : JwtVerifier Key) (now : Instant) : Bool :=
  match verifier.lastRefresh with
  | some refreshed => now - refreshed > Instant.seconds 3600
  | none => true

/--
Ensure JWKS is fetched and still valid.
-/
def ensureJwks (lib : Library Key) (reply : Except String JwksReply) (now : Instant)
    (verifier : JwtVerifier Key) : Except ClientError (JwtVerifier Key) :=
  if verifier.needsRefresh now then fetchJwks lib reply now else .ok verifier

/--
The issuer is not validated, and the leeway is the default one.
-/
def validation : Validation :=
  { Validation.default with validateExp := true, validateAud := false }

def report (claims : JwtClaims) : IntrospectResponse :=
  let identityType := (IdentityType.parse claims.identityType).getD .user
  .mkActive claims.tenantId claims.sub identityType claims.clientId claims.scope (toI64 claims.exp) none
    "jwt"

/--
Verify a JWT token locally. The key that was fetched for it is kept even if the token is rejected.
-/
def verify (lib : Library Key) (reply : Except String JwksReply) (now : Instant) (token : String)
    (verifier : JwtVerifier Key) : Except ClientError IntrospectResponse × JwtVerifier Key :=
  match verifier.ensureJwks lib reply now with
  | .error e => (.error e, verifier)
  | .ok verifier =>
    match verifier.decodingKey with
    | none => (.error (.jwtVerify "No JWKS key available"), verifier)
    | some key =>
      match lib.decode validation key now token with
      | .error e => (.error (.jwtVerify e), verifier)
      | .ok claims => (.ok (report claims), verifier)

/--
A key the verifier has is the one a token has to be signed with.
-/
def Holds (lib : Library Key) (reply : Except String JwksReply) (now : Instant)
    (verifier : JwtVerifier Key) (key : Key) : Prop :=
  ∃ verifier', verifier.ensureJwks lib reply now = .ok verifier' ∧ verifier'.decodingKey = some key

variable {lib : Library Key} {reply : Except String JwksReply} {now : Instant} {token : String}
  {verifier : JwtVerifier Key}

theorem verify_ok {r : IntrospectResponse} :
    (verifier.verify lib reply now token).1 = .ok r
      ↔
    ∃ key claims, verifier.Holds lib reply now key
      ∧ lib.decode validation key now token = .ok claims ∧ r = report claims := by
  unfold verify Holds
  cases hensure : verifier.ensureJwks lib reply now with
  | error e => simp
  | ok verifier' =>
    cases hkey : verifier'.decodingKey with
    | none => simp [hkey]
    | some key =>
      cases hdecode : lib.decode validation key now token with
      | error e => simp [hkey, hdecode]
      | ok claims => simp [hkey, hdecode, eq_comm]

end JwtVerifier

/--
The client decodes tokens like the server does, with its own claims: `payload` is the JSON object a
well-formed token carries, and `signed` says whether it has a valid signature.
-/
def DecodesJwt {Key : Type} (lib : Library Key) (key : Key)
    (payload : String → Option (List (String × Json))) (signed : String → Bool) : Prop :=
  ∀ v now token, (lib.decode v key now token).toOption
    = ((payload token).bind JwtClaims.read).filter fun claims =>
        v.accepts (signed token) now (claims.named none)

end Client

/--
The server reads the same claims as a client, and the name of the tenant.
-/
theorem JwtClaims.read_eq (fields : List (String × Json)) :
    JwtClaims.read fields = (Client.JwtClaims.read fields).bind fun claims =>
      (readOptional fields "tenant_name").map claims.named := by
  unfold JwtClaims.read Client.JwtClaims.read
  simp only [Option.bind_eq_bind, Option.bind_assoc, Option.pure_def, Option.bind_some,
    Option.map_eq_bind, Function.comp_def, Client.JwtClaims.named]

end Aspectus
