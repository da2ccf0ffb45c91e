import Aspectus.Auth.Client
import Aspectus.Discipline.Audit
import Aspectus.Security.DenyList

/-!
This module contains when a client that verifies a JWT on its own and the server agree on it. The client
leaves the issuer alone and always allows for the default leeway.
-/

namespace Aspectus

open Interaction Prog

variable {cfg : Config} {s : Server} {draws : Nat → Draw} {token : String}

/--
The answer is active and reports the same as another one.
-/
structure Reports (answer r : IntrospectResponse) : Prop where
  active : answer.active = true
  identity : answer.userId = r.userId ∧ answer.identityType = r.identityType
  tenant : answer.tenantId = r.tenantId
  client : answer.clientId = r.clientId
  scope : answer.scope = r.scope
  exp : answer.exp = r.exp

namespace JwtVerifier

/--
The answer to a token that is decoded and not denied.
-/
theorem verify_reports {claims : JwtClaims}
    (hdecode : cfg.decodeJwt (verifyValidation cfg) s.now token = some claims)
    (hdeny : s.cached (revokedKey claims.jti) = none)
    : ((verify cfg token).run (semantics cfg) draws s).1
        = .mkActive claims.tenantId claims.sub ((IdentityType.parse claims.identityType).getD .user)
          claims.clientId claims.scope (toI64 claims.exp) none "jwt" := by
  have hget : (semantics cfg).exec (.cache (.get (revokedKey claims.jti))) (draws 1) s
      = ((none : Option String), s) := by
    change CacheOp.exec (draws 1) s (.get _) = _
    unfold CacheOp.exec
    dsimp only
    rw [hdeny]
    split <;> simp_all
  unfold verify App.host App.cache
  rw [run_clock]
  dsimp only
  rw [hdecode]
  dsimp only
  rw [run_perform_bind_of hget]
  rfl

end JwtVerifier

namespace Client

variable {Key : Type} {lib : Library Key} {key : Key} {payload : String → Option (List (String × Json))}
  {signed : String → Bool}

theorem DecodesJwt.validation (h : DecodesJwt lib key payload signed) {now : Instant}
    {claims : JwtClaims}
    : lib.decode JwtVerifier.validation key now token = .ok claims
        ↔
      ∃ fields, payload token = some fields ∧ JwtClaims.read fields = some claims
        ∧ signed token = true ∧ now.timestamp ≤ claims.exp + 60 := by
  have hok : lib.decode JwtVerifier.validation key now token = .ok claims
      ↔ (lib.decode JwtVerifier.validation key now token).toOption = some claims := by
    cases lib.decode JwtVerifier.validation key now token with
    | error e => simp [Except.toOption]
    | ok claims => simp [Except.toOption]
  rw [hok, h, Option.filter_eq_some_iff, Option.bind_eq_some_iff]
  have haccepts : JwtVerifier.validation.accepts (signed token) now (claims.named none) = true
      ↔ signed token = true ∧ now.timestamp ≤ claims.exp + 60 := by
    simp [Validation.accepts, JwtVerifier.validation, Validation.default, JwtClaims.named]
    intro _
    apply decide_eq_true_iff
  rw [haccepts]
  constructor
  . rintro ⟨⟨fields, hpayload, hread⟩, hsigned, hexp⟩
    exact ⟨fields, hpayload, hread, hsigned, hexp⟩
  . rintro ⟨fields, hpayload, hread, hsigned, hexp⟩
    exact ⟨⟨fields, hpayload, hread⟩, hsigned, hexp⟩

end Client

section Server

variable {payload : String → Option (List (String × Json))} {signed : String → Bool}

/--
A token the client can read is decoded by the server if it has the issuer, the leeway has not passed, and
the name of the tenant can be read as well.
-/
theorem DecodesJwt.read_isSome
    (h : DecodesJwt cfg (fun token => (payload token).bind JwtClaims.read) signed)
    {fields : List (String × Json)} {claims : Client.JwtClaims} (hpayload : payload token = some fields)
    (hread : Client.JwtClaims.read fields = some claims) (hsigned : signed token = true)
    {now : Instant}
    : (cfg.decodeJwt (JwtVerifier.verifyValidation cfg) now token).isSome
        ↔
      claims.iss = "https://aspectus" ∧ now.timestamp ≤ claims.exp + cfg.jwtClockSkewSeconds
        ∧ (readOptional fields "tenant_name").isSome := by
  rw [h]
  dsimp only
  rw [hpayload, Option.bind_some, JwtClaims.read_eq, hread, Option.bind_some]
  cases readOptional fields "tenant_name" with
  | none => simp
  | some tenantName =>
    simp [Option.filter, Validation.accepts, JwtVerifier.verifyValidation, Validation.default, hsigned,
      Client.JwtClaims.named, and_comm]
    intro _
    apply decide_eq_true_iff

theorem DecodesJwt.read_named
    (h : DecodesJwt cfg (fun token => (payload token).bind JwtClaims.read) signed)
    {fields : List (String × Json)} {claims : Client.JwtClaims} (hpayload : payload token = some fields)
    (hread : Client.JwtClaims.read fields = some claims) {v : Validation} {now : Instant}
    {decoded : JwtClaims} (hdecoded : cfg.decodeJwt v now token = some decoded)
    : ∃ tenantName, decoded = claims.named tenantName := by
  rw [h, Option.filter_eq_some_iff] at hdecoded
  dsimp only at hdecoded
  rw [hpayload, Option.bind_some, JwtClaims.read_eq, hread, Option.bind_some] at hdecoded
  rcases Option.map_eq_some_iff.mp hdecoded.1 with ⟨tenantName, _, hnamed⟩
  exact ⟨tenantName, hnamed.symm⟩

end Server

/--
The server agrees with a client that accepts a token if and only if the token has the issuer of the server,
does not rely on more leeway than the server allows, and has a name of a tenant that can be read.
-/
theorem offline_verification_agrees {Key : Type} (cfg : Config) (lib : Client.Library Key) (key : Key)
    (payload : String → Option (List (String × Json))) (signed : String → Bool)
    (hserver : DecodesJwt cfg (fun token => (payload token).bind JwtClaims.read) signed)
    (hclient : Client.DecodesJwt lib key payload signed) (verifier : Client.JwtVerifier Key)
    (reply : Except String Client.JwksReply) (token : String) (s : Server) (draws : Nat → Draw)
    (hkey : ∀ key', verifier.Holds lib reply s.now key' → key' = key)
    (hdeny : ∀ jti, s.cached (JwtVerifier.revokedKey jti) = none) :
    (∀ r, (verifier.verify lib reply s.now token).1 = .ok r →
      Reports ((JwtVerifier.verify cfg token).run (semantics cfg) draws s).1 r)
      ↔
    (∀ fields claims, verifier.Holds lib reply s.now key → payload token = some fields →
      Client.JwtClaims.read fields = some claims → signed token = true →
      s.now.timestamp ≤ claims.exp + 60 →
        claims.iss = "https://aspectus" ∧ s.now.timestamp ≤ claims.exp + cfg.jwtClockSkewSeconds
          ∧ (readOptional fields "tenant_name").isSome) := by
  constructor
  . intro hagree fields claims hholds hpayload hread hsigned hexp
    have haccepted : (verifier.verify lib reply s.now token).1
        = .ok (Client.JwtVerifier.report claims) := by
      apply Client.JwtVerifier.verify_ok.mpr
      have hdecode := hclient.validation.mpr ⟨fields, hpayload, hread, hsigned, hexp⟩
      exact ⟨key, claims, hholds, hdecode, rfl⟩
    have hactive := (hagree _ haccepted).active
    apply (hserver.read_isSome hpayload hread hsigned).mp
    cases hdecode : cfg.decodeJwt (JwtVerifier.verifyValidation cfg) s.now token with
    | some claims => rfl
    | none =>
      rw [JwtVerifier.verify_rejected hdecode] at hactive
      contradiction
  . intro hcond r haccepted
    rcases Client.JwtVerifier.verify_ok.mp haccepted with ⟨key', claims, hholds, hdecode, rfl⟩
    have heq := hkey key' hholds
    subst heq
    rcases hclient.validation.mp hdecode with ⟨fields, hpayload, hread, hsigned, hexp⟩
    have hsome := (hserver.read_isSome hpayload hread hsigned).mpr
      (hcond fields claims hholds hpayload hread hsigned hexp)
    rcases Option.isSome_iff_exists.mp hsome with ⟨decoded, hdecoded⟩
    rcases hserver.read_named hpayload hread hdecoded with ⟨tenantName, rfl⟩
    rw [JwtVerifier.verify_reports hdecoded (hdeny _)]
    constructor <;> simp [Client.JwtVerifier.report, IntrospectResponse.mkActive, Client.JwtClaims.named]

namespace Sample

def jwtPayload (token : String) : Option (List (String × Json)) :=
  if token = jwt then some jwtClaims.write else none

/--
Both sides decode tokens like the library does it, and the server allows for no leeway.
-/
def strictConfig : Config :=
  { config with
    jwtClockSkewSeconds := 0
    decodeJwt := fun v now token => ((jwtPayload token).bind JwtClaims.read).filter fun claims =>
      v.accepts (signed token) now claims }

def library : Client.Library Unit where
  fromRsaComponents _ _ := .ok ()
  decode v _ now token :=
    match ((jwtPayload token).bind Client.JwtClaims.read).filter fun claims =>
      v.accepts (signed token) now (claims.named none) with
    | some claims => .ok claims
    | none => .error "InvalidToken"

theorem strictConfig_decodes :
    DecodesJwt strictConfig (fun token => (jwtPayload token).bind JwtClaims.read) signed :=
  fun _ _ _ => rfl

theorem library_decodes : Client.DecodesJwt library () jwtPayload signed := by
  intro v now token
  unfold library
  dsimp only
  split
  . next h => rw [h]; rfl
  . next h => rw [h]; rfl

/--
A client that has not fetched the key yet, and the answer it gets.
-/
def verifier : Client.JwtVerifier Unit :=
  ⟨none, none⟩

def jwksReply : Client.JwksReply :=
  ⟨200, .ok [⟨some "RS256", "n", "e"⟩]⟩

def clientClaims : Client.JwtClaims where
  sub := userId
  tenantId := "default"
  scope := "pandaria:session:read"
  clientId := "pandaria"
  identityType := "user"
  aud := "pandaria"
  iss := "https://aspectus"
  iat := 1750000000
  exp := 1750000900
  jti := "2zGv5dEfGhIjKlMnOpQrStUvWxY"

theorem clientClaims_read : Client.JwtClaims.read jwtClaims.write = some clientClaims := by
  decide +kernel

theorem verifier_accepts {now : Instant} (hexp : now.timestamp ≤ clientClaims.exp + 60) :
    (verifier.verify library (.ok jwksReply) now jwt).1
      = .ok (Client.JwtVerifier.report clientClaims) := by
  apply Client.JwtVerifier.verify_ok.mpr
  refine ⟨(), clientClaims, ⟨⟨some (), some now⟩, rfl, rfl⟩, ?_, rfl⟩
  apply library_decodes.validation.mpr
  exact ⟨jwtClaims.write, rfl, clientClaims_read, rfl, hexp⟩

/--
The token expires in 100 seconds.
-/
def earlyServer : Server :=
  { server with now := Instant.seconds 1750000800 }

/--
The token has expired 30 seconds ago.
-/
def expiredServer : Server :=
  { server with now := Instant.seconds 1750000930 }

end Sample

open Sample in
theorem offline_verification_agrees_early :
    Reports ((JwtVerifier.verify strictConfig jwt).run (semantics strictConfig) (fun _ => draw 1)
      earlyServer).1 (Client.JwtVerifier.report clientClaims) := by
  refine (offline_verification_agrees strictConfig library () jwtPayload signed strictConfig_decodes
    library_decodes verifier (.ok jwksReply) jwt earlyServer (fun _ => draw 1) (fun _ _ => rfl)
    (fun _ => rfl)).mpr ?_ _ (verifier_accepts (by decide))
  intro fields claims _ hpayload hread _ _
  injection hpayload with hfields
  subst hfields
  rw [clientClaims_read] at hread
  injection hread with hclaims
  subst hclaims
  decide +kernel

open Sample in
/--
A client accepts a token that the server has signed although it is expired for the server.
-/
theorem offline_verification_lenient :
    DecodesJwt strictConfig (fun token => (jwtPayload token).bind JwtClaims.read) signed
      ∧ Client.DecodesJwt library () jwtPayload signed
      ∧ jwtClaims = JwtSigner.claims ⟨userId, "default", none, .pandaria, "pandaria:session:read",
          .user, 900⟩ now jwtClaims.jti
      ∧ (∀ jti, expiredServer.cached (JwtVerifier.revokedKey jti) = none)
      ∧ (verifier.verify library (.ok jwksReply) expiredServer.now jwt).1
          = .ok (Client.JwtVerifier.report clientClaims)
      ∧ ((JwtVerifier.verify strictConfig jwt).run (semantics strictConfig) (fun _ => draw 1)
          expiredServer).1.active = false := by
  refine ⟨strictConfig_decodes, library_decodes, ?_, fun _ => rfl, verifier_accepts (by decide), ?_⟩
  . decide +kernel
  . decide +kernel

/--
The scheme of a token is told from how it starts.
-/
example : startsWith Sample.jwt "eyJ" = true := by
  decide +kernel

end Aspectus
