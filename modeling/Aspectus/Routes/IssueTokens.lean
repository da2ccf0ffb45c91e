import Aspectus.Routes.Response

/-!
This module contains how the scopes of a user are determined, and how the tokens of a user are
issued once a request has been authenticated.
-/

namespace Aspectus

open Interaction

/--
The first segments of the well-formed scopes in `scopes`, without duplicates and in order.
-/
def projectsFromScopes (scopes : String) : List String :=
  let projects := ((splitWhitespace scopes).filter (contains · ':')).filterMap fun scope =>
    (split scope ':').head?
  ((projects.filter fun p => p ≠ "" ∧ p ≠ "*").dedup).mergeSort fun p q => decide (p ≤ q)

namespace ScopeExpander

def cacheKey (userId : String) : String :=
  "scope_expand:" ++ userId

def expand (userId : String) : App String := do
  match ← App.cache (.get (cacheKey userId)) with
  | some cached => return cached
  | none =>
    let scopes := (← App.role (.selectScopes userId)).toOption.getD []
    let result := join " " scopes
    App.cache (.set (cacheKey userId) result 60)
    return result

def invalidate (userId : String) : App Unit :=
  App.cache (.del (cacheKey userId))

end ScopeExpander

namespace issueTokens

/--
The token format, lifetime and context that surround the two tokens of a response.
-/
def response (ttl : Nat) (access refresh userId tenantId scopes : String)
    (tenantRow userInfo : Option (String × Option String)) : Response :=
  ⟨200, .userTokens {
    accessToken := access
    tokenFormat := "jwt"
    expiresIn := ttl
    tokenType := "Bearer"
    refreshToken := refresh
    user := {
      id := userId
      email := userInfo.map fun row => row.1
      displayName := userInfo.bind fun row => row.2
    }
    tenant := {
      id := tenantId
      name := tenantRow.map fun row => row.1
      logoUrl := tenantRow.bind fun row => row.2
    }
    availableProjects := projectsFromScopes scopes
  }⟩

/--
The refresh token that is made of some random bytes.
-/
def refreshToken (raw : List UInt8) : String :=
  "rt_" ++ Hex.encode raw

/--
How long a refresh token is valid: 30 days.
-/
def refreshLifetime : Int :=
  Instant.seconds 2592000

end issueTokens

open issueTokens in
def issueTokens (cfg : Config) (userId tenantId clientId : String) : App Response := do
  let ttl := cfg.jwtTtlSeconds
  let project := (Project.parse clientId).getD .pandaria
  let scopes ← ScopeExpander.expand userId
  -- Information about the tenant and the user is best-effort, failures do not matter.
  let tenantRow := (← App.tenant (.selectInfo tenantId)).toOption.join
  let userInfo := (← App.user (.selectInfo userId)).toOption.join
  match ← JwtSigner.signWithTenantName {
    sub := userId
    tenantId := tenantId
    tenantName := tenantRow.map fun row => row.1
    project := project
    scopes := scopes
    identityType := .user
    ttlSeconds := ttl
  } with
  | .error e => return (ProblemDetails.ofCoreError e).intoResponse
  | .ok access =>
    match ← App.host .random with
    | .error _ =>
      return (ProblemDetails.internalError "Token service temporarily unavailable").intoResponse
    | .ok raw =>
      let refresh := refreshToken raw
      let now ← App.host .now
      match ← App.refresh (.create (cfg.sha256Text refresh) userId clientId
        (now + refreshLifetime)) with
      | .error _ =>
        return (ProblemDetails.internalError "Token service temporarily unavailable").intoResponse
      | .ok () => return response ttl access refresh userId tenantId scopes tenantRow userInfo

end Aspectus
