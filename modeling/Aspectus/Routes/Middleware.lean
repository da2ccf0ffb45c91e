import Aspectus.Routes.Response

/-!
This module contains the layers around the handlers: rate limiting, the authentication with a service
token, and the check that it is the admin token.
-/

namespace Aspectus

open Interaction

/--
Redis-backed fixed-window rate limiter.
-/
structure RateLimiter where
  maxRequests : UInt64
  windowSecs : UInt64

namespace RateLimiter

def authorizeLimiter : RateLimiter :=
  ⟨5, 60⟩

def passwordLimiter : RateLimiter :=
  ⟨3, 60⟩

def tokenLimiter : RateLimiter :=
  ⟨30, 60⟩

def introspectLimiter : RateLimiter :=
  ⟨10000, 60⟩

def mgmtLimiter : RateLimiter :=
  ⟨100, 60⟩

/--
Whether a request under `key` is within the rate limit.
-/
def check (limiter : RateLimiter) (key : String) : App Bool := do
  let now ← App.host .now
  let bucket := now.timestamp.toNat / max limiter.windowSecs.toNat 1
  -- The arguments of the script are signed.
  match ← App.cache (.checkRate key bucket limiter.maxRequests.toInt64.toInt
    limiter.windowSecs.toInt64.toInt) with
  | .ok allowed => return allowed = 1
  -- If Redis is unavailable, requests are not blocked.
  | .error _ => return true

def rateLimited : Response :=
  .problem {
    typeUri := "https://aspectus.dev/errors/rate-limited"
    title := "Too Many Requests"
    status := 429
    code := none
    detail := "Rate limit exceeded. Please retry after the window expires."
    inst := none
    errors := none
  }

/--
Apply rate limiting to a request.
-/
def layer (limiter : RateLimiter) (key : String) (next : App Response) : App Response := do
  if ← limiter.check key then
    next
  else
    return rateLimited

end RateLimiter

/--
The token in an `Authorization` header.
-/
def bearerToken (authorization : Option String) : Option String :=
  authorization.bind fun value => stripPrefix value "Bearer "

/--
The key under which requests with a service token are limited.
-/
def serviceTokenKey (cfg : Config) (authorization : Option String) : String :=
  match bearerToken authorization with
  | some token => "st:" ++ cfg.sha256Text token
  | none => "unknown"

def invalidServiceToken (detail path : String) : Response :=
  (ProblemDetails.withCodeInstance .invalidServiceToken detail path).intoResponse

/--
Authenticate a request by its service token.
-/
def serviceTokenAuth (cfg : Config) (path : String) (authorization : Option String)
    (next : Project → App Response) : App Response :=
  match bearerToken authorization with
  | none => return invalidServiceToken "Missing Authorization header" path
  | some token => do
    match ← ServiceTokenVerifier.verify cfg token with
    | some project => next project
    | none => return invalidServiceToken "Invalid Service Token" path

/--
Require the service token that a request was authenticated with to be the admin token.
-/
def requireAdminServiceToken (project : Project) (next : App Response) : App Response :=
  if project = .aspectus then
    next
  else
    return (ProblemDetails.forbidden
      "Management endpoints require an admin service token").intoResponse

end Aspectus
