import Aspectus.Routes.Service
import Aspectus.Routes.ServiceTokens

/-!
This module contains the service as it is deployed: all endpoints with the layers around them, and
what is done when the service starts.
-/

namespace Aspectus

open Interaction

/--
The layers around an endpoint.
-/
inductive Layer where
  | anyone (limiter : Option RateLimiter)
  /-- Any service token will do, one endpoint checks it twice. -/
  | consumer (twice : Bool) (limiter : Option RateLimiter)
  | management

inductive Endpoint where
  | auth (q : AuthRequest)
  | key (q : KeyRequest)
  | serviceToken (q : ProjectTokenRequest)
  /-- An endpoint of which nothing is known but what it answers. -/
  | other (layer : Layer) (a : Response)

namespace Endpoint

def layer : Endpoint → Layer
  | .auth (.login ..) => .anyone (some .authorizeLimiter)
  | .auth (.register ..) => .anyone (some .authorizeLimiter)
  | .auth (.authorize ..) => .anyone (some .authorizeLimiter)
  | .auth (.token ..) => .anyone (some .tokenLimiter)
  | .auth (.logout ..) => .anyone none
  | .auth (.forgotPassword ..) => .anyone (some .passwordLimiter)
  | .auth (.resetPassword ..) => .anyone (some .passwordLimiter)
  | .auth (.changePassword ..) => .anyone (some .passwordLimiter)
  | .auth (.suspend ..) => .management
  | .auth (.unlock ..) => .management
  | .auth (.createClient ..) => .management
  | .key (.create ..) => .management
  | .key (.delete ..) => .management
  | .key (.issue ..) => .anyone (some .tokenLimiter)
  | .key (.revoke ..) => .consumer true none
  | .key (.verify ..) => .consumer false none
  | .key (.introspect ..) => .consumer false (some .introspectLimiter)
  | .serviceToken (.verify ..) => .anyone none
  | .serviceToken _ => .management
  | .other layer _ => layer

def handle (cfg : Config) : Endpoint → App Response
  | .auth q => q.handle cfg
  | .key q => q.handle cfg
  | .serviceToken q => q.handle cfg
  | .other _ a => return a

end Endpoint

/--
A request with what the layers look at, or a start of the service with the value of
`ASPECTUS_ADMIN_SERVICE_TOKEN`.
-/
inductive Call where
  | startUp (adminToken : Option String)
  | request (path : String) (authorization : Option String) (address : String) (endpoint : Endpoint)

namespace Call

/--
Store the hash of the admin token, a failure is only logged.
-/
def seedAdminToken (cfg : Config) : Option String → App Response
  | none => return .noContent
  | some adminToken =>
    if adminToken = "" then
      return .noContent
    else do
      let _ ← App.serviceToken (.seedAdmin (cfg.sha256Text adminToken))
      return .noContent

def limited (limiter : Option RateLimiter) (key : String) (next : App Response) : App Response :=
  match limiter with
  | some limiter => limiter.layer key next
  | none => next

/--
Everything a request with a valid service token goes through before its handler.
-/
def authenticated (cfg : Config) (path : String) (authorization : Option String) (twice : Bool)
    (next : App Response) : App Response :=
  serviceTokenAuth cfg path authorization fun _ =>
    if twice then
      serviceTokenAuth cfg path authorization fun _ => next
    else
      next

/--
Everything a management request goes through before its handler.
-/
def managed (cfg : Config) (path : String) (authorization : Option String) (next : App Response) :
    App Response :=
  serviceTokenAuth cfg path authorization fun project =>
    requireAdminServiceToken project
      (RateLimiter.mgmtLimiter.layer (serviceTokenKey cfg authorization) next)

def handle (cfg : Config) : Call → App Response
  | .startUp adminToken => seedAdminToken cfg adminToken
  | .request path authorization address endpoint =>
    match endpoint.layer with
    | .anyone limiter => limited limiter address (endpoint.handle cfg)
    | .consumer twice limiter =>
      authenticated cfg path authorization twice
        (limited limiter (serviceTokenKey cfg authorization) (endpoint.handle cfg))
    | .management => managed cfg path authorization (endpoint.handle cfg)

end Call

/--
What the endpoints that are not known may have done before an operation: they write to other tables,
cache and invalidate the scopes of users, and count requests.
-/
structure Elsewhere where
  write : Server → Server
  now : ∀ s, (write s).now = s.now
  serviceTokens : ∀ s, (write s).serviceTokens = s.serviceTokens
  redis : ∀ s key entry, (write s).redis key = some entry →
    s.redis key = some entry ∨ (∃ userId, key = ScopeExpander.cacheKey userId)
      ∨ ∃ name bucket, key = rateLimitKey name bucket

/--
The semantics of the operations among the ones of the other endpoints.
-/
def surroundedSemantics (cfg : Config) : Semantics Api Server (Draw × Elsewhere) where
  exec o d s := Op.exec cfg o d.1 (d.2.write s)
  advance := Server.advance

abbrev Deployment : Type := Machine Api Server (Draw × Elsewhere) Call Response

abbrev DeploymentEntry : Type := Entry Api Server (Draw × Elsewhere) Call Response

/--
The executions of the deployed service that start from `s`.
-/
abbrev Deployment.Reachable (cfg : Config) (s : Server) (m : Deployment) : Prop :=
  Machine.Reaches (surroundedSemantics cfg) (Call.handle cfg) (Machine.init s) m

end Aspectus
