import Aspectus.Routes.Keys
import Aspectus.Store.Semantics

/-!
This module contains the services that are verified: the requests that authenticate users, the requests
that set their passwords, and the requests that concern the credentials of service accounts.
-/

namespace Aspectus

open Interaction

/--
The requests for the authentication of users. The first argument of some of them is the
`X-Forwarded-For` header.
-/
inductive AuthRequest where
  | login (forwardedFor : Option String) (req : LoginRequest)
  | register (forwardedFor : Option String) (reg : RegisterRequest)
  | authorize (req : AuthorizeRequest)
  | token (req : TokenRequest)
  | logout (req : LogoutRequest)
  | forgotPassword (req : ForgotPasswordRequest)
  | resetPassword (req : ResetPasswordRequest)
  | changePassword (id : String) (req : ChangePasswordRequest)
  | suspend (id : String) (suspended : Bool)
  | unlock (id : String)
  | createClient (req : CreateClientRequest)

def AuthRequest.handle (cfg : Config) : AuthRequest → App Response
  | .login forwardedFor req => Aspectus.login cfg forwardedFor req
  | .register forwardedFor reg => Aspectus.register cfg forwardedFor reg
  | .authorize req => Aspectus.authorize cfg req
  | .token req => Aspectus.token cfg req
  | .logout req => Aspectus.logout cfg req
  | .forgotPassword req => Aspectus.forgotPassword cfg req
  | .resetPassword req => Aspectus.resetPassword cfg req
  | .changePassword id req => Aspectus.changePassword cfg id req
  | .suspend id suspended => Aspectus.suspend id suspended
  | .unlock id => Aspectus.unlock id
  | .createClient req => Aspectus.createClient cfg req

/--
The requests that set a new password.
-/
inductive PasswordRequest where
  | change (id : String) (req : ChangePasswordRequest)
  | reset (req : ResetPasswordRequest)

def PasswordRequest.handle (cfg : Config) : PasswordRequest → App Response
  | .change id req => Aspectus.changePassword cfg id req
  | .reset req => Aspectus.resetPassword cfg req

/--
The requests for API keys and opaque tokens.
-/
inductive KeyRequest where
  | create (req : CreateApiKeyRequest)
  | delete (id : String)
  | issue (req : ServiceTokenRequest)
  | revoke (token : Option String)
  | verify (token : String)
  | introspect (token : String)

def KeyRequest.handle (cfg : Config) : KeyRequest → App Response
  | .create req => createApiKey cfg req
  | .delete id => revokeApiKey id
  | .issue req => issueServiceToken cfg req
  | .revoke token => revokeToken cfg token
  | .verify token => do
    let response ← ApiKeyVerifier.verify cfg token
    return ⟨200, .introspection response⟩
  | .introspect token => Aspectus.introspect cfg token

abbrev AuthMachine : Type := Machine Api Server Draw AuthRequest Response

abbrev AuthEntry : Type := Entry Api Server Draw AuthRequest Response

abbrev PasswordMachine : Type := Machine Api Server Draw PasswordRequest Response

abbrev KeyMachine : Type := Machine Api Server Draw KeyRequest Response

abbrev KeyEntry : Type := Entry Api Server Draw KeyRequest Response

/--
The executions of the authentication service that start from `s`.
-/
abbrev AuthMachine.Reachable (cfg : Config) (s : Server) (m : AuthMachine) : Prop :=
  Machine.Reaches (semantics cfg) (AuthRequest.handle cfg) (Machine.init s) m

abbrev PasswordMachine.Reachable (cfg : Config) (s : Server) (m : PasswordMachine) : Prop :=
  Machine.Reaches (semantics cfg) (PasswordRequest.handle cfg) (Machine.init s) m

abbrev KeyMachine.Reachable (cfg : Config) (s : Server) (m : KeyMachine) : Prop :=
  Machine.Reaches (semantics cfg) (KeyRequest.handle cfg) (Machine.init s) m

end Aspectus
