import Aspectus.Interaction.Sum
import Aspectus.Routes.Deployment
import Aspectus.Routes.Roles

/-!
This module contains the background task that removes tokens that are of no use anymore, and the server with
this task beside its endpoints.
-/

namespace Aspectus

open Interaction

namespace Statement

/--
`DELETE FROM refresh_tokens WHERE expires_at < NOW()`
-/
def deleteExpiredRefreshTokens (s : Server) : Result (Nat × Server) :=
  let p := fun (_ : String) (t : RefreshToken) => decide (t.expiresAt < s.now)
  .ok ((s.refreshTokens.select p).length, { s with refreshTokens := s.refreshTokens.deleteWhere p })

/--
`DELETE FROM password_reset_tokens WHERE used = true OR expires_at < NOW()`
-/
def deleteSpentResetTokens (s : Server) : Result (Nat × Server) :=
  let p := fun (_ : String) (t : PasswordResetToken) => t.used || decide (t.expiresAt < s.now)
  .ok ((s.passwordResetTokens.select p).length,
    { s with passwordResetTokens := s.passwordResetTokens.deleteWhere p })

end Statement

inductive CleanupOp where
  | deleteRefreshTokens
  | deleteResetTokens

abbrev CleanupApi : Signature where
  Op := CleanupOp
  Res _ := Result Nat

abbrev ServerApi : Signature :=
  Api.sum CleanupApi

def CleanupOp.exec (d : Draw) (s : Server) : CleanupOp → Result Nat × Server
  | .deleteRefreshTokens => Statement.run d [] Statement.deleteExpiredRefreshTokens s
  | .deleteResetTokens => Statement.run d [] Statement.deleteSpentResetTokens s

def serverSemantics (cfg : Config) : Semantics ServerApi Server Draw :=
  (semantics cfg).sum fun o d s => CleanupOp.exec d s o

def CleanupOp.perform (o : CleanupOp) : Prog ServerApi (Result Nat) :=
  Prog.right (T := CleanupApi) o

/--
Both statements are executed on their own, and the second one only if the first one did not fail.
-/
def runCleanup : Prog ServerApi (Result (Nat × Nat)) := do
  match ← CleanupOp.deleteRefreshTokens.perform with
  | .error e => return .error e
  | .ok refresh =>
    match ← CleanupOp.deleteResetTokens.perform with
    | .error e => return .error e
    | .ok reset => return .ok (refresh, reset)

/--
What the server does: it serves requests, and it cleans up from time to time.
-/
inductive Task where
  | call (call : Call)
  | role (q : RoleRequest)
  | cleanup

/--
What comes of a task, the result of the cleanup is only logged.
-/
inductive Outcome where
  | response (a : Response)
  | role (a : RoleAnswer)
  | cleaned

def Task.handle (cfg : Config) : Task → Prog ServerApi Outcome
  | .call c => do
    return .response (← Prog.left (c.handle cfg))
  | .role q => do
    return .role (← Prog.left (q.handle cfg))
  | .cleanup => do
    let _ ← runCleanup
    return .cleaned

/--
The server with its requests and its cleanup. The requests that create tenants and service accounts or change the
quotas of a tenant are no tasks, and neither is what the audit middleware records about a request.
-/
abbrev ServerMachine : Type := Machine ServerApi Server Draw Task Outcome

/--
What can happen when any number of tasks run concurrently.
-/
abbrev ServerMachine.Reachable (cfg : Config) (s : Server) (m : ServerMachine) : Prop :=
  Machine.Reaches (serverSemantics cfg) (Task.handle cfg) (Machine.init s) m

end Aspectus
