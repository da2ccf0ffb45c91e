import Aspectus.Routes.Roles
import Aspectus.Store.Transaction

/-!
This module contains the endpoint that deletes a role, statement by statement, and the requests that may run
while its transaction is open.
-/

namespace Aspectus

open Interaction

namespace roles.deletion

def statement (o : DeletionStatement) : Prog (Api.tx Deletion) o.Res :=
  Prog.perform (S := Api.tx Deletion) (.statement o)

def commit : Prog (Api.tx Deletion) (Except String Unit) :=
  Prog.perform (S := Api.tx Deletion) .commit

def finish (id : String) (role : Role) : Prog (Api.tx Deletion) Response := do
  match ← commit with
  | .error e => return internalError e
  | .ok () =>
    (audit "" "role.deleted" id [("name", .str role.name)]).outside
    return .noContent

def deleteRows (id : String) (role : Role) : Prog (Api.tx Deletion) Response := do
  match ← statement (.deleteScopes id) with
  | .error e => return internalError e
  | .ok () =>
    match ← statement (.deleteRole id) with
    | .ok 0 => return notFound "Role not found"
    | .ok _ => finish id role
    | .error e => return internalError e

/--
Nobody holds the role if it can not be read who does.
-/
def checkAssignments (id : String) (role : Role) : Prog (Api.tx Deletion) Response := do
  let assignments := (← statement (.selectUser id)).toOption.getD []
  if !assignments.isEmpty then
    return validationFailed "Cannot delete role while it is assigned to users"
  else
    deleteRows id role

def checkRole (id : String) : Prog (Api.tx Deletion) Response := do
  match ← statement (.selectRole id) with
  | .error e => return internalError e
  | .ok none => return notFound ("Role " ++ id ++ " not found")
  | .ok (some role) =>
    if role.isSystem then
      return (ProblemDetails.forbidden "System roles cannot be deleted").intoResponse
    else
      checkAssignments id role

end roles.deletion

open roles.deletion in
/--
`DELETE /roles/{id}`
-/
def roles.deletion (id : String) : Prog (Api.tx Deletion) Response := do
  match ← statement .begin with
  | .error e => return internalError e
  | .ok () => checkRole id

/--
The requests that change who holds a role and which scopes it has.
-/
inductive RoleChange where
  | assign (userId roleId : String)
  | remove (userId roleId : String)
  | update (id : String) (req : roles.UpdateRoleRequest)

def RoleChange.handle : RoleChange → App Response
  | .assign userId roleId => roles.assign userId roleId
  | .remove userId roleId => roles.remove userId roleId
  | .update id req => roles.update id req

abbrev DeletionMachine : Type :=
  TxMachine Api Deletion Server Draw Uncommitted RoleChange Response Response

/--
The executions of the deletion of a role among changes of roles that start from `s`.
-/
abbrev DeletionMachine.Reachable (cfg : Config) (id : String) (s : Server) (t : DeletionMachine) : Prop :=
  TxMachine.Reaches (semantics cfg) transactional RoleChange.handle
    (TxMachine.init transactional (roles.deletion id) s) t

end Aspectus
