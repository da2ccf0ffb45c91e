import Aspectus.Interaction.Transaction
import Aspectus.Store.Semantics

/-!
This module contains the transaction that deletes a role: its statements, which rows it has deleted before it
commits, and which statements of others wait for it.
-/

namespace Aspectus

open Interaction Statement

inductive DeletionStatement where
  | begin
  | selectRole (id : String)
  /-- `SELECT user_id FROM users_roles WHERE role_id = $1 LIMIT 1` -/
  | selectUser (id : String)
  | deleteScopes (id : String)
  /-- Returns the number of rows. -/
  | deleteRole (id : String)

@[reducible]
def DeletionStatement.Res : DeletionStatement → Type
  | .begin => Result Unit
  | .selectRole .. => Result (Option Role)
  | .selectUser .. => Result (List String)
  | .deleteScopes .. => Result Unit
  | .deleteRole .. => Result Nat

def Deletion : Signature where
  Op := DeletionStatement
  Res := DeletionStatement.Res

/--
How an operation of a transaction fails: in the database, or after it was executed, if its answer is not received.
-/
inductive Failure where
  | aborts (e : String)
  | lost (e : String)

/--
The rows that were deleted in a transaction. A statement that fails in the database aborts the transaction, which
gives up its writes and its locks.
-/
structure Uncommitted where
  rolesScopes : List String
  roles : List String
  aborted : Bool

namespace Uncommitted

def none : Uncommitted :=
  ⟨[], [], false⟩

/--
The database as it is seen in the transaction.
-/
def view (w : Uncommitted) (s : Server) : Server :=
  { s with
    rolesScopes := s.rolesScopes.deleteWhere fun id _ => id ∈ w.rolesScopes
    roles := s.roles.deleteWhere fun id _ => id ∈ w.roles }

/--
What a statement answers after another one failed in the same transaction.
-/
def transactionAborted : String :=
  "error returned from database: current transaction is aborted, commands ignored until end of "
    ++ "transaction block"

/--
Execute a statement with the given text parameters in the transaction.
-/
def run {α : Type} (f : Option Failure) (params : List String) (w : Uncommitted)
    (statement : Result (α × Uncommitted)) : Result α × Uncommitted :=
  if w.aborted then
    (.error transactionAborted, w)
  else if params.all storable then
    match f, statement with
    | some (.aborts e), _ => (.error e, ⟨[], [], true⟩)
    | _, .error e => (.error e, ⟨[], [], true⟩)
    | some (.lost e), .ok (_, w') => (.error e, w')
    | .none, .ok (a, w') => (.ok a, w')
  else
    (.error (dbError "invalid byte sequence for encoding \"UTF8\": 0x00"), ⟨[], [], true⟩)

/--
`DELETE FROM roles_scopes WHERE role_id = $1`, which locks the rows.
-/
def deleteScopes (id : String) (s : Server) (w : Uncommitted) : Uncommitted :=
  { w with
    rolesScopes := w.rolesScopes
      ++ ((w.view s).rolesScopes.select fun _ rs => rs.roleId = id).map fun row => row.1 }

/--
`DELETE FROM roles WHERE id = $1`, which locks the row and checks the foreign keys that refer to it.
-/
def deleteRole (id : String) (s : Server) (w : Uncommitted) : Result (Nat × Uncommitted) :=
  match (w.view s).roles.lookup id with
  | .none => .ok (0, w)
  | some _ => do
    require (roleUsers id (w.view s)).isEmpty
      (dbError ("update or delete on table \"roles\" violates foreign key constraint "
        ++ "\"users_roles_role_id_fkey\" on table \"users_roles\""))
    require ((w.view s).rolesScopes.select fun _ rs => rs.roleId = id).isEmpty
      (dbError ("update or delete on table \"roles\" violates foreign key constraint "
        ++ "\"roles_scopes_role_id_fkey\" on table \"roles_scopes\""))
    return (1, { w with roles := id :: w.roles })

/--
A statement of others waits if it needs a row that the transaction has deleted: an `INSERT` the row it refers to
or the row with the same unique key, an `UPDATE` and a `DELETE` the row itself.
-/
def waits (o : Op) (s : Server) (w : Uncommitted) : Bool :=
  match o with
  | .role (.assign _ _ roleId) => roleId ∈ w.roles
  | .role (.assignDefault _ _ roleId) => roleId ∈ w.roles
  | .role (.addScope _ roleId scopeId) =>
    roleId ∈ w.roles || (attachments roleId scopeId s).any fun row => row.1 ∈ w.rolesScopes
  | .role (.update id ..) => id ∈ w.roles
  | .role (.deleteScopes id) =>
    (s.rolesScopes.select fun k rs => rs.roleId = id ∧ k ∈ w.rolesScopes).length ≠ 0
  | _ => false

end Uncommitted

def DeletionStatement.exec (o : DeletionStatement) (f : Option Failure) (s : Server) (w : Uncommitted) :
    o.Res × Uncommitted :=
  match o with
  | .begin => w.run f [] (.ok ((), w))
  | .selectRole id => w.run f [id] (.ok ((w.view s).roles.lookup id, w))
  | .selectUser id => w.run f [id] (.ok ((roleUsers id (w.view s)).take 1, w))
  | .deleteScopes id => w.run f [id] (.ok ((), w.deleteScopes id s))
  | .deleteRole id => w.run f [id] (w.deleteRole id s)

/--
Only a commit makes the writes visible, also if its answer is not received. After the transaction was aborted there
are none.
-/
def transactional : Transactional Api Deletion Server (Option Failure) Uncommitted where
  empty := .none
  exec := DeletionStatement.exec
  commit f _ :=
    match f with
    | some (.aborts e) => .failed e
    | some (.lost e) => .lost e
    | none => .done
  apply := Uncommitted.view
  waits := Uncommitted.waits

end Aspectus
