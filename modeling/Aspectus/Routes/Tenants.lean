import Aspectus.Interaction.Sum
import Aspectus.Routes.Service

/-!
This module contains the endpoints that create tenants and set their quotas, and the statements they add to
the ones of the other endpoints.
-/

namespace Aspectus

open Interaction

mutual

/--
All texts in a JSON value.
-/
def Json.texts : Json → List String
  | .str s => [s]
  | .arr items => itemTexts items
  | .obj fields => fieldTexts fields
  | _ => []

def Json.itemTexts : List Json → List String
  | [] => []
  | item :: items => item.texts ++ itemTexts items

def Json.fieldTexts : List (String × Json) → List String
  | [] => []
  | (key, value) :: fields => key :: value.texts ++ fieldTexts fields

end

def Json.asU64 : Json → Option Nat
  | .num n => if 0 ≤ n ∧ n < 18446744073709551616 then some n.toNat else none
  | _ => none

namespace Statement

def insertTenant (id name : String) (s : Server) : Result (Tenant × Server) := do
  let name ← varchar 128 name
  let tenant : Tenant := { name := name, logoUrl := none, quotas := .obj [] }
  let tenants ← insert "tenants_pkey" id tenant s.tenants
  return (tenant, { s with tenants := tenants })

/--
A column of type `jsonb` stores every value whose texts have no zero character.
-/
def updateQuotas (id : String) (quotas : Json) (s : Server) : Result (Nat × Server) := do
  require (quotas.texts.all storable) (dbError "unsupported Unicode escape sequence")
  return (if (s.tenants.lookup id).isSome then 1 else 0,
    { s with tenants := s.tenants.updateAt id fun tenant => { tenant with quotas := quotas } })

end Statement

inductive TenantWrite where
  | insert (id name : String)
  | updateQuotas (id : String) (quotas : Json)

@[reducible]
def TenantWrite.Res : TenantWrite → Type
  | .insert .. => Result Tenant
  | .updateQuotas .. => Result Nat

def TenantWrite.succeeded (o : TenantWrite) : o.Res → Bool := by
  cases o <;> exact Except.isOk

abbrev TenantApi : Signature where
  Op := TenantWrite
  Res := TenantWrite.Res

abbrev TenantApp (α : Type) : Type := Prog (Api.sum TenantApi) α

def TenantApp.write (o : TenantWrite) : TenantApp o.Res := Prog.right (T := TenantApi) o

def TenantWrite.exec (d : Draw) (s : Server) : (o : TenantWrite) → o.Res × Server
  | .insert id name => Statement.run d [id, name] (Statement.insertTenant id name) s
  | .updateQuotas id quotas => Statement.run d [id] (Statement.updateQuotas id quotas) s

namespace tenants

/--
Known numeric quota keys that must be non-negative integers if present.
-/
def numericQuotaKeys : List String :=
  ["monthly_tokens", "max_concurrent_sessions", "max_users", "max_api_keys", "requests_per_minute",
    "monthly_requests"]

def checkSettings (project : String) : List (String × Json) → Except CoreError Unit
  | [] => .ok ()
  | (key, value) :: settings =>
    if numericQuotaKeys.contains key && value.asU64.isNone then
      .error (.validation ("quota '" ++ project ++ "." ++ key ++ "' must be a non-negative integer"))
    else
      checkSettings project settings

def checkProjects : List (String × Json) → Except CoreError Unit
  | [] => .ok ()
  | (project, value) :: projects =>
    if (Project.parse project).isNone then
      .error (.validation ("quota key '" ++ project ++ "' is not a known project"))
    else
      match value with
      | .obj settings => do
        checkSettings project settings
        checkProjects projects
      | _ => .error (.validation ("quota for project '" ++ project ++ "' must be a JSON object"))

/--
Validate that tenant quotas are a JSON object whose top-level keys are known ecosystem projects.
-/
def validateQuotas : Json → Except CoreError Unit
  | .obj projects => checkProjects projects
  | _ => .error (.validation "quotas must be a JSON object")

def audit (action id : String) (metadata : List (String × Json)) : App Unit :=
  auditEvent {
    tenantId := id
    actorId := "mgmt"
    actorType := .serviceAccount
    action := action
    targetType := "tenant"
    targetId := id
    metadata := .obj metadata
  }

def updateQuotas (id : String) (quotas : Json) : TenantApp Response :=
  match validateQuotas quotas with
  | .error e => return (ProblemDetails.ofCoreError e).intoResponse
  | .ok () => do
    match ← TenantApp.write (.updateQuotas id quotas) with
    | .error e => return internalError e
    | .ok 0 => return notFound "Tenant not found"
    | .ok _ =>
      Prog.left (audit "quota.updated" id [("quotas", quotas)])
      return .noContent

end tenants

end Aspectus
