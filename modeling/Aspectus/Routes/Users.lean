import Aspectus.Routes.Auth

/-!
This module contains the endpoints that change an existing user: suspension, the change of its own
password, and the removal of a lockout.
-/

namespace Aspectus

open Interaction

def notFound (detail : String) : Response :=
  (ProblemDetails.notFound detail).intoResponse

def userNotFound (id : String) : Response :=
  notFound ("User " ++ id ++ " not found")

/--
A failed statement as the stores report it.
-/
def storeError (e : String) : Response :=
  internalError (CoreError.internal e).toString

def suspend (id : String) (suspended : Bool) : App Response := do
  match ← App.user (.setSuspended id suspended) with
  | .ok true =>
    auditEvent {
      tenantId := ""
      actorId := "mgmt"
      actorType := .serviceAccount
      action := "user.suspended"
      targetType := "user"
      targetId := id
      metadata := .obj [("suspended", .bool suspended)]
    }
    return .noContent
  | .ok false => return notFound "User not found"
  | .error e => return storeError e

structure ChangePasswordRequest where
  currentPassword : String
  newPassword : String

namespace changePassword

def changePath (id : String) : String :=
  "/users/" ++ id ++ "/change-password"

def updatePassword (id : String) (user : User) (newPassword : String) : App Response := do
  match ← App.host (.hashPassword newPassword) with
  | .error e => return internalError e
  | .ok newHash =>
    match ← App.user (.setPassword id newHash) with
    | .ok true =>
      auditAuthEvent user.tenantId id "user.password_changed" []
      return .noContent
    | .ok false => return notFound "User not found"
    | .error e => return storeError e

def checkPassword (cfg : Config) (id : String) (user : User) (req : ChangePasswordRequest) :
    App Response :=
  match user.passwordHash with
  | none => return unauthorized "No password set" (changePath id)
  | some hash =>
    match cfg.verifyPassword req.currentPassword hash with
    | .ok true => updatePassword id user req.newPassword
    | _ => return unauthorized "Current password is incorrect" (changePath id)

end changePassword

open changePassword in
def changePassword (cfg : Config) (id : String) (req : ChangePasswordRequest) : App Response := do
  match cfg.passwordPolicy.validate req.newPassword with
  | .error msg => return validationFailed msg
  | .ok () =>
    match ← App.user (.getById id) with
    | .error e => return storeError e
    | .ok none => return userNotFound id
    | .ok (some user) =>
      if user.isSuspended then
        return (ProblemDetails.forbidden "Account is suspended").intoResponse
      else
        checkPassword cfg id user req

def unlock (id : String) : App Response := do
  match ← App.user (.getById id) with
  | .error e => return storeError e
  | .ok none => return userNotFound id
  | .ok (some user) =>
    match ← App.user (.clearFailedLogins id) with
    | .ok true =>
      auditEvent {
        tenantId := user.tenantId
        actorId := "mgmt"
        actorType := .serviceAccount
        action := "user.unlocked"
        targetType := "user"
        targetId := id
        metadata := .obj [("previous_failed_attempts", .num user.failedLoginAttempts)]
      }
      return .noContent
    | .ok false => return notFound "User not found"
    | .error e => return storeError e

end Aspectus
