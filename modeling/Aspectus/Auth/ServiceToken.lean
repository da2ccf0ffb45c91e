import Aspectus.Auth.ApiKey

/-!
This module contains the creation and verification of the service tokens of projects.
-/

namespace Aspectus

open Interaction

structure CreatedServiceToken where
  project : Project
  token : String
  tokenPrefix : String
  tokenHash : String

namespace ServiceTokenCreator

/--
The token that is made of some random bytes.
-/
def created (cfg : Config) (project : Project) (raw : List UInt8) : CreatedServiceToken :=
  let token := "st_" ++ Hex.encode raw
  {
    project := project
    token := token
    tokenPrefix := takeChars 12 token
    tokenHash := cfg.sha256Text token
  }

def create (cfg : Config) (project : Project) : App (Except CoreError CreatedServiceToken) := do
  match ← App.host .random with
  | .error e => return .error (.internal ("RNG: " ++ e))
  | .ok raw => return .ok (created cfg project raw)

end ServiceTokenCreator

namespace ServiceTokenVerifier

def cacheKey (tokenHash : String) : String :=
  "svc_token:" ++ tokenHash

/--
The answer to a row that was found in the database.
-/
def verifyStored (tokenHash : String) (token : StoredServiceToken) : App (Option Project) :=
  if token.tokenHash ≠ tokenHash then
    return none
  else if !token.isActive then
    return none
  else do
    App.cache (.set (cacheKey tokenHash) token.project.toString 60)
    return some token.project

def verify (cfg : Config) (token : String) : App (Option Project) := do
  let tokenHash := cfg.sha256Text token
  match ← App.cache (.get (cacheKey tokenHash)) with
  | some project => return Project.parse project
  | none =>
    match ← App.serviceToken (.findByHash tokenHash) with
    | .ok (some token) => verifyStored tokenHash token
    | .ok none => return none
    | .error _ => return none

/--
Invalidate the cached entry for a given token hash.
-/
def invalidateByHash (tokenHash : String) : App Unit :=
  App.cache (.del (cacheKey tokenHash))

end ServiceTokenVerifier

end Aspectus
