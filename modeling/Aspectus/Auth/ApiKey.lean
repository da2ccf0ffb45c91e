import Aspectus.Auth.Jwt

/-!
This module contains the creation and verification of API keys and opaque tokens.
-/

namespace Aspectus

open Interaction

def extractRawFromKey (token : String) : Option (List UInt8) :=
  match (stripPrefix token "pk_live_").orElse fun _ => stripPrefix token "ot_" with
  | some encoded => Hex.decode encoded
  | none => none

theorem extractRaw_key (raw : List UInt8) :
    extractRawFromKey ("pk_live_" ++ Hex.encode raw) = some raw := by
  unfold extractRawFromKey
  rw [stripPrefix_append]
  exact Hex.decode_encode raw

def buildResponse (key : ApiKey) : IntrospectResponse where
  active := true
  tenantId := some key.tenantId
  userId := some key.serviceAccountId
  identityType := some .serviceAccount
  clientId := some key.project.toString
  scope := some (join " " key.scopes)
  tokenType := some "Bearer"
  exp := key.expiresAt.map Instant.timestamp
  quotas := none
  tokenFormat := some "api_key"

/--
The time in seconds a response is cached for.
-/
def computeCacheTtl (expiresAt : Option Instant) (now : Instant) : Nat :=
  match expiresAt with
  | some exp => min ((max ((exp - now).tdiv 1000000) 0).toNat / 10) 300
  | none => 300

structure CreatedApiKey where
  id : String
  key : String
  keyPrefix : String
  project : Project
  scopes : List String
  expiresAt : Option Instant

def takeChars (n : Nat) (s : String) : String :=
  String.ofList (s.toList.take n)

namespace ApiKeyCreator

/--
Store a new credential that starts with `kind` under the hash of its random bytes.
-/
def insertNew (cfg : Config) (kind : String) (prefixLength : Nat) (tenantId serviceAccountId : String)
    (project : Project) (scopes : List String) (expiresAt : App (Option Instant)) :
    App (Except CoreError CreatedApiKey) := do
  let id ← App.host .generateId
  match ← App.host .random with
  | .error e => return .error (.internal ("RNG: " ++ e))
  | .ok raw =>
    let key := kind ++ Hex.encode raw
    let keyPrefix := takeChars prefixLength key
    let expiresAt ← expiresAt
    match ← App.key (.insert {
      id := id
      tenantId := tenantId
      serviceAccountId := serviceAccountId
      project := project
      keyHash := cfg.sha256 raw
      keyPrefix := keyPrefix
      scopes := scopes
      expiresAt := expiresAt
    }) with
    | .error e => return .error (.internal e)
    | .ok _ =>
      return .ok {
        id := id
        key := key
        keyPrefix := keyPrefix
        project := project
        scopes := scopes
        expiresAt := expiresAt
      }

def create (cfg : Config) (tenantId serviceAccountId : String) (project : Project)
    (scopes : List String) (expiresAt : Option Instant) : App (Except CoreError CreatedApiKey) :=
  insertNew cfg "pk_live_" 17 tenantId serviceAccountId project scopes (return expiresAt)

def createOpaque (cfg : Config) (tenantId serviceAccountId : String) (project : Project)
    (scopes : String) (ttlSeconds : Nat) : App (Except CoreError CreatedApiKey) :=
  insertNew cfg "ot_" 10 tenantId serviceAccountId project (splitWhitespace scopes) do
    let now ← App.host .now
    return some (now + Instant.seconds ttlSeconds)

end ApiKeyCreator

namespace ApiKeyVerifier

def cacheKey (keyHash : String) : String :=
  "introspect:" ++ keyHash

def invalidateCache (keyHash : String) : App Unit :=
  App.cache (.del (cacheKey keyHash))

/--
The answer to a cache hit, which may have expired since it was stored.
-/
def verifyCached (cached : IntrospectResponse) : App IntrospectResponse :=
  match cached.exp with
  | some exp => do
    let now ← App.host .now
    if exp < now.timestamp then
      return .inactive
    else
      return cached
  | none => return cached

/--
Answer with a key that is not expired, and cache the answer.
-/
def verifyActive (keyHash : String) (key : ApiKey) : App IntrospectResponse := do
  let response := buildResponse key
  let ttl ← match key.expiresAt with
    | some _ => do
      let now ← App.host .now
      pure (computeCacheTtl key.expiresAt now)
    | none => pure 300
  App.cache (.setJson (cacheKey keyHash) response ttl)
  return response

/--
The answer to a row that was found in the database.
-/
def verifyKey (keyHash : String) (key : ApiKey) : App IntrospectResponse :=
  if key.keyHash ≠ keyHash then
    return .inactive
  else if key.revokedAt.isSome then
    return .inactive
  else
    match key.expiresAt with
    | some exp => do
      let now ← App.host .now
      if exp < now then
        return .inactive
      else
        verifyActive keyHash key
    | none => verifyActive keyHash key

def verify (cfg : Config) (token : String) : App IntrospectResponse :=
  match extractRawFromKey token with
  | none => return .inactive
  | some raw => do
    let keyHash := cfg.sha256 raw
    match ← App.cache (.getJson (cacheKey keyHash)) with
    | some cached => verifyCached cached
    | none =>
      match ← App.key (.findByHash keyHash) with
      | .ok (some key) => verifyKey keyHash key
      | .ok none => return .inactive
      | .error _ => return .inactive

end ApiKeyVerifier

namespace TokenVerifier

/--
Dispatches token verification based on prefix.
-/
def verify (cfg : Config) (token : String) : App IntrospectResponse :=
  if startsWith token "eyJ" then
    JwtVerifier.verify cfg token
  else do
    let response ← ApiKeyVerifier.verify cfg token
    if response.active && startsWith token "ot_" then
      return { response with tokenFormat := some "opaque" }
    else
      return response

end TokenVerifier

end Aspectus
