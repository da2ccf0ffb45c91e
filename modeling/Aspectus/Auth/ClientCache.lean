import Aspectus.Auth.Client
import Aspectus.Interaction.Blocking
import Aspectus.Interaction.Run

/-!
This module contains the calls of a client that share one cache of the key. The key and the time of its last
refresh are behind a lock each, and calls run at the same time.
-/

namespace Aspectus
namespace Client

open Interaction

variable {Key : Type}

/--
What all calls of a client share. The lock of the key is held from the storing of a key to the end of its
fetch, the other guards are never held across an `await`.
-/
structure Shared (Key : Type) where
  cache : JwtVerifier Key
  keyHeld : Bool
  now : Instant

inductive JwksOp (Key : Type) where
  | readLastRefresh
  | readKey
  | getJwks
  | writeKey (key : Key)
  | writeLastRefresh
  | release
  | decode (key : Key) (token : String)

namespace JwksOp

/--
The time of the last refresh comes with the time it is read at.
-/
def Res : JwksOp Key → Type
  | .readLastRefresh => Option Instant × Instant
  | .readKey => Option Key
  | .getJwks => Except String JwksReply
  | .writeKey _ => Unit
  | .writeLastRefresh => Unit
  | .release => Unit
  | .decode _ _ => Except String JwtClaims

/--
Only the reply of the server is drawn.
-/
def exec (lib : Library Key) : (o : JwksOp Key) → Except String JwksReply → Shared Key →
    o.Res × Shared Key
  | .readLastRefresh, _, s => ((s.cache.lastRefresh, s.now), s)
  | .readKey, _, s => (s.cache.decodingKey, s)
  | .getJwks, reply, s => (reply, s)
  | .writeKey key, _, s =>
    ((), { s with cache := { s.cache with decodingKey := some key }, keyHeld := true })
  | .writeLastRefresh, _, s => ((), { s with cache := { s.cache with lastRefresh := some s.now } })
  | .release, _, s => ((), { s with keyHeld := false })
  | .decode key token, _, s => (lib.decode JwtVerifier.validation key s.now token, s)

/--
Whether the operation does not have to wait for the lock of the key.
-/
def enabled : JwksOp Key → Shared Key → Bool
  | .readKey, s => !s.keyHeld
  | .writeKey _, s => !s.keyHeld
  | _, _ => true

end JwksOp

def Shared.advance (n : Nat) (s : Shared Key) : Shared Key :=
  { s with now := s.now + (n : Int) }

/--
A client before its first call.
-/
def Shared.new (now : Instant) : Shared Key where
  cache := ⟨none, none⟩
  keyHeld := false
  now := now

abbrev Jwks (Key : Type) : Signature where
  Op := JwksOp Key
  Res := JwksOp.Res

abbrev JwksProg (Key α : Type) := Prog (Jwks Key) α

def jwks (o : JwksOp Key) : JwksProg Key o.Res := Prog.perform (S := Jwks Key) o

def jwksSemantics (lib : Library Key) :
    Semantics (Jwks Key) (Shared Key) (Except String JwksReply) where
  exec := JwksOp.exec lib
  advance := Shared.advance

/--
The key of a reply, the first one for RS256.
-/
def newKey (lib : Library Key) (reply : Except String JwksReply) : Except ClientError Key :=
  match reply with
  | .error e => .error (.jwksFetch e)
  | .ok reply =>
    if ¬(200 ≤ reply.status ∧ reply.status < 300) then
      .error (.jwksFetch ("HTTP " ++ toString reply.status))
    else
      match reply.keys with
      | .error e => .error (.jwksFetch ("Failed to parse JWKS: " ++ e))
      | .ok keys =>
        match keys.find? fun key => key.alg = some "RS256" with
        | none => .error .jwksInvalid
        | some key =>
          match lib.fromRsaComponents key.n key.e with
          | .error e => .error (.jwtVerify ("Invalid JWK: " ++ e))
          | .ok key => .ok key

variable (lib : Library Key)

def fetchJwks : JwksProg Key (Except ClientError Unit) := do
  match newKey lib (← jwks .getJwks) with
  | .error e => return .error e
  | .ok key =>
    let _ ← jwks (.writeKey key)
    let _ ← jwks .writeLastRefresh
    let _ ← jwks .release
    return .ok ()

def ensureJwks : JwksProg Key (Except ClientError Unit) := do
  let (lastRefresh, now) ← jwks .readLastRefresh
  let needsRefresh := (⟨none, lastRefresh⟩ : JwtVerifier Key).needsRefresh now
  if needsRefresh then
    let keyExists := (← jwks .readKey).isSome
    if !keyExists || needsRefresh then fetchJwks lib else return .ok ()
  else return .ok ()

def verify (token : String) : JwksProg Key (Except ClientError IntrospectResponse) := do
  match ← ensureJwks lib with
  | .error e => return .error e
  | .ok () =>
    match ← jwks .readKey with
    | none => return .error (.jwtVerify "No JWKS key available")
    | some key =>
      match ← jwks (.decode key token) with
      | .error e => return .error (.jwtVerify e)
      | .ok claims => return .ok (JwtVerifier.report claims)

/--
The calls that use the cache, a refresh fetches the key in any case.
-/
inductive Call where
  | verify (token : String)
  | refreshJwks
deriving DecidableEq

inductive Answer where
  | verified (r : Except ClientError IntrospectResponse)
  | refreshed (r : Except ClientError Unit)

def handler : Call → JwksProg Key Answer
  | .verify token => do return .verified (← verify lib token)
  | .refreshJwks => do return .refreshed (← fetchJwks lib)

/--
A fetch without locks stores the key of the reply and the time.
-/
theorem fetchJwks_eq (reply : Except String JwksReply) (now : Instant) :
    JwtVerifier.fetchJwks lib reply now
      =
    (newKey lib reply).map fun key => ⟨some key, some now⟩ := by
  unfold JwtVerifier.fetchJwks newKey
  cases reply with
  | error e => rfl
  | ok reply =>
    dsimp only
    split
    . rfl
    . cases hkeys : reply.keys with
      | error e => rfl
      | ok keys =>
        cases hfind : keys.find? fun key => key.alg = some "RS256" with
        | none => simp only [hfind, Except.map]
        | some key =>
          cases hkey : lib.fromRsaComponents key.n key.e with
          | error e => simp only [hfind, hkey, Except.map]
          | ok key => simp only [hfind, hkey, Except.map]

theorem fetchJwks_run (draws : Nat → Except String JwksReply) (verifier : JwtVerifier Key)
    (now : Instant)
    : ((fetchJwks lib).run (jwksSemantics lib) draws ⟨verifier, false, now⟩).1
          = (JwtVerifier.fetchJwks lib (draws 0) now).map (fun _ => ())
        ∧ ((fetchJwks lib).run (jwksSemantics lib) draws ⟨verifier, false, now⟩).2.2
          = ⟨(JwtVerifier.fetchJwks lib (draws 0) now).toOption.getD verifier, false, now⟩ := by
  rw [fetchJwks_eq]
  unfold fetchJwks jwks
  rw [Prog.run_perform_bind]
  simp only [jwksSemantics, JwksOp.exec]
  cases hkey : newKey lib (draws 0) with
  | error e => exact ⟨rfl, rfl⟩
  | ok key => exact ⟨rfl, rfl⟩

theorem ensureJwks_run (draws : Nat → Except String JwksReply) (verifier : JwtVerifier Key)
    (now : Instant)
    : ((ensureJwks lib).run (jwksSemantics lib) draws ⟨verifier, false, now⟩).1
          = (verifier.ensureJwks lib (draws 2) now).map (fun _ => ())
        ∧ ((ensureJwks lib).run (jwksSemantics lib) draws ⟨verifier, false, now⟩).2.2
          = ⟨(verifier.ensureJwks lib (draws 2) now).toOption.getD verifier, false, now⟩ := by
  unfold ensureJwks jwks JwtVerifier.ensureJwks
  rw [Prog.run_perform_bind]
  have hsame : (⟨none, verifier.lastRefresh⟩ : JwtVerifier Key).needsRefresh now
      = verifier.needsRefresh now := rfl
  simp only [jwksSemantics, JwksOp.exec, hsame]
  cases verifier.needsRefresh now with
  | false => exact ⟨rfl, rfl⟩
  | true =>
    rw [if_pos rfl, if_pos rfl, Prog.run_perform_bind]
    simp only [Bool.or_true, if_true]
    exact fetchJwks_run lib (fun n => draws (n + 2)) verifier now

/--
A call that runs on its own verifies the token like a verifier that is not shared.
-/
theorem verify_run (token : String) (draws : Nat → Except String JwksReply) (verifier : JwtVerifier Key)
    (now : Instant)
    : ((verify lib token).run (jwksSemantics lib) draws ⟨verifier, false, now⟩).1
          = (verifier.verify lib (draws 2) now token).1
        ∧ ((verify lib token).run (jwksSemantics lib) draws ⟨verifier, false, now⟩).2.2
          = ⟨(verifier.verify lib (draws 2) now token).2, false, now⟩ := by
  rcases ensureJwks_run lib draws verifier now with ⟨hresult, hshared⟩
  unfold verify jwks JwtVerifier.verify
  rw [Prog.run_bind, hresult, hshared]
  cases verifier.ensureJwks lib (draws 2) now with
  | error e => exact ⟨rfl, rfl⟩
  | ok verifier' =>
    simp only [Except.map, Except.toOption, Option.getD_some]
    rw [Prog.run_perform_bind]
    simp only [jwksSemantics, JwksOp.exec]
    cases verifier'.decodingKey with
    | none => exact ⟨rfl, rfl⟩
    | some key =>
      dsimp only
      rw [Prog.run_perform_bind]
      simp only [JwksOp.exec]
      cases lib.decode JwtVerifier.validation key now token with
      | error e => exact ⟨rfl, rfl⟩
      | ok claims => exact ⟨rfl, rfl⟩

end Client
end Aspectus
