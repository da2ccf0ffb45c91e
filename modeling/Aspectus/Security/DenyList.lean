import Aspectus.Auth.JsonWebToken
import Aspectus.Security.Revocation

/-!
This module contains what the deny-list for JWTs achieves: how long an entry lasts compared with the
token it is about, and which tokens are entered at all.
-/

namespace Aspectus

open Interaction Prog

variable {cfg : Config} {s : Server} {draws : Nat → Draw} {token : String} {claims : JwtClaims}

namespace JwtVerifier

/--
How long an entry lasts in seconds.
-/
def denyTtl (claims : JwtClaims) (now : Instant) : Nat :=
  max (claims.exp - unsigned now.timestamp) 1

/--
A revocation that decodes its token enters it.
-/
theorem revoke_run (hdecode : cfg.decodeJwt revokeValidation s.now token = some claims)
    (hhealthy : Healthy draws)
    : (revoke cfg token).run (semantics cfg) draws s = (true, fun n => draws (n + 3),
        s.setEx (revokedKey claims.jti) (.text "1") (denyTtl claims s.now)) := by
  have hnow : ∀ d, (semantics cfg).exec (.host .now) d s = (s.now, s) := fun _ => rfl
  have hset : (semantics cfg).exec (.cache (.set (revokedKey claims.jti) "1" (denyTtl claims s.now)))
      (draws 2) s = ((), s.setEx (revokedKey claims.jti) (.text "1") (denyTtl claims s.now)) := by
    change CacheOp.exec (draws 2) s (.set _ _ _) = _
    unfold CacheOp.exec
    dsimp only
    rw [hhealthy 2]
  unfold revoke App.host App.cache
  rw [run_perform_bind, hnow]
  dsimp only
  rw [hdecode]
  dsimp only
  rw [run_perform_bind, hnow]
  dsimp only
  rw [run_perform_bind]
  change run _ _ _ ((semantics cfg).exec (.cache (.set _ _ (denyTtl claims s.now))) _ s).2 = _
  rw [hset]
  rfl

/--
A revocation that does not decode its token does nothing.
-/
theorem revoke_run_none (draws : Nat → Draw)
    (hdecode : cfg.decodeJwt revokeValidation s.now token = none)
    : (revoke cfg token).run (semantics cfg) draws s = (false, fun n => draws (n + 1), s) := by
  have hnow : (semantics cfg).exec (.host .now) (draws 0) s = (s.now, s) := rfl
  unfold revoke App.host
  rw [run_perform_bind, hnow]
  dsimp only
  rw [hdecode]
  rfl

/--
A token that does not pass the checks is inactive.
-/
theorem verify_rejected (hdecode : cfg.decodeJwt (verifyValidation cfg) s.now token = none)
    : ((verify cfg token).run (semantics cfg) draws s).1.active = false := by
  have hnow : (semantics cfg).exec (.host .now) (draws 0) s = (s.now, s) := rfl
  unfold verify App.host
  rw [run_perform_bind, hnow]
  dsimp only
  rw [hdecode]
  rfl

/--
A token that passes the checks is active unless it is in the deny-list.
-/
theorem verify_accepted (hdecode : cfg.decodeJwt (verifyValidation cfg) s.now token = some claims)
    (hhealthy : Healthy draws) (htext : ∀ value, s.cached (revokedKey claims.jti) = some value →
      ∃ text, value = .text text)
    : ((verify cfg token).run (semantics cfg) draws s).1.active
        = (s.cached (revokedKey claims.jti)).isNone := by
  have hnow : (semantics cfg).exec (.host .now) (draws 0) s = (s.now, s) := rfl
  unfold verify App.host App.cache
  rw [run_perform_bind, hnow]
  dsimp only
  rw [hdecode]
  dsimp only
  rw [run_perform_bind]
  cases hcached : s.cached (revokedKey claims.jti) with
  | none =>
    have hget : (semantics cfg).exec (.cache (.get (revokedKey claims.jti))) (draws 1) s
        = ((none : Option String), s) := by
      change CacheOp.exec (draws 1) s (.get _) = _
      unfold CacheOp.exec
      dsimp only
      rw [hhealthy 1, hcached]
    rw [hget]
    rfl
  | some value =>
    rcases htext value hcached with ⟨text, rfl⟩
    have hget : (semantics cfg).exec (.cache (.get (revokedKey claims.jti))) (draws 1) s
        = (some text, s) := by
      change CacheOp.exec (draws 1) s (.get _) = _
      unfold CacheOp.exec
      dsimp only
      rw [hhealthy 1, hcached]
    rw [hget]
    rfl

/--
An entry is gone at the latest when the token expires, or one second after it was made.
-/
theorem timestamp_add_denyTtl {now : Instant} (hclock : now.timestamp < 18446744073709551616)
    : now.timestamp + denyTtl claims now ≤ max (claims.exp : Int) (now.timestamp + 1) := by
  have hle : now.timestamp ≤ unsigned now.timestamp := by
    unfold unsigned
    omega
  unfold denyTtl
  omega

theorem denyTtl_pos (claims : JwtClaims) (now : Instant) : 0 < denyTtl claims now :=
  Nat.lt_of_lt_of_le Nat.zero_lt_one (Nat.le_max_right _ _)

theorem setEx_now (key : String) (value : CacheValue) (ttlSecs : Nat) :
    (s.setEx key value ttlSecs).now = s.now := by
  unfold Server.setEx
  split
  . rfl
  . rfl

/--
The entry is there as long as it was made for.
-/
theorem cached_setEx_advance (key : String) (value : CacheValue) {ttlSecs : Nat} (httl : 0 < ttlSecs)
    (wait : Nat)
    : ((s.setEx key value ttlSecs).advance wait).cached key
        = if wait < ttlSecs * 1000000 then some value else none := by
  unfold Server.setEx
  rw [if_neg (Nat.pos_iff_ne_zero.mp httl)]
  unfold Server.advance Server.cached CacheEntry.live
  dsimp only
  rw [Function.update_self]
  simp only [Option.all_some, decide_eq_true_eq]
  have hiff : (s.now + (wait : Int) < s.now + Instant.seconds (ttlSecs : Int))
      ↔ wait < ttlSecs * 1000000 := by
    rw [Int.add_lt_add_iff_left]
    unfold Instant.seconds
    omega
  by_cases hlt : wait < ttlSecs * 1000000
  . rw [if_pos hlt, if_pos (hiff.mpr hlt)]
  . rw [if_neg hlt, if_neg fun h => hlt (hiff.mp h)]

theorem lasts_iff {now : Int} {exp ttl bound : Nat} (hpos : 0 < ttl) (hexp : exp ≤ bound)
    (httl : now / 1000000 + ttl ≤ max (exp : Int) (now / 1000000 + 1))
    : (∀ wait : Nat, (now + wait) / 1000000 ≤ bound → wait < ttl * 1000000)
        ↔ bound * 1000000 ≤ now := by
  constructor
  . intro hlasts
    by_contra hearly
    have := hlasts (ttl * 1000000) (by omega)
    omega
  . intro hlate wait haccepted
    omega

/--
An entry outlasts everything up to `bound`, which is no earlier than the expiry of the token, if and
only if it is made at `bound` or later.
-/
theorem denyTtl_lasts_iff {now : Instant} (hclock : now.timestamp < 18446744073709551616) {bound : Nat}
    (hexp : claims.exp ≤ bound)
    : (∀ wait : Nat, Instant.timestamp (now + wait) ≤ bound → wait < denyTtl claims now * 1000000)
        ↔ Instant.seconds bound ≤ now :=
  lasts_iff (denyTtl_pos claims now) hexp (timestamp_add_denyTtl hclock)

end JwtVerifier

open JwtVerifier in
/--
The entry that a revocation makes lasts as long as the token is accepted, so that the token is inactive
from then on, if and only if the token is not revoked before it has expired and the leeway has passed.
-/
theorem deny_list_outlives_acceptance (cfg : Config) (s : Server)
    (hclock : s.now.timestamp < 18446744073709551616) (token : String) (claims : JwtClaims)
    (hrevoke : ∀ now, cfg.decodeJwt revokeValidation now token = some claims)
    (hverify : ∀ now, cfg.decodeJwt (verifyValidation cfg) now token
      = if now.timestamp ≤ claims.exp + cfg.jwtClockSkewSeconds then some claims else none)
    (draws : Nat → Draw) (hhealthy : Healthy draws) :
    ((revoke cfg token).run (semantics cfg) draws s).1 = true
    ∧ ((∀ wait : Nat,
          Instant.timestamp (s.now + wait) ≤ claims.exp + cfg.jwtClockSkewSeconds →
          (((revoke cfg token).run (semantics cfg) draws s).2.2.advance wait).cached
            (revokedKey claims.jti) ≠ none)
        ↔ Instant.seconds (claims.exp + cfg.jwtClockSkewSeconds) ≤ s.now)
    ∧ ((∀ wait draws', Healthy draws' →
          ((verify cfg token).run (semantics cfg) draws'
            (((revoke cfg token).run (semantics cfg) draws s).2.2.advance wait)).1.active = false)
        ↔ Instant.seconds (claims.exp + cfg.jwtClockSkewSeconds) ≤ s.now) := by
  have hrun := revoke_run (hrevoke s.now) hhealthy
  have hcached := cached_setEx_advance (s := s) (revokedKey claims.jti) (.text "1")
    (denyTtl_pos claims s.now)
  have hlasts := denyTtl_lasts_iff hclock
    (Nat.le_add_right claims.exp cfg.jwtClockSkewSeconds)
  simp only [Int.natCast_add] at hlasts
  rw [hrun, ← hlasts]
  dsimp only
  generalize hafter : s.setEx (revokedKey claims.jti) (.text "1") (denyTtl claims s.now) = s'
    at hcached
  have hnow : ∀ wait : Nat, (s'.advance wait).now = s.now + wait := by
    intro wait
    rw [← hafter]
    unfold Server.advance
    dsimp only
    rw [setEx_now]
  refine ⟨rfl, ?_, ?_⟩
  . apply forall_congr'
    intro wait
    rw [hcached]
    simp
  . constructor
    . intro hinactive wait haccepted
      by_contra hgone
      have hdecode := (hverify (s.now + wait)).trans (if_pos haccepted)
      rw [← hnow] at hdecode
      have hnone := (hcached wait).trans (if_neg hgone)
      have hactive := verify_accepted hdecode hhealthy fun value hvalue => by
        rw [hnone] at hvalue
        contradiction
      rw [hinactive wait draws hhealthy, hnone] at hactive
      contradiction
    . intro hlasts wait draws' hhealthy'
      by_cases haccepted : Instant.timestamp (s.now + wait) ≤ claims.exp + cfg.jwtClockSkewSeconds
      . have hdecode := (hverify (s.now + wait)).trans (if_pos haccepted)
        rw [← hnow] at hdecode
        have hsome := (hcached wait).trans (if_pos (hlasts wait haccepted))
        have hactive := verify_accepted hdecode hhealthy' (by
          rw [hsome]
          intro value hvalue
          injection hvalue with hvalue
          exact ⟨"1", hvalue.symm⟩)
        rw [hactive, hsome]
        rfl
      . have hdecode := (hverify (s.now + wait)).trans (if_neg haccepted)
        rw [← hnow] at hdecode
        exact verify_rejected hdecode

namespace Sample

def jwtClaims : JwtClaims where
  sub := userId
  tenantId := "default"
  scope := "pandaria:session:read"
  clientId := "pandaria"
  identityType := "user"
  aud := "pandaria"
  iss := "https://aspectus"
  iat := 1750000000
  exp := 1750000900
  jti := "2zGv5dEfGhIjKlMnOpQrStUvWxY"
  tenantName := none

def jwt : String :=
  "eyJ" ++ jwtClaims.jti

/--
The token is decoded whatever audience it has.
-/
def decodeLenient (v : Validation) (now : Instant) (token : String) : Option JwtClaims :=
  if token = jwt ∧ (v.validateExp = true → now.timestamp ≤ jwtClaims.exp + v.leeway) then
    some jwtClaims
  else
    none

def lenientConfig : Config :=
  { config with decodeJwt := decodeLenient }

theorem lenientConfig_revoke (now : Instant)
    : lenientConfig.decodeJwt JwtVerifier.revokeValidation now jwt = some jwtClaims := by
  simp [lenientConfig, decodeLenient, JwtVerifier.revokeValidation]

theorem lenientConfig_verify (now : Instant)
    : lenientConfig.decodeJwt (JwtVerifier.verifyValidation lenientConfig) now jwt
        = if now.timestamp ≤ jwtClaims.exp + lenientConfig.jwtClockSkewSeconds then some jwtClaims
          else none := by
  simp [lenientConfig, decodeLenient, JwtVerifier.verifyValidation]
  rfl

/--
The token has expired one minute ago.
-/
def lateServer : Server :=
  { server with now := Instant.seconds 1750000960 }

end Sample

open Sample in
/--
A token that is revoked when the leeway is about to pass is inactive from then on.
-/
theorem deny_list_outlives_acceptance_late :
    ((JwtVerifier.verify lenientConfig jwt).run (semantics lenientConfig) (fun _ => draw 2)
      (((JwtVerifier.revoke lenientConfig jwt).run (semantics lenientConfig) (fun _ => draw 1)
        lateServer).2.2.advance 500000)).1.active = false :=
  (deny_list_outlives_acceptance lenientConfig lateServer (by decide) jwt jwtClaims
    lenientConfig_revoke lenientConfig_verify (fun _ => draw 1) (fun _ => rfl)).2.2.mpr (by decide)
    500000 (fun _ => draw 2) (fun _ => rfl)

open Sample in
/--
A token that is revoked before it expires is active again when it has expired.
-/
theorem deny_list_entry_gone :
    ((JwtVerifier.revoke lenientConfig jwt).run (semantics lenientConfig) (fun _ => draw 1)
        server).1 = true
      ∧ ((JwtVerifier.verify lenientConfig jwt).run (semantics lenientConfig) (fun _ => draw 2)
        (((JwtVerifier.revoke lenientConfig jwt).run (semantics lenientConfig) (fun _ => draw 1)
          server).2.2.advance 930000000)).1.active = true := by
  decide +kernel

/--
The revocation of a token that is accepted never takes effect: nothing is written, and the token is
still accepted, although the endpoint answers with success.
-/
theorem accepted_jwt_never_revoked (cfg : Config) (payload : String → Option JwtClaims)
    (signed : String → Bool) (hjwt : DecodesJwt cfg payload signed) (s : Server) (token : String)
    (draws : Nat → Draw)
    (haccepted : ((JwtVerifier.verify cfg token).run (semantics cfg) draws s).1.active = true) :
    ((JwtVerifier.revoke cfg token).run (semantics cfg) draws s).1 = false
    ∧ ((JwtVerifier.revoke cfg token).run (semantics cfg) draws s).2.2 = s
    ∧ (startsWith token "eyJ" = true →
      ((revokeToken cfg (some token)).run (semantics cfg) draws s).1.status = 204
      ∧ ((revokeToken cfg (some token)).run (semantics cfg) draws s).2.2 = s
      ∧ ((TokenVerifier.verify cfg token).run (semantics cfg) draws
          ((revokeToken cfg (some token)).run (semantics cfg) draws s).2.2).1.active = true) := by
  have hrun := JwtVerifier.revoke_run_none draws (hjwt.revokeValidation s.now token)
  rw [hrun]
  refine ⟨rfl, rfl, fun htoken => ?_⟩
  have hne : token ≠ "" := by
    rintro rfl
    contradiction
  have hendpoint : (revokeToken cfg (some token)).run (semantics cfg) draws s
      = (.noContent, fun n => draws (n + 1), s) := by
    unfold revokeToken
    dsimp only [Option.getD_some]
    rw [if_neg hne, if_pos htoken, run_bind, hrun]
    rfl
  rw [hendpoint]
  refine ⟨rfl, rfl, ?_⟩
  unfold TokenVerifier.verify
  rw [if_pos htoken]
  exact haccepted

namespace Sample

def payload (token : String) : Option JwtClaims :=
  if token = jwt then some jwtClaims else none

def signed (token : String) : Bool :=
  token = jwt

/--
Tokens are decoded like the library does it.
-/
def jwtConfig : Config :=
  { config with decodeJwt := fun v now token =>
      (payload token).filter fun claims => v.accepts (signed token) now claims }

theorem jwtConfig_decodes : DecodesJwt jwtConfig payload signed :=
  fun _ _ _ => rfl

end Sample

open Sample in
theorem accepted_jwt_never_revoked_sample :
    ((JwtVerifier.revoke jwtConfig jwt).run (semantics jwtConfig) (fun _ => draw 1) server).1
      = false :=
  (accepted_jwt_never_revoked jwtConfig payload signed jwtConfig_decodes server jwt
    (fun _ => draw 1) (by decide +kernel)).1

open Sample in
/--
A token that is accepted is still accepted after it was revoked.
-/
theorem jwt_accepted_after_revocation :
    ((TokenVerifier.verify jwtConfig jwt).run (semantics jwtConfig) (fun _ => draw 1)
        server).1.active = true
      ∧ ((revokeToken jwtConfig (some jwt)).run (semantics jwtConfig) (fun _ => draw 2)
        server).1.status = 204
      ∧ ((TokenVerifier.verify jwtConfig jwt).run (semantics jwtConfig) (fun _ => draw 3)
        ((revokeToken jwtConfig (some jwt)).run (semantics jwtConfig) (fun _ => draw 2)
          server).2.2).1.active = true := by
  decide +kernel

/--
The token is decoded as long as it has not expired for too long.
-/
example : (Sample.jwtConfig.decodeJwt (JwtVerifier.verifyValidation Sample.jwtConfig) Sample.now
    Sample.jwt).isSome = true := by
  decide +kernel

end Aspectus
