import Aspectus.Data.FixedWindow
import Aspectus.Interaction.Run
import Aspectus.Routes.Middleware
import Aspectus.Store.Spec

/-!
This module contains how a rate limiter counts that is used alone on its keys: the counters hold how often each
key was checked in each bucket, and their deadlines cover the bucket.
-/

namespace Aspectus

open Interaction Prog

theorem rateLimitKey_injective {key key' : String} {b b' : Nat}
    (h : rateLimitKey key b = rateLimitKey key' b') : key = key' ∧ b = b' := by
  unfold rateLimitKey at h
  rcases append_colon_number h with ⟨hkey, hb⟩
  exact ⟨append_right_injective hkey, hb⟩

namespace Redis

variable (maxRequests : Int) {windowSecs : Int} {now : Instant}

/--
The check of a key without a counter makes one, and answers according to what its expiry is set to.
-/
theorem rateLimit_new {r : Result Unit} {slot : Option CacheEntry}
    (hexpire : expire now (Binary64.round windowSecs) (some ⟨.counter 1, none⟩) = (r, slot))
    : rateLimit now maxRequests windowSecs none
        =
      (r.map fun _ => if Binary64.round maxRequests < 1 then 0 else 1, slot) := by
  have hone : Binary64.round 1 = 1 := by
    decide
  unfold rateLimit incr
  dsimp only [Option.filter_none]
  rw [hone, if_pos rfl, hexpire]
  cases r with
  | error e => rfl
  | ok _ => rfl

theorem rateLimit_first (hexpirable : expirable now (Binary64.round windowSecs) = true)
    (hpos : 0 < Binary64.round windowSecs)
    : rateLimit now maxRequests windowSecs none
        =
      (.ok (if Binary64.round maxRequests < 1 then 0 else 1),
        some ⟨.counter 1, some (now + Instant.seconds (Binary64.round windowSecs))⟩) := by
  apply rateLimit_new maxRequests (r := .ok ())
  unfold expire
  rw [hexpirable, if_neg (by simp), if_neg (Int.not_le.mpr hpos)]
  rfl

/--
A time to live that is over at once removes the counter.
-/
theorem rateLimit_over (hexpirable : expirable now (Binary64.round windowSecs) = true)
    (hneg : Binary64.round windowSecs ≤ 0)
    : (rateLimit now maxRequests windowSecs none).2 = none := by
  have hexpire : expire now (Binary64.round windowSecs) (some ⟨.counter 1, none⟩) = (.ok (), none) := by
    unfold expire
    rw [hexpirable, if_neg (by simp), if_pos hneg]
  rw [rateLimit_new maxRequests hexpire]

/--
A time to live that is refused leaves a counter that never disappears.
-/
theorem rateLimit_refused (hrefused : expirable now (Binary64.round windowSecs) = false) :
    (rateLimit now maxRequests windowSecs none).2 = some ⟨.counter 1, none⟩ := by
  have hexpire : expire now (Binary64.round windowSecs) (some ⟨.counter 1, none⟩)
      = (.error "ERR invalid expire time in 'expire' command", some ⟨.counter 1, none⟩) := by
    unfold expire
    rw [hrefused]
    rfl
  rw [rateLimit_new maxRequests hexpire]

theorem filter_live {value : CacheValue} {deadline : Instant} (hlive : now < deadline) :
    (some (⟨value, some deadline⟩ : CacheEntry)).filter (fun entry => entry.live now)
      = some ⟨value, some deadline⟩ :=
  Option.filter_some_pos (decide_eq_true hlive)

/--
A check of a key that is counted already.
-/
theorem rateLimit_next (windowSecs : Int) {n : Nat} {deadline : Instant} (hlive : now < deadline) (hpos : 0 < n)
    (hroom : n < 2 ^ 63 - 1)
    : rateLimit now maxRequests windowSecs (some ⟨.counter n, some deadline⟩)
        =
      (.ok (if Binary64.round maxRequests < Binary64.round (n + 1 : Nat) then 0 else 1),
        some ⟨.counter (n + 1 : Nat), some deadline⟩) := by
  have hincr : incr now (some ⟨.counter n, some deadline⟩)
      = (.ok (n + 1 : Nat), some ⟨.counter (n + 1 : Nat), some deadline⟩) := by
    unfold incr
    rw [filter_live hlive]
    dsimp only
    rw [if_pos (by omega)]
    rfl
  have htwo : (2 : Int) ≤ Binary64.round (n + 1 : Nat) :=
    Binary64.round_natCast_le (n := 2) (by omega)
  unfold rateLimit
  rw [hincr]
  dsimp only
  rw [if_neg (by omega)]

/--
A counter does not go beyond the greatest number, the script then fails.
-/
theorem rateLimit_overflow (windowSecs : Int) {n : Nat} {deadline : Instant} (hlive : now < deadline) (hfull : 2 ^ 63 - 1 ≤ n) :
    rateLimit now maxRequests windowSecs (some ⟨.counter n, some deadline⟩)
      =
    (.error "ERR increment or decrement would overflow", some ⟨.counter n, some deadline⟩) := by
  have hincr : incr now (some ⟨.counter n, some deadline⟩)
      = (.error "ERR increment or decrement would overflow", some ⟨.counter n, some deadline⟩) := by
    unfold incr
    rw [filter_live hlive]
    dsimp only
    rw [if_neg (by omega)]
  unfold rateLimit
  rw [hincr]

end Redis

/--
A request that was checked, and whether it was within the limit.
-/
structure Check where
  key : String
  time : Instant
  allowed : Bool

namespace RateLimiter

variable (cfg : Config) (limiter : RateLimiter)

/--
The bucket of an instant.
-/
def bucket (now : Instant) : Nat :=
  now.timestamp.toNat / max limiter.windowSecs.toNat 1

/--
The length of a window.
-/
def window : Int :=
  Instant.seconds limiter.windowSecs.toNat

/--
The maximum as the script reads it.
-/
def scriptMax : Int :=
  Binary64.round limiter.maxRequests.toInt64.toInt

/--
The window as the script reads it, in seconds.
-/
def scriptTtl : Int :=
  Binary64.round limiter.windowSecs.toInt64.toInt

/--
The checks of some keys, one after the other.
-/
def checks : List (Visit String Draw) → Server → List Check
  | [], _ => []
  | v :: vs, s =>
    let (allowed, _, s') := (limiter.check v.request).run (semantics cfg) v.draws s
    ⟨v.request, s.now, allowed⟩ :: checks vs (s'.advance v.wait)

/--
The state after the checks of some keys, and the time that passed since then.
-/
def checked (vs : List (Visit String Draw)) (wait : Nat) (s : Server) : Server :=
  (serveAll (semantics cfg) limiter.check vs s).2.advance wait

/--
The checks of one key in one bucket.
-/
def inBucket (key : String) (b : Nat) (cs : List Check) : List Check :=
  cs.filter fun c => c.key = key && limiter.bucket c.time = b

/--
No counter of a limiter is stored yet.
-/
def Unused (s : Server) : Prop :=
  ∀ key b, s.redis (rateLimitKey key b) = none

/--
The deadline of a counter that is made between `first` and `last` is accepted. It is not before the end of the
bucket, and at most two windows after the bucket began.
-/
structure Covers (first last : Instant) : Prop where
  expirable : ∀ t, first ≤ t → t ≤ last → Redis.expirable t limiter.scriptTtl = true
  positive : 0 < limiter.scriptTtl
  kept : ∀ t, first ≤ t → t ≤ last →
    ((limiter.bucket t : Int) + 1) * limiter.window ≤ t + Instant.seconds limiter.scriptTtl
  gone : ∀ t, first ≤ t → t ≤ last →
    t + Instant.seconds limiter.scriptTtl ≤ ((limiter.bucket t : Int) + 2) * limiter.window

variable {cfg limiter} {s : Server}

theorem window_pos (hw : 1 ≤ limiter.windowSecs.toNat) : 0 < limiter.window := by
  unfold window Instant.seconds
  omega

/--
The buckets are the ones of fixed windows, but for everything before the epoch, which is in the first one.
-/
theorem bucket_eq (hw : 1 ≤ limiter.windowSecs.toNat) (t : Int) :
    limiter.bucket t = (t / limiter.window).toNat := by
  have hdiv : t / limiter.window = t / 1000000 / (limiter.windowSecs.toNat : Int) := by
    unfold window Instant.seconds
    rw [Int.ediv_ediv_of_nonneg (by decide), Int.mul_comm]
  unfold bucket Instant.timestamp
  rw [Nat.max_eq_left hw, hdiv]
  rcases Int.lt_or_le (t / 1000000) 0 with hneg | hnonneg
  . rw [Int.toNat_of_nonpos (Int.le_of_lt hneg), Nat.zero_div]
    have hneg' := Int.ediv_neg_of_neg_of_pos hneg (show (0 : Int) < limiter.windowSecs.toNat by omega)
    exact (Int.toNat_of_nonpos (Int.le_of_lt hneg')).symm
  . rw [← Int.toNat_natCast (_ / _), Int.natCast_ediv, Int.toNat_of_nonneg hnonneg]

theorem lt_bucket (hw : 1 ≤ limiter.windowSecs.toNat) (t : Int) :
    t < ((limiter.bucket t : Int) + 1) * limiter.window := by
  have hpos := window_pos hw
  have hlt := (FixedWindow.bucket_bounds hpos t).2
  have hle : t / limiter.window ≤ (limiter.bucket t : Int) := by
    rw [bucket_eq hw]
    exact Int.self_le_toNat _
  calc
    t < (t / limiter.window + 1) * limiter.window := hlt
    _ ≤ ((limiter.bucket t : Int) + 1) * limiter.window :=
      Int.mul_le_mul_of_nonneg_right (by omega) (Int.le_of_lt hpos)

/--
What a check makes of the answer of the script.
-/
def decision : Result Int → Bool
  | .ok allowed => decide (allowed = 1)
  | .error _ => true

/--
A check goes on with the answer of the script.
-/
theorem run_check (key : String) {draws : Nat → Draw} (hhealthy : Healthy draws) {r : Result Int}
    {slot : Option CacheEntry}
    (hscript : Redis.rateLimit s.now limiter.maxRequests.toInt64.toInt limiter.windowSecs.toInt64.toInt
      (s.redis (rateLimitKey key (limiter.bucket s.now))) = (r, slot))
    : (limiter.check key).run (semantics cfg) draws s
        =
      (decision r, fun n => draws (n + 2), { s with
        redis := Function.update s.redis (rateLimitKey key (limiter.bucket s.now)) slot }) := by
  have hnow : (semantics cfg).exec (.host .now) (draws 0) s = (s.now, s) := by
    rfl
  have hexec : (semantics cfg).exec (.cache (.checkRate key
      (s.now.timestamp.toNat / max limiter.windowSecs.toNat 1) limiter.maxRequests.toInt64.toInt
      limiter.windowSecs.toInt64.toInt)) (draws 1) s
      = (r, { s with redis := Function.update s.redis (rateLimitKey key (limiter.bucket s.now)) slot }) := by
    change CacheOp.exec (draws 1) s (.checkRate key (limiter.bucket s.now) limiter.maxRequests.toInt64.toInt
      limiter.windowSecs.toInt64.toInt) = _
    unfold CacheOp.exec
    dsimp only
    rw [hhealthy 1, hscript]
  unfold check App.host App.cache
  rw [run_perform_bind, hnow]
  dsimp only
  rw [run_perform_bind]
  dsimp only
  rw [hexec]
  cases r with
  | ok allowed => rfl
  | error e => rfl

/--
`n key b` checks of a key were counted in each bucket so far. A counter stays until its bucket is over,
and not for another window after that.
-/
structure Counts (limiter : RateLimiter) (n : String → Nat → Nat) (s : Server) : Prop where
  unused : ∀ key b, n key b = 0 → s.redis (rateLimitKey key b) = none
  used : ∀ key b, 0 < n key b → ∃ deadline : Int,
    s.redis (rateLimitKey key b) = some ⟨.counter (n key b), some deadline⟩
      ∧ ((b : Int) + 1) * limiter.window ≤ deadline ∧ deadline ≤ ((b : Int) + 2) * limiter.window

/--
The counts after one more check.
-/
def counted (n : String → Nat → Nat) (key : String) (b : Nat) (key' : String) (b' : Nat) : Nat :=
  if key' = key ∧ b' = b then n key b + 1 else n key' b'

theorem Counts.of_unused (h : Unused s) : limiter.Counts (fun _ _ => 0) s :=
  ⟨fun key b _ => h key b, fun _ _ hn => absurd hn (Nat.lt_irrefl 0)⟩

/--
A counter that was written while its bucket is current.
-/
theorem Counts.update {n : String → Nat → Nat} {b : Nat} {deadline : Int} (h : limiter.Counts n s)
    (key : String) (hkept : ((b : Int) + 1) * limiter.window ≤ deadline)
    (hgone : deadline ≤ ((b : Int) + 2) * limiter.window)
    : limiter.Counts (counted n key b) { s with
        redis := Function.update s.redis (rateLimitKey key b)
          (some ⟨.counter (n key b + 1 : Nat), some deadline⟩) } := by
  constructor
  . intro key' b' hn
    unfold counted at hn
    split at hn
    . omega
    . next hne =>
      have hkey : rateLimitKey key' b' ≠ rateLimitKey key b := fun heq =>
        hne (rateLimitKey_injective heq)
      simp only [Function.update_of_ne hkey]
      exact h.unused key' b' hn
  . intro key' b' hn
    unfold counted at hn ⊢
    split
    . next heq =>
      rcases heq with ⟨rfl, rfl⟩
      exact ⟨deadline, Function.update_self _ _ _, hkept, hgone⟩
    . next hne =>
      rw [if_neg hne] at hn
      have hkey : rateLimitKey key' b' ≠ rateLimitKey key b := fun heq =>
        hne (rateLimitKey_injective heq)
      simp only [Function.update_of_ne hkey]
      exact h.used key' b' hn

theorem decision_limit (max current : Int) :
    decision (.ok (if max < current then 0 else 1)) = decide (current ≤ max) := by
  unfold decision
  by_cases hlt : max < current
  . rw [if_pos hlt]
    simp [hlt]
  . rw [if_neg hlt]
    simp [Int.not_lt.mp hlt]

variable (cfg) in
/--
The counter of the current bucket goes up by one, the others stay as they are. The check is allowed if the
counter does not exceed the maximum.
-/
theorem Counts.check {n : String → Nat → Nat} {first last : Instant} (h : limiter.Counts n s)
    (hw : 1 ≤ limiter.windowSecs.toNat) (hcovers : limiter.Covers first last) (hfirst : first ≤ s.now)
    (hlast : s.now ≤ last) (key : String) (hroom : n key (limiter.bucket s.now) < 2 ^ 63 - 1)
    {draws : Nat → Draw} (hhealthy : Healthy draws)
    : ((limiter.check key).run (semantics cfg) draws s).1
          = decide (Binary64.round (n key (limiter.bucket s.now) + 1 : Nat) ≤ limiter.scriptMax)
        ∧ ((limiter.check key).run (semantics cfg) draws s).2.2.now = s.now
        ∧ limiter.Counts (counted n key (limiter.bucket s.now))
          ((limiter.check key).run (semantics cfg) draws s).2.2 := by
  have hcurrent := lt_bucket hw s.now
  cases hn : n key (limiter.bucket s.now) with
  | zero =>
    have hscript := Redis.rateLimit_first limiter.maxRequests.toInt64.toInt
      (hcovers.expirable s.now hfirst hlast) hcovers.positive
    rw [← h.unused key _ hn] at hscript
    rw [run_check key hhealthy hscript]
    have hupdate := h.update key (hcovers.kept s.now hfirst hlast) (hcovers.gone s.now hfirst hlast)
    rw [hn] at hupdate
    exact ⟨decision_limit _ _, rfl, hupdate⟩
  | succ k =>
    rcases h.used key (limiter.bucket s.now) (by omega) with ⟨deadline, hentry, hkept, hgone⟩
    have hlive : s.now < deadline := lt_of_lt_of_le hcurrent hkept
    have hscript := Redis.rateLimit_next limiter.maxRequests.toInt64.toInt
      limiter.windowSecs.toInt64.toInt hlive (by omega) hroom
    rw [← hentry] at hscript
    rw [run_check key hhealthy hscript, ← hn]
    exact ⟨decision_limit _ _, rfl, h.update key hkept hgone⟩

theorem checks_cons (v : Visit String Draw) (vs : List (Visit String Draw)) :
    limiter.checks cfg (v :: vs) s
      =
    ⟨v.request, s.now, ((limiter.check v.request).run (semantics cfg) v.draws s).1⟩
      :: limiter.checks cfg vs
        (((limiter.check v.request).run (semantics cfg) v.draws s).2.2.advance v.wait) := by
  rfl

theorem checks_length (vs : List (Visit String Draw)) (s : Server) :
    (limiter.checks cfg vs s).length = vs.length := by
  induction vs generalizing s with
  | nil => rfl
  | cons v vs ih => rw [checks_cons, List.length_cons, List.length_cons, ih]

/--
The checks that are counted under a key in a bucket after some checks.
-/
def countedAll (limiter : RateLimiter) (n : String → Nat → Nat) (cs : List Check) (key : String)
    (b : Nat) : Nat :=
  n key b + (limiter.inBucket key b cs).length

theorem countedAll_cons (n : String → Nat → Nat) (c : Check) (cs : List Check) :
    countedAll limiter n (c :: cs)
      =
    countedAll limiter (counted n c.key (limiter.bucket c.time)) cs := by
  funext key b
  unfold countedAll counted inBucket
  simp only [List.filter_cons, Bool.and_eq_true, decide_eq_true_eq]
  by_cases hc : key = c.key ∧ b = limiter.bucket c.time
  . rcases hc with ⟨rfl, rfl⟩
    simp
    omega
  . rw [if_neg hc, if_neg (fun heq => hc ⟨heq.1.symm, heq.2.symm⟩)]

variable (cfg limiter) in
/--
Checks of some keys that start in a state: none fails, there are at most `count` of them, and the last one is
made at `last` or before.
-/
structure Load (s : Server) (last : Instant) (count : Nat) (vs : List (Visit String Draw)) : Prop where
  healthy : ∀ v ∈ vs, Healthy v.draws
  length : vs.length ≤ count
  timely : ∀ c ∈ limiter.checks cfg vs s, c.time ≤ last

section Run

variable {n : String → Nat → Nat} {first last : Instant} {count : Nat} {v : Visit String Draw}
  {vs : List (Visit String Draw)}

theorem Load.cons (h : limiter.Load cfg s last (count + 1) (v :: vs)) :
    Healthy v.draws ∧ s.now ≤ last ∧ limiter.Load cfg
      (((limiter.check v.request).run (semantics cfg) v.draws s).2.2.advance v.wait) last count vs := by
  rcases h with ⟨hhealthy, hlength, htimely⟩
  rw [checks_cons] at htimely
  refine ⟨hhealthy v List.mem_cons_self, htimely _ List.mem_cons_self, ?_⟩
  exact ⟨fun v' hv' => hhealthy v' (List.mem_cons_of_mem _ hv'), Nat.le_of_succ_le_succ hlength,
    fun c hc => htimely c (List.mem_cons_of_mem _ hc)⟩

variable (limiter) in
/--
There is room for `count` more checks in every counter.
-/
def Room (n : String → Nat → Nat) (count : Nat) : Prop :=
  ∀ key b, n key b + count < 2 ^ 63

theorem Room.counted (h : Room n (count + 1)) (key : String) (b : Nat) :
    Room (RateLimiter.counted n key b) count := by
  intro key' b'
  have hroom := h key' b'
  have hroom' := h key b
  unfold RateLimiter.counted
  split
  . omega
  . omega

/--
What a check does, and the time that passes after it.
-/
theorem Counts.next (h : limiter.Counts n s) (hw : 1 ≤ limiter.windowSecs.toNat)
    (hcovers : limiter.Covers first last) (hfirst : first ≤ s.now) (hroom : Room n (count + 1))
    (hload : limiter.Load cfg s last (count + 1) (v :: vs))
    : ((limiter.check v.request).run (semantics cfg) v.draws s).1
          = decide (Binary64.round (n v.request (limiter.bucket s.now) + 1 : Nat) ≤ limiter.scriptMax)
        ∧ s.now ≤ (((limiter.check v.request).run (semantics cfg) v.draws s).2.2.advance v.wait).now
        ∧ limiter.Counts (counted n v.request (limiter.bucket s.now))
          (((limiter.check v.request).run (semantics cfg) v.draws s).2.2.advance v.wait) := by
  have hfree := hroom v.request (limiter.bucket s.now)
  rcases h.check cfg hw hcovers hfirst hload.cons.2.1 v.request (by omega) hload.cons.1 with
    ⟨hallowed, hnow, hcounts⟩
  refine ⟨hallowed, ?_, hcounts.unused, hcounts.used⟩
  unfold Server.advance
  rw [hnow]
  exact Int.le_add_of_nonneg_right (Int.natCast_nonneg v.wait)

/--
The counters after any number of checks.
-/
theorem Counts.checked (h : limiter.Counts n s) (hw : 1 ≤ limiter.windowSecs.toNat)
    (hcovers : limiter.Covers first last) (hfirst : first ≤ s.now) (hroom : Room n count)
    (hload : limiter.Load cfg s last count vs) (wait : Nat)
    : limiter.Counts (limiter.countedAll n (limiter.checks cfg vs s)) (limiter.checked cfg vs wait s)
        ∧ (∀ c ∈ limiter.checks cfg vs s, s.now ≤ c.time)
        ∧ s.now ≤ (limiter.checked cfg vs wait s).now := by
  induction vs generalizing n s count with
  | nil =>
    refine ⟨⟨h.unused, h.used⟩, ?_, ?_⟩
    . intro c hc
      cases hc
    . exact Int.le_add_of_nonneg_right (Int.natCast_nonneg wait)
  | cons v vs ih =>
    cases count with
    | zero => exact absurd hload.length (Nat.not_succ_le_zero _)
    | succ count =>
      rcases h.next hw hcovers hfirst hroom hload with ⟨_, hlater, hcounts⟩
      rcases ih hcounts (le_trans hfirst hlater) (hroom.counted _ _) hload.cons.2.2 with
        ⟨hafter, htimes, hnow⟩
      refine ⟨?_, ?_, le_trans hlater hnow⟩
      . rw [checks_cons, countedAll_cons]
        exact hafter
      . rw [checks_cons]
        exact List.forall_mem_cons.mpr ⟨le_refl _, fun c hc => le_trans hlater (htimes c hc)⟩

/--
The checks of a key in a bucket are allowed until the counter exceeds the maximum.
-/
theorem Counts.allowed (h : limiter.Counts n s) (hw : 1 ≤ limiter.windowSecs.toNat)
    (hcovers : limiter.Covers first last) (hfirst : first ≤ s.now) (hroom : Room n count)
    (hload : limiter.Load cfg s last count vs) (key : String) (b : Nat)
    : (limiter.inBucket key b (limiter.checks cfg vs s)).map (fun c => c.allowed)
        =
      (List.range (limiter.inBucket key b (limiter.checks cfg vs s)).length).map fun i =>
        decide (Binary64.round (n key b + i + 1 : Nat) ≤ limiter.scriptMax) := by
  induction vs generalizing n s count with
  | nil => rfl
  | cons v vs ih =>
    cases count with
    | zero => exact absurd hload.length (Nat.not_succ_le_zero _)
    | succ count =>
      rcases h.next hw hcovers hfirst hroom hload with ⟨hallowed, hlater, hcounts⟩
      have hrest := ih hcounts (le_trans hfirst hlater) (hroom.counted _ _) hload.cons.2.2
      rw [checks_cons]
      unfold inBucket at hrest ⊢
      by_cases hc : v.request = key ∧ limiter.bucket s.now = b
      . rcases hc with ⟨rfl, rfl⟩
        rw [List.filter_cons_of_pos (by simp), List.map_cons, List.length_cons, List.range_succ_eq_map,
          List.map_cons, List.map_map, hrest, hallowed]
        rw [Nat.add_zero, List.cons.injEq]
        refine ⟨rfl, ?_⟩
        apply List.map_congr_left
        intro i _
        have hsum : n v.request (limiter.bucket s.now) + 1 + i + 1
            = n v.request (limiter.bucket s.now) + Nat.succ i + 1 := by
          omega
        unfold counted
        rw [if_pos ⟨rfl, rfl⟩, hsum]
        rfl
      . rw [List.filter_cons_of_neg (by simpa using hc), hrest]
        apply List.map_congr_left
        intro i _
        unfold counted
        rw [if_neg (fun heq => hc ⟨heq.1.symm, heq.2.symm⟩)]

end Run

end RateLimiter

end Aspectus
