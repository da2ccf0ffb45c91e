import Aspectus.Security.Counting
import Aspectus.Security.Sample

/-!
This module contains how many requests a rate limiter lets through if it is used alone on its keys.
-/

namespace Aspectus

open Interaction Prog

namespace RateLimiter

variable (cfg : Config) (limiter : RateLimiter)

/--
What a rate limiter promises about the checks of some keys.
-/
structure Limited (s : Server) (vs : List (Visit String Draw)) : Prop where
  /-- In any interval as long as the window at most twice the maximum is allowed. -/
  interval : ∀ key t, (limiter.checks cfg vs s).countP (fun c =>
    (decide (c.key = key) && c.allowed) && decide (t ≤ c.time ∧ c.time ≤ t + limiter.window))
      ≤ 2 * limiter.maxRequests.toNat
  /-- In a bucket precisely the first checks are allowed. -/
  first : ∀ key b, ((limiter.inBucket key b (limiter.checks cfg vs s)).map fun c => c.allowed)
    = (List.range (limiter.inBucket key b (limiter.checks cfg vs s)).length).map
      fun i => decide (i < limiter.maxRequests.toNat)
  /-- As long as a bucket is current, its counter is not removed. -/
  kept : ∀ wait, ∀ c ∈ limiter.checks cfg vs s,
    limiter.bucket c.time = limiter.bucket (limiter.checked cfg vs wait s).now →
      (limiter.checked cfg vs wait s).cached (rateLimitKey c.key (limiter.bucket c.time)) ≠ none
  /-- A counter is gone two windows after its bucket began. -/
  removed : ∀ wait key (b : Nat),
    (limiter.checked cfg vs wait s).cached (rateLimitKey key b) ≠ none →
      (limiter.checked cfg vs wait s).now < b * limiter.window + 2 * limiter.window

/--
The promise is kept by all checks from `s` on, as long as there are at most `count` of them, and none of them
is made after `last`.
-/
def Bounded (s : Server) (last : Instant) (count : Nat) : Prop :=
  ∀ delay vs, limiter.Load cfg (s.advance delay) last count vs → limiter.Limited cfg (s.advance delay) vs

/--
The numbers of a limiter are ones that the script can work with.
-/
structure Fits (first last : Instant) (count : Nat) : Prop where
  /-- The maximum does not become negative when it is cast. -/
  max : limiter.maxRequests.toNat < 2 ^ 63
  /-- If the maximum is exceeded, then the next number is told from it. -/
  distinct : limiter.maxRequests.toNat < count →
    Binary64.round limiter.maxRequests.toNat < Binary64.round (limiter.maxRequests.toNat + 1 : Nat)
  /-- The counters do not overflow. -/
  counter : count < 2 ^ 63
  /-- `EXPIRE` accepts the window up to the last check. -/
  expirable : Redis.expirable last limiter.scriptTtl = true
  positive : 0 < limiter.scriptTtl
  /-- A counter that is made with the first check stays until the first window is over. -/
  covered : limiter.window ≤ first + Instant.seconds limiter.scriptTtl

end RateLimiter

/--
A number that is cast keeps its value if it is small enough, and becomes negative otherwise.
-/
theorem toInt_cast (n : UInt64) :
    (n.toNat < 2 ^ 63 ∧ n.toInt64.toInt = n.toNat) ∨ (¬n.toNat < 2 ^ 63 ∧ n.toInt64.toInt < 0) := by
  have hlt := n.toNat_lt
  have hcast : n.toInt64.toInt = n.toBitVec.toInt := by
    rfl
  have hnat : n.toBitVec.toNat = n.toNat := by
    rfl
  rw [hcast, BitVec.toInt_eq_toNat_cond, hnat]
  split <;> omega

namespace RateLimiter

variable {cfg : Config} {limiter : RateLimiter} {s : Server} {first last : Instant} {count : Nat}

theorem scriptMax_eq (hmax : limiter.maxRequests.toNat < 2 ^ 63) :
    limiter.scriptMax = Binary64.round limiter.maxRequests.toNat := by
  unfold scriptMax
  rcases toInt_cast limiter.maxRequests with ⟨_, hcast⟩ | ⟨hge, _⟩
  . rw [hcast]
  . contradiction

theorem expirable_iff {now : Instant} {ttlSecs : Int} :
    Redis.expirable now ttlSecs = true
      ↔
    -9223372036854775 ≤ ttlSecs ∧ ttlSecs ≤ 9223372036854775
      ∧ ttlSecs * 1000 ≤ 9223372036854775807 - now / 1000 := by
  unfold Redis.expirable
  simp [and_assoc]

/--
What is accepted at some time was accepted before.
-/
theorem expirable_of_le {now now' : Int} {ttlSecs : Int} (h : now ≤ now')
    (hexpirable : Redis.expirable now' ttlSecs = true) : Redis.expirable now ttlSecs = true := by
  rcases expirable_iff.mp hexpirable with ⟨hlow, hhigh, hbase⟩
  have hle : now / 1000 ≤ now' / 1000 := Int.ediv_le_ediv (by decide) h
  exact expirable_iff.mpr ⟨hlow, hhigh, by omega⟩

/--
A window that is accepted is rounded by at most one second, and not at all if it is small.
-/
theorem scriptTtl_near (hexpirable : Redis.expirable last limiter.scriptTtl = true)
    (hpos : 0 < limiter.scriptTtl)
    : limiter.scriptTtl ≤ limiter.windowSecs.toNat + 1
        ∧ (limiter.windowSecs.toNat : Int) ≤ limiter.scriptTtl + 1
        ∧ (limiter.windowSecs.toNat < 2 ^ 53 → limiter.scriptTtl = limiter.windowSecs.toNat) := by
  have hround : limiter.scriptTtl = Binary64.roundNat limiter.windowSecs.toNat := by
    unfold scriptTtl at hpos ⊢
    rcases toInt_cast limiter.windowSecs with ⟨_, hcast⟩ | ⟨_, hneg⟩
    . rw [hcast, Binary64.round_natCast]
    . exact absurd (Binary64.round_nonpos (Int.le_of_lt hneg)) (Int.not_le.mpr hpos)
  have hhigh := (expirable_iff.mp hexpirable).2.1
  have hsmall : limiter.windowSecs.toNat < 2 ^ 54 := by
    by_contra hlarge
    have hmono := Binary64.roundNat_mono (Nat.not_lt.mp hlarge)
    have hsame : Binary64.roundNat (2 ^ 54) = 2 ^ 54 := by
      decide
    omega
  have hunit : Binary64.unit limiter.windowSecs.toNat ≤ 2 := by
    by_cases hzero : limiter.windowSecs.toNat = 0
    . rw [hzero]
      decide
    . have hlog := (Nat.log2_lt hzero).mpr hsmall
      exact Nat.pow_le_pow_right (by decide) (show _ ≤ 1 by omega)
  have hnear := Binary64.roundNat_near limiter.windowSecs.toNat
  refine ⟨by omega, by omega, ?_⟩
  intro hlt
  rw [hround, Binary64.roundNat_of_lt hlt]

/--
If the deadline of the first counter is late enough, then so are all others.
-/
theorem covers_of (hw : 1 ≤ limiter.windowSecs.toNat)
    (hexpirable : Redis.expirable last limiter.scriptTtl = true) (hpos : 0 < limiter.scriptTtl)
    (hcovered : limiter.window ≤ first + Instant.seconds limiter.scriptTtl) : limiter.Covers first last := by
  rcases scriptTtl_near hexpirable hpos with ⟨hupper, hlower, hexact⟩
  by_cases hsmall : limiter.windowSecs.toNat < 2 ^ 53
  . -- The window is exact, so the first check is not before the epoch.
    have hsame : Instant.seconds limiter.scriptTtl = limiter.window := by
      rw [hexact hsmall]
      rfl
    rw [hsame] at hcovered
    have hbegun : ∀ t : Int, first ≤ t → (limiter.bucket t : Int) * limiter.window ≤ t := by
      intro t hfirst
      have hnonneg : 0 ≤ t := le_trans (show (0 : Int) ≤ first by linarith) hfirst
      rw [bucket_eq hw, Int.toNat_of_nonneg (Int.ediv_nonneg hnonneg (Int.le_of_lt (window_pos hw)))]
      exact (FixedWindow.bucket_bounds (window_pos hw) t).1
    refine ⟨fun t _ hlast => expirable_of_le hlast hexpirable, hpos, ?_, ?_⟩
    . intro t hfirst _
      have h := hbegun t hfirst
      rw [hsame]
      linarith
    . intro t hfirst _
      have h := lt_bucket hw t
      rw [hsame]
      linarith
  . -- The clock is still in the first bucket, otherwise such a window would not be accepted.
    have hbase := (expirable_iff.mp hexpirable).2.2
    have hwindow : limiter.window = limiter.windowSecs.toNat * 1000000 := by
      rfl
    have hseconds : Instant.seconds limiter.scriptTtl = limiter.scriptTtl * 1000000 := by
      rfl
    have hearly : ∀ t : Int, t ≤ last → t < limiter.window ∧ t + Instant.seconds limiter.scriptTtl
        ≤ 2 * limiter.window := by
      intro t hlast
      have hle : t / 1000 ≤ last / 1000 := Int.ediv_le_ediv (by decide) hlast
      rw [hwindow, hseconds]
      omega
    have hzero : ∀ t : Int, t ≤ last → limiter.bucket t = 0 := by
      intro t hlast
      rw [bucket_eq hw]
      have hdiv := Int.ediv_lt_of_lt_mul (window_pos hw)
        (show t < 1 * limiter.window by linarith [(hearly t hlast).1])
      omega
    refine ⟨fun t _ hlast => expirable_of_le hlast hexpirable, hpos, ?_, ?_⟩
    . intro t hfirst hlast
      rw [hzero t hlast, Int.natCast_zero, Int.zero_add, Int.one_mul]
      exact le_trans hcovered (Int.add_le_add_right hfirst _)
    . intro t hfirst hlast
      rw [hzero t hlast, Int.natCast_zero, Int.zero_add]
      exact (hearly t hlast).2

/--
The script counts as the limiter promises.
-/
theorem Fits.allowed_iff (h : limiter.Fits first last count) {i : Nat} (hi : i < count) :
    Binary64.round (i + 1 : Nat) ≤ limiter.scriptMax ↔ i < limiter.maxRequests.toNat := by
  rw [scriptMax_eq h.max]
  constructor
  . intro hle
    by_contra hge
    have hlt := h.distinct (by omega)
    have hmono := Binary64.round_natCast_le
      (show limiter.maxRequests.toNat + 1 ≤ i + 1 by omega)
    omega
  . exact fun hlt => Binary64.round_natCast_le hlt

/--
A limiter whose numbers fit keeps its promise.
-/
theorem Fits.limited (h : limiter.Fits s.now last count) (hw : 1 ≤ limiter.windowSecs.toNat)
    (hunused : Unused s) {delay : Nat} {vs : List (Visit String Draw)}
    (hload : limiter.Load cfg (s.advance delay) last count vs) : limiter.Limited cfg (s.advance delay) vs := by
  have hcounts : limiter.Counts (fun _ _ => 0) (s.advance delay) := Counts.of_unused hunused
  have hcovers : limiter.Covers s.now last := covers_of hw h.expirable h.positive h.covered
  have hstart : s.now ≤ (s.advance delay).now := Int.le_add_of_nonneg_right (Int.natCast_nonneg delay)
  have hroom : Room (fun _ _ => 0) count := fun _ _ => by
    rw [Nat.zero_add]
    exact h.counter
  have hfirst : ∀ key b, ((limiter.inBucket key b (limiter.checks cfg vs (s.advance delay))).map fun c => c.allowed)
      = (List.range (limiter.inBucket key b (limiter.checks cfg vs (s.advance delay))).length).map
        fun i => decide (i < limiter.maxRequests.toNat) := by
    intro key b
    rw [hcounts.allowed hw hcovers hstart hroom hload key b]
    apply List.map_congr_left
    intro i hi
    have hlength : (limiter.inBucket key b (limiter.checks cfg vs (s.advance delay))).length ≤ vs.length :=
      Nat.le_trans (List.length_filter_le _ _) (Nat.le_of_eq (checks_length vs _))
    rw [Nat.zero_add]
    exact decide_eq_decide.mpr
      (h.allowed_iff (Nat.lt_of_lt_of_le (List.mem_range.mp hi) (Nat.le_trans hlength hload.length)))
  constructor
  . intro key t
    apply FixedWindow.countP_interval_le (window_pos hw)
    intro b
    calc
      (limiter.checks cfg vs (s.advance delay)).countP (fun c =>
          (decide (c.key = key) && c.allowed) && decide (c.time / limiter.window = b))
        ≤ (limiter.checks cfg vs (s.advance delay)).countP (fun c =>
          c.allowed && (decide (c.key = key) && decide (limiter.bucket c.time = b.toNat))) := by
        apply List.countP_mono_left
        intro c _ hc
        simp only [Bool.and_eq_true, decide_eq_true_eq] at hc ⊢
        exact ⟨hc.1.2, hc.1.1, by rw [bucket_eq hw, hc.2]⟩
      _ = ((limiter.inBucket key b.toNat (limiter.checks cfg vs (s.advance delay))).map
          fun c => c.allowed).count true := by
        unfold inBucket
        rw [← List.countP_filter, List.count, List.countP_map]
        apply List.countP_congr
        intro c _
        simp
      _ ≤ limiter.maxRequests.toNat := by
        rw [hfirst key b.toNat]
        apply FixedWindow.count_first_le
  . exact hfirst
  . intro wait c hc hcurrent
    rcases hcounts.checked hw hcovers hstart hroom hload wait with ⟨hafter, _, _⟩
    have hmem : c ∈ limiter.inBucket c.key (limiter.bucket c.time) (limiter.checks cfg vs (s.advance delay)) :=
      List.mem_filter.mpr ⟨hc, by simp⟩
    have hpos := List.length_pos_of_mem hmem
    rcases hafter.used c.key (limiter.bucket c.time) (by unfold countedAll; omega) with
      ⟨deadline, hentry, hkept, _⟩
    have hlive := lt_bucket hw (limiter.checked cfg vs wait (s.advance delay)).now
    rw [← hcurrent] at hlive
    have hcached := Server.cached_eq_some.mpr
      ⟨_, hentry, decide_eq_true (lt_of_lt_of_le hlive hkept), rfl⟩
    rw [hcached]
    exact Option.some_ne_none _
  . intro wait key b hcached
    rcases hcounts.checked hw hcovers hstart hroom hload wait with ⟨hafter, _, _⟩
    rcases Option.ne_none_iff_exists'.mp hcached with ⟨value, hvalue⟩
    rcases Server.cached_eq_some.mp hvalue with ⟨entry, hentry, hlive, _⟩
    rcases Nat.eq_zero_or_pos
      (limiter.countedAll (fun _ _ => 0) (limiter.checks cfg vs (s.advance delay)) key b) with hzero | hpos
    . rw [hafter.unused key b hzero] at hentry
      contradiction
    . rcases hafter.used key b hpos with ⟨deadline, hentry', _, hgone⟩
      rw [hentry'] at hentry
      injection hentry with hentry
      subst hentry
      have hdeadline : (limiter.checked cfg vs wait (s.advance delay)).now < deadline :=
        of_decide_eq_true hlive
      linarith

/--
A check of some key without faults.
-/
def visit : Visit String Draw :=
  ⟨"", fun _ => ⟨none, none, Vector.replicate 32 0, "", "", 0⟩, 0⟩

theorem visit_healthy : Healthy visit.draws := by
  intro n
  rfl

theorem check_now (key : String) {draws : Nat → Draw} (hhealthy : Healthy draws) :
    ((limiter.check key).run (semantics cfg) draws s).2.2.now = s.now := by
  rw [run_check key hhealthy rfl]

/--
Checks that are made at once.
-/
theorem checks_replicate (k : Nat) (s : Server) :
    ∀ c ∈ limiter.checks cfg (List.replicate k visit) s, c.key = "" ∧ c.time = s.now := by
  induction k generalizing s with
  | zero =>
    intro c hc
    contradiction
  | succ k ih =>
    rw [List.replicate_succ, checks_cons]
    refine List.forall_mem_cons.mpr ⟨⟨rfl, rfl⟩, fun c hc => ?_⟩
    rcases ih _ c hc with ⟨hkey, htime⟩
    refine ⟨hkey, htime.trans ?_⟩
    change ((limiter.check visit.request).run (semantics cfg) visit.draws s).2.2.now + 0 = s.now
    rw [check_now _ visit_healthy, Int.add_zero]

variable (cfg) in
theorem load_replicate {k : Nat} (hk : k ≤ count) (hlast : s.now ≤ last) :
    limiter.Load cfg s last count (List.replicate k visit) := by
  refine ⟨?_, ?_, ?_⟩
  . intro v hv
    rw [List.eq_of_mem_replicate hv]
    exact visit_healthy
  . rw [List.length_replicate]
    exact hk
  . intro c hc
    rw [(checks_replicate k s c hc).2]
    exact hlast

variable (cfg limiter) in
theorem checked_replicate_now (k : Nat) (s : Server) :
    (limiter.checked cfg (List.replicate k visit) 0 s).now = s.now := by
  unfold checked
  rw [Server.advance_zero]
  induction k generalizing s with
  | zero => rfl
  | succ k ih =>
    rw [List.replicate_succ, serveAll_cons]
    dsimp only
    rw [ih]
    change ((limiter.check visit.request).run (semantics cfg) visit.draws s).2.2.now + 0 = s.now
    rw [check_now _ visit_healthy, Int.add_zero]

theorem checks_append (vs vs' : List (Visit String Draw)) (s : Server) :
    limiter.checks cfg (vs ++ vs') s = limiter.checks cfg vs s
      ++ limiter.checks cfg vs' (limiter.checked cfg vs 0 s) := by
  induction vs generalizing s with
  | nil =>
    unfold checked
    rw [serveAll_nil, Server.advance_zero]
    rfl
  | cons v vs ih =>
    rw [List.cons_append, checks_cons, checks_cons, ih]
    rfl

theorem inBucket_replicate (k : Nat) (s : Server) :
    limiter.inBucket "" (limiter.bucket s.now) (limiter.checks cfg (List.replicate k visit) s)
      = limiter.checks cfg (List.replicate k visit) s := by
  apply List.filter_eq_self.mpr
  intro c hc
  rcases checks_replicate k s c hc with ⟨hkey, htime⟩
  simp [hkey, htime]

variable (cfg) in
/--
A check leaves what the script leaves.
-/
theorem checked_visit {slot : Option CacheEntry} (hunused : Unused s)
    (hscript : (Redis.rateLimit s.now limiter.maxRequests.toInt64.toInt limiter.windowSecs.toInt64.toInt
      none).2 = slot) (wait : Nat)
    : (limiter.checked cfg [visit] wait s).now = s.now + wait
        ∧ (limiter.checked cfg [visit] wait s).redis (rateLimitKey "" (limiter.bucket s.now)) = slot := by
  unfold checked
  rw [serveAll_cons, run_check visit.request visit_healthy rfl, serveAll_nil, hunused]
  constructor
  . change s.now + 0 + (wait : Int) = s.now + wait
    rw [Int.add_zero]
  . rw [← hscript]
    exact Function.update_self _ _ _

/--
A counter without a deadline is never removed.
-/
theorem Bounded.expirable (h : limiter.Bounded cfg s last count) (hcount : 0 < count) (hunused : Unused s)
    (hlast : s.now ≤ last) : Redis.expirable last limiter.scriptTtl = true := by
  by_contra hrefused
  rw [Bool.not_eq_true] at hrefused
  have hdelay : (s.advance (last - s.now).toNat).now = last := by
    change s.now + ((last - s.now).toNat : Int) = last
    rw [Int.toNat_of_nonneg (Int.sub_nonneg.mpr hlast)]
    exact add_sub_cancel s.now last
  generalize hs : s.advance (last - s.now).toNat = s' at hdelay
  have hunused' : Unused s' := hs ▸ hunused
  rw [← hdelay] at hrefused
  have hscript := Redis.rateLimit_refused limiter.maxRequests.toInt64.toInt hrefused
  have hload : limiter.Load cfg s' last count [visit] :=
    load_replicate cfg (k := 1) hcount (Int.le_of_eq hdelay)
  generalize hwait : ((limiter.bucket s'.now : Int) * limiter.window + 2 * limiter.window - s'.now).toNat
    = wait
  rcases checked_visit cfg hunused' hscript wait with ⟨hnow, hslot⟩
  have hcached := Server.cached_eq_some.mpr ⟨_, hslot, rfl, rfl⟩
  have hremoved := (h _ _ (hs ▸ hload)).removed wait "" (limiter.bucket s'.now)
  rw [hs, hcached, hnow] at hremoved
  have hlt := hremoved (Option.some_ne_none _)
  have hself := Int.self_le_toNat
    ((limiter.bucket s'.now : Int) * limiter.window + 2 * limiter.window - s'.now)
  rw [hwait] at hself
  have hle : (limiter.bucket s'.now : Int) * limiter.window + 2 * limiter.window ≤ s'.now + wait := by
    linarith
  exact absurd hlt (Int.not_lt.mpr hle)

/--
A counter whose time is over at once is not kept.
-/
theorem Bounded.positive (h : limiter.Bounded cfg s last count) (hcount : 0 < count) (hunused : Unused s)
    (hlast : s.now ≤ last) : 0 < limiter.scriptTtl := by
  by_contra hneg
  have hexpirable := expirable_of_le hlast (h.expirable hcount hunused hlast)
  have hscript := Redis.rateLimit_over limiter.maxRequests.toInt64.toInt hexpirable
    (Int.not_lt.mp hneg)
  rcases checked_visit cfg hunused hscript 0 with ⟨hnow, hslot⟩
  have hlimited := h 0 [visit] (by
    rw [Server.advance_zero]
    exact load_replicate cfg (k := 1) hcount hlast)
  rw [Server.advance_zero] at hlimited
  apply hlimited.kept 0 _ List.mem_cons_self
  . rw [hnow]
    change limiter.bucket s.now = limiter.bucket (s.now + 0)
    rw [Int.add_zero]
  . unfold Server.cached
    rw [show rateLimitKey visit.request (limiter.bucket s.now) = rateLimitKey "" (limiter.bucket s.now) from rfl,
      hslot]

/--
The counter of the first check has to cover its bucket.
-/
theorem Bounded.covered (h : limiter.Bounded cfg s last count) (hcount : 0 < count)
    (hw : 1 ≤ limiter.windowSecs.toNat) (hunused : Unused s) (hlast : s.now ≤ last)
    : limiter.window ≤ s.now + Instant.seconds limiter.scriptTtl := by
  by_contra hshort
  have hpos := h.positive hcount hunused hlast
  have hexpirable := expirable_of_le hlast (h.expirable hcount hunused hlast)
  have hscript := congrArg Prod.snd
    (Redis.rateLimit_first limiter.maxRequests.toInt64.toInt hexpirable hpos)
  generalize hwait : (Instant.seconds limiter.scriptTtl).toNat = wait
  have hseconds : 0 < Instant.seconds limiter.scriptTtl := by
    unfold Instant.seconds
    omega
  have hwait' : (wait : Int) = Instant.seconds limiter.scriptTtl := by
    rw [← hwait]
    exact Int.toNat_of_nonneg (Int.le_of_lt hseconds)
  rcases checked_visit cfg hunused hscript wait with ⟨hnow, hslot⟩
  have hzero : ∀ t : Int, t < limiter.window → limiter.bucket t = 0 := by
    intro t ht
    have hdiv := Int.ediv_lt_of_lt_mul (window_pos hw) (show t < 1 * limiter.window by rwa [Int.one_mul])
    rw [bucket_eq hw]
    omega
  have hlimited := h 0 [visit] (by
    rw [Server.advance_zero]
    exact load_replicate cfg (k := 1) hcount hlast)
  rw [Server.advance_zero] at hlimited
  apply hlimited.kept wait _ List.mem_cons_self
  . rw [hnow, hwait', hzero _ (Int.not_le.mp hshort)]
    exact hzero _ (lt_trans (Int.lt_add_of_pos_right _ hseconds) (Int.not_le.mp hshort))
  . unfold Server.cached
    rw [show rateLimitKey visit.request (limiter.bucket s.now) = rateLimitKey "" (limiter.bucket s.now) from rfl,
      hslot, hnow, hwait']
    apply if_neg
    unfold CacheEntry.live
    rw [Option.all_some, decide_eq_true_eq]
    exact Int.lt_irrefl _

/--
After as many checks as a counter can count, the next one is allowed, because the script fails.
-/
theorem check_overflow {k : Nat} (hk : k + 1 = 2 ^ 63) (hw : 1 ≤ limiter.windowSecs.toNat) (hunused : Unused s)
    (hcovers : limiter.Covers s.now last) (hlast : s.now ≤ last)
    : ((limiter.check visit.request).run (semantics cfg) visit.draws
        (limiter.checked cfg (List.replicate k visit) 0 s)).1 = true := by
  have hcounts : limiter.Counts (fun _ _ => 0) s := Counts.of_unused hunused
  have hroom : Room (fun _ _ => 0) k := by
    intro _ _
    rw [Nat.zero_add, ← hk]
    exact Nat.lt_succ_self k
  have hload : limiter.Load cfg s last k (List.replicate k visit) := load_replicate cfg (le_refl _) hlast
  have hafter := (hcounts.checked hw hcovers (le_refl _) hroom hload 0).1
  have hall : limiter.countedAll (fun _ _ => 0) (limiter.checks cfg (List.replicate k visit) s) ""
      (limiter.bucket s.now) = k := by
    unfold countedAll
    rw [inBucket_replicate, checks_length, List.length_replicate, Nat.zero_add]
  rcases hafter.used "" (limiter.bucket s.now) (by omega) with ⟨deadline, hentry, hkept, _⟩
  have hlive : s.now < deadline := lt_of_lt_of_le (lt_bucket hw s.now) hkept
  have hscript := Redis.rateLimit_overflow limiter.maxRequests.toInt64.toInt
    limiter.windowSecs.toInt64.toInt (n := k) hlive (by omega)
  rw [hall] at hentry
  have hnow := checked_replicate_now cfg limiter k s
  generalize limiter.checked cfg (List.replicate k visit) 0 s = s' at hentry hnow
  rw [← hentry, ← hnow] at hscript
  rw [run_check visit.request visit_healthy hscript]
  rfl

section Limits

theorem Bounded.limited (h : limiter.Bounded cfg s last count) (hlast : s.now ≤ last) {k : Nat} (hk : k ≤ count) :
    limiter.Limited cfg s (List.replicate k visit) := by
  have hlimited := h 0 (List.replicate k visit)
  rw [Server.advance_zero] at hlimited
  exact hlimited (load_replicate cfg hk hlast)

variable (h : limiter.Bounded cfg s last count) (hcount : 0 < count) (hw : 1 ≤ limiter.windowSecs.toNat)
  (hunused : Unused s) (hlast : s.now ≤ last)
include h hcount hw hunused hlast

theorem Bounded.covers : limiter.Covers s.now last :=
  covers_of hw (h.expirable hcount hunused hlast) (h.positive hcount hunused hlast)
    (h.covered hcount hw hunused hlast)

/--
The script decides as the limiter promises, as long as the counter does not overflow.
-/
theorem Bounded.decides {i : Nat} (hi : i < count) (hroom : i + 1 < 2 ^ 63) :
    Binary64.round (i + 1 : Nat) ≤ limiter.scriptMax ↔ i < limiter.maxRequests.toNat := by
  have hcounts : limiter.Counts (fun _ _ => 0) s := Counts.of_unused hunused
  have hroom' : Room (fun _ _ => 0) (i + 1) := by
    intro _ _
    rw [Nat.zero_add]
    exact hroom
  have hallowed := hcounts.allowed hw (h.covers hcount hw hunused hlast) (le_refl _) hroom'
    (load_replicate cfg (le_refl _) hlast) "" (limiter.bucket s.now)
  rw [(h.limited hlast hi).first, inBucket_replicate, checks_length, List.length_replicate] at hallowed
  have hsame := List.map_inj_left.mp hallowed i (List.mem_range.mpr (Nat.lt_succ_self i))
  rw [Nat.zero_add] at hsame
  exact (decide_eq_decide.mp hsame).symm

/--
The first check of a bucket is denied if the maximum is negative.
-/
theorem Bounded.max : limiter.maxRequests.toNat < 2 ^ 63 := by
  rcases toInt_cast limiter.maxRequests with ⟨hlt, _⟩ | ⟨hge, hneg⟩
  . exact hlt
  . exfalso
    have hallowed := (h.decides hcount hw hunused hlast hcount (by decide)).mpr (by omega)
    have hone : Binary64.round (0 + 1 : Nat) = 1 := by
      decide
    have hnonpos : limiter.scriptMax ≤ 0 := Binary64.round_nonpos (Int.le_of_lt hneg)
    omega

/--
The check at which the counter would overflow has to be denied.
-/
theorem Bounded.counter : count < 2 ^ 63 := by
  by_contra hlarge
  obtain ⟨k, hk⟩ : ∃ k, k + 1 = 2 ^ 63 := ⟨2 ^ 63 - 1, rfl⟩
  have hfirst := (h.limited hlast (k := k + 1) (by omega)).first "" (limiter.bucket s.now)
  rw [inBucket_replicate, checks_length, List.length_replicate, List.replicate_succ', checks_append,
    List.range_succ, List.map_append, List.map_append] at hfirst
  have hlast' := (List.append_inj' hfirst rfl).2
  rw [checks_cons, check_overflow hk hw hunused (h.covers hcount hw hunused hlast) hlast, List.map_cons,
    List.map_singleton, List.cons.injEq] at hlast'
  have hmax := h.max hcount hw hunused hlast
  have hallowed := of_decide_eq_true hlast'.1.symm
  omega

theorem Bounded.fits : limiter.Fits s.now last count := by
  have hmax := h.max hcount hw hunused hlast
  have hcounter := h.counter hcount hw hunused hlast
  refine ⟨hmax, ?_, hcounter, h.expirable hcount hunused hlast, h.positive hcount hunused hlast,
    h.covered hcount hw hunused hlast⟩
  intro hlt
  have hdecides := h.decides hcount hw hunused hlast hlt (by omega)
  rw [scriptMax_eq hmax] at hdecides
  exact Int.not_le.mp fun hle => Nat.lt_irrefl _ (hdecides.mp hle)

end Limits

end RateLimiter

/--
A rate limiter that is used alone on its keys keeps its promise if and only if its numbers, and the number of
checks, are ones that the script can work with. For a window of less than 2 ^ 53 seconds this means that the
clock is not before the epoch.
-/
theorem rate_bound (cfg : Config) (limiter : RateLimiter) (hw : 1 ≤ limiter.windowSecs.toNat) (s : Server)
    (hunused : RateLimiter.Unused s) (last : Instant) (hlast : s.now ≤ last) (count : Nat) (hcount : 0 < count)
    : limiter.Bounded cfg s last count ↔ limiter.Fits s.now last count :=
  ⟨fun h => h.fits hcount hw hunused hlast, fun h _ _ hload => h.limited hw hunused hload⟩

namespace Sample

/--
A limiter whose maximum is cast to a negative number.
-/
def castLimiter : RateLimiter :=
  ⟨9223372036854775808, 60⟩

def checkVisit : Visit String Draw :=
  ⟨"203.0.113.7", draw, 1000000⟩

end Sample

open Sample in
/--
The limiter for passwords, in a deployment that has not counted anything yet, up to the year 9999.
-/
theorem rate_bound_password :
    RateLimiter.passwordLimiter.Bounded config server 253402300799000000 (2 ^ 53) := by
  apply (rate_bound config .passwordLimiter (by decide) server (fun _ _ => rfl) 253402300799000000 (by decide)
    (2 ^ 53) (by decide)).mpr
  exact ⟨by decide, fun _ => by decide, by decide, by decide, by decide, by decide⟩

open Sample in
/--
With a maximum of 2 ^ 63 the first request is denied.
-/
theorem rate_bound_cast :
    1 ≤ castLimiter.windowSecs.toNat ∧ RateLimiter.Unused server
      ∧ castLimiter.Load config server server.now 1 [checkVisit]
      ∧ ((castLimiter.checks config [checkVisit] server).map fun c => c.allowed) = [false]
      ∧ ¬castLimiter.Limited config server [checkVisit] := by
  have hchecks : ((castLimiter.checks config [checkVisit] server).map fun c => c.allowed) = [false]
      ∧ ((castLimiter.inBucket "203.0.113.7" (castLimiter.bucket server.now)
        (castLimiter.checks config [checkVisit] server)).map fun c => c.allowed) = [false]
      ∧ (castLimiter.inBucket "203.0.113.7" (castLimiter.bucket server.now)
        (castLimiter.checks config [checkVisit] server)).length = 1 := by
    decide +kernel
  rcases hchecks with ⟨hallowed, hdenied, hlength⟩
  refine ⟨by decide, fun _ _ => rfl, ⟨?_, le_refl _, ?_⟩, hallowed, fun h => ?_⟩
  . intro v hv n
    rw [List.mem_singleton.mp hv]
    rfl
  . intro c hc
    rw [RateLimiter.checks_cons] at hc
    rw [List.mem_singleton.mp hc]
  . have hfirst := h.first "203.0.113.7" (castLimiter.bucket server.now)
    rw [hdenied, hlength] at hfirst
    revert hfirst
    decide

end Aspectus
