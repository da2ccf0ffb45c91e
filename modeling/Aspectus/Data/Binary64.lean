import Mathlib.Tactic.Linarith

/-!
This module contains the integers as double-precision numbers: 53 significant bits are kept, the rest is
rounded to the nearest, and to even if there are two.
-/

namespace Binary64

/--
The distance of the numbers around `n` that have 53 significant bits.
-/
def unit (n : Nat) : Nat :=
  2 ^ (n.log2 - 52)

def roundNat (n : Nat) : Nat :=
  if unit n < 2 * (n % unit n) ∨ (2 * (n % unit n) = unit n ∧ n / unit n % 2 = 1) then
    (n / unit n + 1) * unit n
  else
    n / unit n * unit n

/--
The double that is closest to an integer.
-/
def round : Int → Int
  | .ofNat n => roundNat n
  | .negSucc n => -roundNat (n + 1)

theorem unit_pos (n : Nat) : 0 < unit n :=
  Nat.two_pow_pos _

theorem unit_of_lt {n : Nat} (h : n < 2 ^ 53) : unit n = 1 := by
  unfold unit
  by_cases hn : n = 0
  . subst hn
    rfl
  . have hlog : n.log2 < 53 := (Nat.log2_lt hn).mpr h
    rw [Nat.sub_eq_zero_of_le (Nat.le_of_lt_succ hlog)]
    rfl

/--
A number lies between two neighbours, and it is rounded to one of them.
-/
theorem roundNat_cases (n : Nat) :
    (roundNat n = n / unit n * unit n ∧ 2 * (n % unit n) ≤ unit n)
      ∨ (roundNat n = (n / unit n + 1) * unit n ∧ unit n ≤ 2 * (n % unit n)) := by
  unfold roundNat
  split
  . next h =>
    refine .inr ⟨rfl, ?_⟩
    omega
  . next h =>
    refine .inl ⟨rfl, ?_⟩
    omega

/--
A number is rounded by at most half of the distance.
-/
theorem roundNat_near (n : Nat) :
    2 * roundNat n ≤ 2 * n + unit n ∧ 2 * n ≤ 2 * roundNat n + unit n := by
  have hdiv := Nat.div_add_mod n (unit n)
  have hcomm := Nat.mul_comm (unit n) (n / unit n)
  rcases roundNat_cases n with ⟨hround, hrest⟩ | ⟨hround, hrest⟩
  . omega
  . rw [Nat.add_mul, Nat.one_mul] at hround
    have hlt := Nat.mod_lt n (unit_pos n)
    omega

theorem roundNat_of_lt {n : Nat} (h : n < 2 ^ 53) : roundNat n = n := by
  have hnear := roundNat_near n
  rw [unit_of_lt h] at hnear
  omega

/--
What has more than 53 bits is not rounded to less than its highest bit, nor beyond the next one.
-/
theorem roundNat_bounds {n : Nat} (h : 2 ^ 52 ≤ n) :
    2 ^ n.log2 ≤ roundNat n ∧ roundNat n ≤ 2 ^ (n.log2 + 1) := by
  have hn : n ≠ 0 := by
    rintro rfl
    contradiction
  have hlog : 52 ≤ n.log2 := (Nat.le_log2 hn).mpr h
  have hlow : 2 ^ n.log2 = 2 ^ 52 * unit n := by
    unfold unit
    rw [← Nat.pow_add, Nat.add_sub_cancel' hlog]
  have hhigh : 2 ^ (n.log2 + 1) = 2 ^ 53 * unit n := by
    rw [Nat.pow_succ, hlow]
    omega
  have hquot : 2 ^ 52 ≤ n / unit n :=
    (Nat.le_div_iff_mul_le (unit_pos n)).mpr (hlow ▸ Nat.log2_self_le hn)
  have hquot' : n / unit n + 1 ≤ 2 ^ 53 :=
    (Nat.div_lt_iff_lt_mul (unit_pos n)).mpr (hhigh ▸ Nat.lt_log2_self)
  have hquot'' : n / unit n ≤ 2 ^ 53 := Nat.le_of_lt hquot'
  rw [hlow, hhigh]
  rcases roundNat_cases n with ⟨hround, _⟩ | ⟨hround, _⟩
  . rw [hround]
    exact ⟨Nat.mul_le_mul_right _ hquot, Nat.mul_le_mul_right _ hquot''⟩
  . rw [hround]
    exact ⟨Nat.mul_le_mul_right _ (Nat.le_succ_of_le hquot), Nat.mul_le_mul_right _ hquot'⟩

/--
Of two numbers with the same distance the smaller one is not rounded beyond the other one.
-/
theorem roundNat_le_of_unit {n m : Nat} (h : n ≤ m) (hunit : unit n = unit m) :
    roundNat n ≤ roundNat m := by
  have hquot : n / unit m ≤ m / unit m := Nat.div_le_div_right h
  rcases Nat.lt_or_eq_of_le hquot with hlt | heq
  . calc
      roundNat n ≤ (n / unit m + 1) * unit m := by
        rw [← hunit]
        rcases roundNat_cases n with ⟨hround, _⟩ | ⟨hround, _⟩
        . rw [hround]
          exact Nat.mul_le_mul_right _ (Nat.le_succ _)
        . rw [hround]
      _ ≤ m / unit m * unit m := Nat.mul_le_mul_right _ hlt
      _ ≤ roundNat m := by
        rcases roundNat_cases m with ⟨hround, _⟩ | ⟨hround, _⟩
        . rw [hround]
        . rw [hround]
          exact Nat.mul_le_mul_right _ (Nat.le_succ _)
  . have hrest : n % unit m ≤ m % unit m := by
      have hn := Nat.div_add_mod n (unit m)
      have hm := Nat.div_add_mod m (unit m)
      rw [heq] at hn
      omega
    unfold roundNat
    rw [hunit, heq]
    split
    . next hup =>
      rw [if_pos (by omega)]
    . split
      . exact Nat.mul_le_mul_right _ (Nat.le_succ _)
      . exact Nat.le_refl _

theorem roundNat_mono {n m : Nat} (h : n ≤ m) : roundNat n ≤ roundNat m := by
  by_cases hsmall : m < 2 ^ 53
  . rw [roundNat_of_lt hsmall, roundNat_of_lt (Nat.lt_of_le_of_lt h hsmall)]
    exact h
  . have hm : 2 ^ 53 ≤ m := Nat.not_lt.mp hsmall
    have hm0 : m ≠ 0 := by omega
    have hlog : 53 ≤ m.log2 := (Nat.le_log2 hm0).mpr hm
    by_cases hsmall' : n < 2 ^ 53
    . rw [roundNat_of_lt hsmall']
      calc
        n ≤ 2 ^ 53 := Nat.le_of_lt hsmall'
        _ ≤ 2 ^ m.log2 := Nat.pow_le_pow_right (by decide) hlog
        _ ≤ roundNat m := (roundNat_bounds (by omega)).1
    . have hn0 : n ≠ 0 := by omega
      rcases Nat.lt_or_ge n.log2 m.log2 with hlt | hge
      . calc
          roundNat n ≤ 2 ^ (n.log2 + 1) := (roundNat_bounds (by omega)).2
          _ ≤ 2 ^ m.log2 := Nat.pow_le_pow_right (by decide) hlt
          _ ≤ roundNat m := (roundNat_bounds (by omega)).1
      . apply roundNat_le_of_unit h
        have hle : n.log2 ≤ m.log2 := (Nat.le_log2 hm0).mpr (Nat.le_trans (Nat.log2_self_le hn0) h)
        unfold unit
        rw [Nat.le_antisymm hle hge]

theorem round_natCast (n : Nat) : round n = roundNat n := by
  rfl

theorem round_natCast_le {n m : Nat} (h : n ≤ m) : round n ≤ round m := by
  rw [round_natCast, round_natCast]
  exact Int.ofNat_le.mpr (roundNat_mono h)

/--
What is not positive does not become positive.
-/
theorem round_nonpos {n : Int} (h : n ≤ 0) : round n ≤ 0 := by
  cases n with
  | ofNat n =>
    have hzero : n = 0 := by
      exact Int.ofNat_eq_zero.mp (Int.le_antisymm h (Int.natCast_nonneg n))
    subst hzero
    decide
  | negSucc n =>
    exact Int.neg_nonpos_of_nonneg (Int.natCast_nonneg _)

end Binary64
