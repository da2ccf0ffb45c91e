import Mathlib.Data.List.Basic
import Mathlib.Tactic.Linarith

/-!
This module contains the arithmetic of fixed windows: time is cut into buckets of one length, and if
events are bounded in every bucket then they are bounded in every interval of that length, wherever it
starts.
-/

namespace FixedWindow

variable {w t u : Int}

/--
An instant lies in its bucket.
-/
theorem bucket_bounds (hw : 0 < w) (t : Int) : t / w * w ≤ t ∧ t < (t / w + 1) * w := by
  have hdiv := Int.mul_ediv_add_emod t w
  have hnonneg := Int.emod_nonneg t (Int.ne_of_gt hw)
  have hlt := Int.emod_lt_of_pos t hw
  constructor
  . linarith [Int.mul_comm (t / w) w]
  . linarith [Int.mul_comm (t / w) w, Int.add_mul (t / w) 1 w]

/--
An interval of one length only touches the bucket it starts in and the next one.
-/
theorem bucket_of_interval (hw : 0 < w) (h : t ≤ u) (h' : u ≤ t + w) :
    u / w = t / w ∨ u / w = t / w + 1 := by
  have hle : t / w ≤ u / w := Int.ediv_le_ediv hw h
  have hle' : u / w ≤ (t + w) / w := Int.ediv_le_ediv hw h'
  rw [Int.add_ediv_of_dvd_right (Int.dvd_refl w), Int.ediv_self (Int.ne_of_gt hw)] at hle'
  omega

variable {α : Type} {time : α → Int} {p : α → Bool} {m : Nat}

/--
At most `m` events in every bucket are at most `2 * m` events in every interval.
-/
theorem countP_interval_le (hw : 0 < w) (xs : List α)
    (hbucket : ∀ b, xs.countP (fun x => p x && decide (time x / w = b)) ≤ m) (t : Int)
    : xs.countP (fun x => p x && decide (t ≤ time x ∧ time x ≤ t + w)) ≤ 2 * m := by
  have hsplit : xs.countP (fun x => p x && decide (t ≤ time x ∧ time x ≤ t + w))
      ≤ xs.countP (fun x => p x && decide (time x / w = t / w))
        + xs.countP (fun x => p x && decide (time x / w = t / w + 1)) := by
    clear hbucket
    induction xs with
    | nil => simp
    | cons x xs ih =>
      simp only [List.countP_cons, Bool.and_eq_true, decide_eq_true_eq]
      by_cases hx : p x = true ∧ t ≤ time x ∧ time x ≤ t + w
      . rcases bucket_of_interval hw hx.2.1 hx.2.2 with hb | hb
        . simp only [hx, hb, true_and]
          omega
        . simp only [hx, hb, true_and]
          omega
      . simp only [hx, if_false]
        omega
  have hfirst := hbucket (t / w)
  have hsecond := hbucket (t / w + 1)
  omega

/--
If the events that are let through are the first `m`, then they are at most `m`.
-/
theorem count_first_le (n m : Nat) : ((List.range n).map fun i => decide (i < m)).count true ≤ m := by
  have hcount : ((List.range n).map fun i => decide (i < m)).count true = min n m := by
    induction n with
    | zero => simp
    | succ n ih =>
      rw [List.range_succ, List.map_append, List.count_append, ih]
      by_cases hn : n < m
      . simp [hn]
        omega
      . simp [hn]
        omega
  omega

end FixedWindow
