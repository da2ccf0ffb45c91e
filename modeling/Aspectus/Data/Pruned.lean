import Aspectus.Data.Table

/-!
This module contains tables from which rows are missing that are dead anyway.
-/

namespace Table

variable {κ ρ : Type} [DecidableEq κ] {dead dead' : ρ → Prop} {t t' u u' : Table κ ρ} {k : κ} {r : ρ}

/--
The rows of `t` are the ones of `t'`, except for dead ones that are missing.
-/
def Pruned (dead : ρ → Prop) (t t' : Table κ ρ) : Prop :=
  ∀ k, t.lookup k = t'.lookup k ∨ (t.lookup k = none ∧ ∃ r, t'.lookup k = some r ∧ dead r)

namespace Pruned

theorem refl (dead : ρ → Prop) (t : Table κ ρ) : Pruned dead t t :=
  fun _ => .inl rfl

theorem mono (h : Pruned dead t t') (hdead : ∀ r, dead r → dead' r) : Pruned dead' t t' := by
  intro k
  rcases h k with heq | ⟨hnone, r, hr, hd⟩
  . exact .inl heq
  . exact .inr ⟨hnone, r, hr, hdead r hd⟩

/--
A row is inserted into both tables, unless its key belongs to a row that is only missing in one of them.
-/
theorem insertNew (h : Pruned dead t t') (hk : t.lookup k = none → t'.lookup k = none) (r : ρ) :
    (t.insertNew k r = none ∧ t'.insertNew k r = none)
      ∨ ∃ u u', t.insertNew k r = some u ∧ t'.insertNew k r = some u' ∧ Pruned dead u u' := by
  cases hnew : t.insertNew k r with
  | none =>
    rcases insertNew_eq_none.mp hnew with ⟨r', hr'⟩
    rcases h k with heq | ⟨hnone, _⟩
    . exact .inl ⟨rfl, insertNew_eq_none.mpr ⟨r', heq ▸ hr'⟩⟩
    . rw [hr'] at hnone
      contradiction
  | some u =>
    have hnone := hk (insertNew_eq_some.mp hnew).1
    have hnew' : t'.insertNew k r = some (t'.insert k r) := insertNew_eq_some.mpr ⟨hnone, rfl⟩
    refine .inr ⟨u, _, rfl, hnew', ?_⟩
    intro k'
    rw [lookup_insertNew hnew, lookup_insertNew hnew']
    by_cases heq : k' = k
    . rw [if_pos heq, if_pos heq]
      exact .inl rfl
    . rw [if_neg heq, if_neg heq]
      exact h k'

/--
An update keeps what is dead dead.
-/
theorem updateWhere (h : Pruned dead t t') (p : κ → ρ → Bool) {f : ρ → ρ}
    (hf : ∀ r, dead r → dead (f r)) : Pruned dead (t.updateWhere p f) (t'.updateWhere p f) := by
  intro k
  rw [lookup_updateWhere, lookup_updateWhere]
  rcases h k with heq | ⟨hnone, r, hr, hd⟩
  . rw [heq]
    exact .inl rfl
  . rw [hnone, hr]
    refine .inr ⟨rfl, _, rfl, ?_⟩
    dsimp only
    split
    . exact hf r hd
    . exact hd

/--
Dead rows are deleted from the table in which others are already missing.
-/
theorem deleteLeft (h : Pruned dead t t') {p : κ → ρ → Bool} (hp : ∀ k r, p k r = true → dead r) :
    Pruned dead (t.deleteWhere p) t' := by
  intro k
  rw [lookup_deleteWhere]
  rcases h k with heq | ⟨hnone, r, hr, hd⟩
  . cases hr : t.lookup k with
    | none => exact .inl (by rw [← heq, hr]; rfl)
    | some r =>
      cases hdeleted : p k r with
      | true => exact .inr ⟨by simp [hdeleted], r, by rw [← heq, hr], hp k r hdeleted⟩
      | false => exact .inl (by rw [← heq, hr]; simp [hdeleted])
  . exact .inr ⟨by rw [hnone]; rfl, r, hr, hd⟩

/--
All dead rows are deleted from both tables.
-/
theorem deleteWhere (h : Pruned dead t t') {p : κ → ρ → Bool} (hp : ∀ k r, dead r → p k r = true) :
    Pruned dead (t.deleteWhere p) (t'.deleteWhere p) := by
  intro k
  rw [lookup_deleteWhere, lookup_deleteWhere]
  rcases h k with heq | ⟨hnone, r, hr, hd⟩
  . rw [heq]
    exact .inl rfl
  . rw [hnone, hr]
    exact .inl (by simp [Option.filter, hp k r hd])

end Pruned
end Table
