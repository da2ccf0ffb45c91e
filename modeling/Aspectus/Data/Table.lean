import Mathlib.Data.List.AList

/-!
This module contains database tables with a primary key: at most one row is stored under each key,
rows are only inserted under new keys, and statements can read or change all rows that satisfy a
condition.
-/

/--
A table with primary key `κ` and rows `ρ`.
-/
abbrev Table (κ ρ : Type) : Type := AList (fun _ : κ => ρ)

namespace Table

variable {κ ρ : Type} [DecidableEq κ]

/--
`INSERT`, fails if the key is already in use.
-/
def insertNew (k : κ) (r : ρ) (t : Table κ ρ) : Option (Table κ ρ) :=
  match t.lookup k with
  | some _ => none
  | none => some (t.insert k r)

/--
`UPDATE ... WHERE p`
-/
def updateWhere (p : κ → ρ → Bool) (f : ρ → ρ) (t : Table κ ρ) : Table κ ρ where
  entries := t.entries.map (Sigma.map id fun k r => if p k r then f r else r)
  nodupKeys := List.NodupKeys.map₂ _ _ t.nodupKeys

/--
`UPDATE ... WHERE` on the primary key
-/
def updateAt (k : κ) (f : ρ → ρ) (t : Table κ ρ) : Table κ ρ :=
  t.updateWhere (fun k' _ => k' = k) f

/--
`DELETE ... WHERE p`
-/
def deleteWhere (p : κ → ρ → Bool) (t : Table κ ρ) : Table κ ρ where
  entries := t.entries.filter fun e => !p e.1 e.2
  nodupKeys := t.nodupKeys.sublist List.filter_sublist

/--
`SELECT ... WHERE p`, the rows that satisfy `p` together with their keys.
-/
def select (p : κ → ρ → Bool) (t : Table κ ρ) : List (κ × ρ) :=
  (t.entries.map fun e => (e.1, e.2)).filter fun e => p e.1 e.2

variable {k k' : κ} {r r' : ρ} {t t' : Table κ ρ}

theorem insertNew_eq_some :
    t.insertNew k r = some t' ↔ t.lookup k = none ∧ t' = t.insert k r := by
  unfold insertNew
  split
  . next h => simp [h]
  . next h => simp [h, eq_comm]

theorem insertNew_eq_none : t.insertNew k r = none ↔ ∃ r', t.lookup k = some r' := by
  unfold insertNew
  split
  . next h => simp [h]
  . next h => simp [h]

theorem lookup_insertNew (h : t.insertNew k r = some t') :
    t'.lookup k' = if k' = k then some r else t.lookup k' := by
  rcases insertNew_eq_some.mp h with ⟨_, rfl⟩
  split
  . next hk =>
    subst hk
    apply AList.lookup_insert
  . next hk => exact AList.lookup_insert_ne hk

/--
An insertion keeps the rows that are already there.
-/
theorem lookup_insertNew_of_some (h : t.insertNew k r = some t') (hr : t.lookup k' = some r') :
    t'.lookup k' = some r' := by
  rw [lookup_insertNew h]
  split
  . next hk =>
    subst hk
    rw [(insertNew_eq_some.mp h).1] at hr
    contradiction
  . exact hr

@[simp]
theorem lookup_updateWhere (p : κ → ρ → Bool) (f : ρ → ρ) :
    (t.updateWhere p f).lookup k = (t.lookup k).map fun r => if p k r then f r else r := by
  unfold updateWhere AList.lookup
  exact List.dlookup_map₂ k

@[simp]
theorem lookup_updateAt (f : ρ → ρ) :
    (t.updateAt k f).lookup k' = if k' = k then (t.lookup k').map f else t.lookup k' := by
  unfold updateAt
  rw [lookup_updateWhere]
  by_cases hk : k' = k
  . simp [hk]
  . simp [hk]

theorem mem_entries : ⟨k, r⟩ ∈ t.entries ↔ t.lookup k = some r := by
  rw [← Option.mem_def, AList.mem_lookup_iff]

@[simp]
theorem mem_select {p : κ → ρ → Bool} : (k, r) ∈ t.select p ↔ t.lookup k = some r ∧ p k r := by
  unfold select
  simp only [List.mem_filter, List.mem_map, Prod.mk.injEq]
  constructor
  . rintro ⟨⟨⟨k', r'⟩, he, rfl, rfl⟩, hp⟩
    exact ⟨mem_entries.mp he, hp⟩
  . rintro ⟨he, hp⟩
    exact ⟨⟨⟨k, r⟩, mem_entries.mpr he, rfl, rfl⟩, hp⟩

omit [DecidableEq κ] in
theorem nodup_select (p : κ → ρ → Bool) : (t.select p).Nodup := by
  unfold select
  apply List.Nodup.filter
  have hkeys : (t.entries.map fun e => e.1).Nodup := t.nodupKeys
  apply List.Nodup.of_map (fun row : κ × ρ => row.1)
  rw [List.map_map]
  exact hkeys

@[simp]
theorem lookup_deleteWhere (p : κ → ρ → Bool) :
    (t.deleteWhere p).lookup k = (t.lookup k).filter fun r => !p k r := by
  apply Option.ext
  intro r
  rw [← mem_entries, Option.filter_eq_some_iff, ← mem_entries]
  unfold deleteWhere
  simp

theorem isEmpty_select {p : κ → ρ → Bool} :
    (t.select p).isEmpty = false ↔ ∃ k r, t.lookup k = some r ∧ p k r = true := by
  rw [← Bool.not_eq_true, List.isEmpty_iff]
  constructor
  . intro h
    rcases List.exists_mem_of_ne_nil _ h with ⟨⟨k, r⟩, hmem⟩
    exact ⟨k, r, mem_select.mp hmem⟩
  . rintro ⟨k, r, hmem⟩
    exact List.ne_nil_of_mem (mem_select.mpr hmem)

/--
A new row is the first one that is selected.
-/
theorem select_insertNew (h : t.insertNew k r = some t') (p : κ → ρ → Bool) :
    t'.select p = if p k r then (k, r) :: t.select p else t.select p := by
  rcases insertNew_eq_some.mp h with ⟨hnone, rfl⟩
  unfold select
  rw [AList.entries_insert_of_notMem (by rwa [AList.lookup_eq_none] at hnone), List.map_cons,
    List.filter_cons]

omit [DecidableEq κ] in
/--
An update that does not decide about the selection changes the selected rows in their places.
-/
theorem select_updateWhere {p : κ → ρ → Bool} (q : κ → ρ → Bool) {f : ρ → ρ}
    (hp : ∀ k r, p k (f r) = p k r)
    : (t.updateWhere q f).select p
        =
      (t.select p).map fun row => (row.1, if q row.1 row.2 then f row.2 else row.2) := by
  unfold select updateWhere
  simp only [List.map_map, List.filter_map]
  have hfilter : ((fun e : κ × ρ => p e.1 e.2) ∘ (fun e : (_ : κ) × ρ => (e.1, e.2))
        ∘ Sigma.map id fun k r => if q k r then f r else r)
      = (fun e : κ × ρ => p e.1 e.2) ∘ fun e : (_ : κ) × ρ => (e.1, e.2) := by
    funext e
    dsimp only [Function.comp_apply, Sigma.map, id_eq]
    split
    . exact hp _ _
    . rfl
  rw [hfilter]
  rfl

/--
Every row of `t` is still there in `t'`, and `R` relates its old and its new value.
-/
def Grows (R : ρ → ρ → Prop) (t t' : Table κ ρ) : Prop :=
  ∀ k r, t.lookup k = some r → ∃ r', t'.lookup k = some r' ∧ R r r'

namespace Grows

variable {R : ρ → ρ → Prop}

theorem refl (hR : ∀ r, R r r) (t : Table κ ρ) : Grows R t t := by
  intro k r hr
  exact ⟨r, hr, hR r⟩

theorem trans (hR : ∀ {a b c}, R a b → R b c → R a c) {t t' t'' : Table κ ρ} (h : Grows R t t')
    (h' : Grows R t' t'') : Grows R t t'' := by
  intro k r hr
  rcases h k r hr with ⟨r', hr', hrr'⟩
  rcases h' k r' hr' with ⟨r'', hr'', hr'r''⟩
  exact ⟨r'', hr'', hR hrr' hr'r''⟩

theorem insertNew (hR : ∀ r, R r r) (h : t.insertNew k r = some t') : Grows R t t' := by
  intro k' r' hr'
  exact ⟨r', lookup_insertNew_of_some h hr', hR r'⟩

theorem updateWhere (hR : ∀ r, R r r) {p : κ → ρ → Bool} {f : ρ → ρ}
    (hf : ∀ k r, t.lookup k = some r → p k r = true → R r (f r)) : Grows R t (t.updateWhere p f) := by
  intro k r hr
  refine ⟨if p k r then f r else r, by simp [hr], ?_⟩
  split
  . next hp => exact hf k r hr hp
  . exact hR r

theorem updateAt (hR : ∀ r, R r r) {f : ρ → ρ} (hf : ∀ r, t.lookup k = some r → R r (f r)) :
    Grows R t (t.updateAt k f) := by
  apply updateWhere hR
  intro k' r hr hk
  simp only [decide_eq_true_eq] at hk
  subst hk
  exact hf r hr

end Grows

end Table
