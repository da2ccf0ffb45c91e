import Aspectus.Core.ScopeName
import Aspectus.Routes.IssueTokens
import Mathlib.Data.List.Dedup

/-!
This module contains that the scopes of a user, which are stored and transmitted as a single text, can be
read back from that text.
-/

namespace Aspectus

theorem projectsFromScopes_pairwise (scopes : String) : (projectsFromScopes scopes).Pairwise (· < ·) := by
  unfold projectsFromScopes
  dsimp only
  generalize List.filter _ _ = projects
  have hsorted : (projects.dedup.mergeSort fun p q => decide (p ≤ q)).Pairwise (· ≤ ·) := by
    have : (projects.dedup.mergeSort fun p q => decide (p ≤ q)).Pairwise
        fun p q => decide (p ≤ q) = true := by
      apply List.pairwise_mergeSort
      . simp only [decide_eq_true_eq]
        apply String.le_trans
      . simp only [Bool.or_eq_true, decide_eq_true_eq]
        apply String.le_total
    simpa only [decide_eq_true_eq] using this
  have hnodup : (projects.dedup.mergeSort fun p q => decide (p ≤ q)).Nodup := by
    rw [(List.mergeSort_perm _ _).nodup_iff]
    apply List.nodup_dedup
  apply (hsorted.and hnodup).imp
  intro p q h
  apply String.not_le.mp
  intro hle
  exact h.right (String.le_antisymm h.left hle)

theorem mem_projectsFromScopes {scopes project : String} :
    project ∈ projectsFromScopes scopes
      ↔
    (project ≠ "" ∧ project ≠ "*")
      ∧ ∃ s ∈ splitWhitespace scopes, contains s ':' = true ∧ (split s ':').head? = some project := by
  unfold projectsFromScopes
  simp only [List.mem_mergeSort, List.mem_dedup, List.mem_filter, List.mem_filterMap, decide_eq_true_eq]
  grind

namespace ScopeName

variable (n : ScopeName)

theorem contains_colon : contains n.toString ':' = true := by
  unfold contains toString
  simp

theorem isWord : n.toString ≠ "" ∧ ∀ c ∈ n.toString.toList, isWhitespace c = false := by
  constructor
  . intro hempty
    have := n.contains_colon
    rw [hempty] at this
    contradiction
  . apply n.forall_mem_toString (P := fun c => isWhitespace c = false)
    . decide
    . decide
    . intro c h
      apply h.not_whitespace

/--
The first segment is neither empty nor the wildcard.
-/
theorem project_ne : n.project.toString ≠ "" ∧ n.project.toString ≠ "*" := by
  cases n.project <;> decide

end ScopeName

/--
The text that consists of some valid names yields the names and the projects they belong to.
-/
theorem scope_strings (names : List String) (hnames : ∀ s ∈ names, Scope.validate s = .ok ()) :
    splitWhitespace (join " " names) = names
    ∧ (projectsFromScopes (join " " names)).Pairwise (· < ·)
    ∧ (projectsFromScopes (join " " names)).Nodup
    ∧ ∀ project, project ∈ projectsFromScopes (join " " names)
        ↔ ∃ s ∈ names, ∃ p, Scope.project s = .ok p ∧ p.toString = project := by
  have hnames : ∀ s ∈ names, ∃ n : ScopeName, n.toString = s := by
    intro s hs
    apply ScopeName.of_validate (hnames s hs)
  have hwords : splitWhitespace (join " " names) = names := by
    apply splitWhitespace_join
    intro s hs
    rcases hnames s hs with ⟨n, rfl⟩
    apply n.isWord
  have hpairwise := projectsFromScopes_pairwise (join " " names)
  refine ⟨hwords, hpairwise, hpairwise.imp fun h => String.ne_of_lt h, ?_⟩
  intro project
  rw [mem_projectsFromScopes, hwords]
  constructor
  . intro h
    rcases h with ⟨_, s, hs, _, hhead⟩
    rcases hnames s hs with ⟨n, rfl⟩
    rw [n.split_toString] at hhead
    injection hhead with hhead
    exact ⟨_, hs, n.project, n.project_toString, hhead⟩
  . intro h
    rcases h with ⟨s, hs, p, hp, rfl⟩
    rcases hnames s hs with ⟨n, rfl⟩
    rw [n.project_toString] at hp
    injection hp with hp
    subst hp
    refine ⟨n.project_ne, _, hs, n.contains_colon, ?_⟩
    rw [n.split_toString]
    rfl

/--
Two names of one project, and one of another project that comes first.
-/
theorem scope_strings_three :
    splitWhitespace "tokencamp:*:read pandaria:session:create pandaria:session:*"
        = ["tokencamp:*:read", "pandaria:session:create", "pandaria:session:*"]
      ∧ (projectsFromScopes "tokencamp:*:read pandaria:session:create pandaria:session:*").Nodup := by
  have hnames : ∀ s ∈ ["tokencamp:*:read", "pandaria:session:create", "pandaria:session:*"],
      Scope.validate s = .ok () := by
    simp only [List.forall_mem_cons]
    exact ⟨rfl, rfl, rfl, fun _ h => absurd h List.not_mem_nil⟩
  have h := scope_strings ["tokencamp:*:read", "pandaria:session:create", "pandaria:session:*"] hnames
  exact ⟨h.1, h.2.2.1⟩

end Aspectus
