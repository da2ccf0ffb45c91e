import Aspectus.Core.Scope
import Aspectus.Core.Split

/-!
This module contains the language of scope names, the exact set of texts that the validation
accepts.
-/

namespace Aspectus

/--
The characters a segment may consist of: ASCII letters, ASCII digits, `-` and `_`.
-/
def SegmentChar (c : Char) : Prop :=
  ('a' ≤ c ∧ c ≤ 'z') ∨ ('A' ≤ c ∧ c ≤ 'Z') ∨ ('0' ≤ c ∧ c ≤ '9') ∨ c = '-' ∨ c = '_'

structure Segment where
  text : String
  wellFormed : text = "*" ∨ (text ≠ "" ∧ ∀ c ∈ text.toList, SegmentChar c)

/--
A scope name is a known project, a resource and an action.
-/
structure ScopeName where
  project : Project
  resource : Segment
  action : Segment

namespace ScopeName

def segments (n : ScopeName) : List String :=
  [n.project.toString, n.resource.text, n.action.text]

def toString (n : ScopeName) : String :=
  n.project.toString ++ ":" ++ n.resource.text ++ ":" ++ n.action.text

end ScopeName

theorem isSegmentChar_iff (c : Char) : Scope.isSegmentChar c = true ↔ SegmentChar c := by
  unfold Scope.isSegmentChar SegmentChar Char.isAlphanum Char.isAlpha Char.isUpper Char.isLower
    Char.isDigit
  simp only [ge_iff_le, Bool.or_eq_true, Bool.and_eq_true, decide_eq_true_eq, Char.le_def]
  tauto

theorem SegmentChar.ne_colon {c : Char} (h : SegmentChar c) : c ≠ ':' := by
  intro hcolon
  subst hcolon
  revert h
  unfold SegmentChar
  decide

theorem SegmentChar.bounds {c : Char} (h : SegmentChar c) : 45 ≤ c.toNat ∧ c.toNat ≤ 122 := by
  have range : ∀ a b : Char, a ≤ c ∧ c ≤ b → a.toNat ≤ c.toNat ∧ c.toNat ≤ b.toNat := by
    intro a b h
    simp only [Char.le_def, UInt32.le_iff_toNat_le] at h
    exact h
  rcases h with h | h | h | rfl | rfl
  . have := range _ _ h
    simp at this
    omega
  . have := range _ _ h
    simp at this
    omega
  . have := range _ _ h
    simp at this
    omega
  . decide
  . decide

theorem SegmentChar.not_whitespace {c : Char} (h : SegmentChar c) : isWhitespace c = false := by
  have hbounds := h.bounds
  have hne : ∀ d : Char, d.toNat < 45 → c ≠ d := by
    intro d hd hc
    subst hc
    omega
  unfold isWhitespace Char.isWhitespace
  simp only [hne ' ' (by decide), hne '\t' (by decide), hne '\r' (by decide), hne '\n' (by decide),
    decide_false, Bool.or_self, Bool.false_or, Bool.or_eq_false_iff, Bool.and_eq_false_iff,
    decide_eq_false_iff_not]
  omega

namespace Segment

theorem text_injective {s t : Segment} (h : s.text = t.text) : s = t := by
  cases s
  cases t
  cases h
  rfl

theorem text_ne_empty (s : Segment) : s.text ≠ "" := by
  cases s.wellFormed with
  | inl hwildcard =>
    rw [hwildcard]
    decide
  | inr hchars => apply hchars.left

/--
What holds of the wildcard and of all characters of a segment holds of all characters of the text.
-/
theorem forall_mem_text {P : Char → Prop} (s : Segment) (hwildcard : P '*')
    (hchars : ∀ c, SegmentChar c → P c)
    : ∀ c ∈ s.text.toList, P c := by
  intro c hc
  cases s.wellFormed with
  | inl htext =>
    rw [htext] at hc
    rw [List.mem_singleton.mp hc]
    apply hwildcard
  | inr htext =>
    apply hchars
    apply htext.right c hc

theorem validateSegment_text (s : Segment) (label scope : String) :
    Scope.validateSegment s.text label scope = .ok () := by
  unfold Scope.validateSegment
  split
  . rfl
  . next hwildcard =>
    have hall : s.text.toList.all Scope.isSegmentChar = true := by
      simp only [List.all_eq_true, isSegmentChar_iff]
      cases s.wellFormed with
      | inl htext => contradiction
      | inr hchars => apply hchars.right
    simp [hall]

theorem of_validateSegment {text label scope : String} (hempty : text ≠ "")
    (h : Scope.validateSegment text label scope = .ok ())
    : ∃ s : Segment, s.text = text := by
  unfold Scope.validateSegment at h
  split at h
  . next hwildcard => exact ⟨⟨text, .inl hwildcard⟩, rfl⟩
  . split at h
    . next hall =>
      simp only [List.all_eq_true, isSegmentChar_iff] at hall
      exact ⟨⟨text, .inr ⟨hempty, hall⟩⟩, rfl⟩
    . contradiction

end Segment

namespace ScopeName

variable (n : ScopeName)

theorem toString_eq_join : n.toString = join ":" n.segments := by
  rfl

/--
What holds of the wildcard and of the characters of a segment holds of all characters of the segments.
-/
theorem forall_mem_segments {P : Char → Prop} (hwildcard : P '*') (hchars : ∀ c, SegmentChar c → P c) :
    ∀ p ∈ n.segments, ∀ c ∈ p.toList, P c := by
  have hproject : ∀ c ∈ n.project.toString.toList, SegmentChar c := by
    simp only [← isSegmentChar_iff, ← List.all_eq_true]
    cases n.project <;> decide
  unfold segments
  simp only [List.forall_mem_cons]
  exact ⟨fun c hc => hchars c (hproject c hc), n.resource.forall_mem_text hwildcard hchars,
    n.action.forall_mem_text hwildcard hchars, fun _ h => absurd h List.not_mem_nil⟩

theorem forall_mem_toString {P : Char → Prop} (hcolon : P ':') (hwildcard : P '*')
    (hchars : ∀ c, SegmentChar c → P c)
    : ∀ c ∈ n.toString.toList, P c := by
  have hsegments := n.forall_mem_segments hwildcard hchars
  simp only [segments, List.forall_mem_cons] at hsegments
  have hseparator : ∀ c ∈ ":".toList, P c := by
    intro c hc
    rw [List.mem_singleton.mp hc]
    apply hcolon
  unfold toString
  simp only [String.toList_append, List.forall_mem_append]
  exact ⟨⟨⟨⟨hsegments.1, hseparator⟩, hsegments.2.1⟩, hseparator⟩, hsegments.2.2.1⟩

theorem split_toString : split n.toString ':' = n.segments := by
  rw [toString_eq_join]
  apply split_join rfl
  . simp [segments]
  . intro p hp hcolon
    exact n.forall_mem_segments (P := (· ≠ ':')) (by decide) (fun _ h => h.ne_colon) p hp ':' hcolon rfl

theorem segments_injective {m n : ScopeName} (h : m.segments = n.segments) : m = n := by
  unfold segments at h
  injection h with hproject h
  injection h with hresource h
  injection h with haction _
  cases m
  cases n
  cases Project.toString_injective hproject
  cases Segment.text_injective hresource
  cases Segment.text_injective haction
  rfl

theorem toString_injective {m n : ScopeName} (h : m.toString = n.toString) : m = n := by
  apply segments_injective
  rw [← split_toString, h, split_toString]

theorem validate_toString : Scope.validate n.toString = .ok () := by
  unfold Scope.validate
  rw [split_toString]
  have hproject : n.project.toString ≠ "" := by
    cases n.project <;> decide
  simp only [segments, hproject, n.resource.text_ne_empty, n.action.text_ne_empty, or_self, if_false,
    Project.parse_toString, Segment.validateSegment_text]
  rfl

theorem of_validate {s : String} (h : Scope.validate s = .ok ()) : ∃ n : ScopeName, n.toString = s := by
  unfold Scope.validate at h
  split at h
  . next project resource action hsplit =>
    split at h
    . contradiction
    . next hempty =>
      simp only [not_or] at hempty
      split at h
      . contradiction
      . next p hp =>
        rcases hr : Scope.validateSegment resource "resource" s with e | u
        . rw [hr] at h
          contradiction
        . rw [hr] at h
          rcases Segment.of_validateSegment hempty.2.1 hr with ⟨r, rfl⟩
          rcases Segment.of_validateSegment hempty.2.2 h with ⟨a, rfl⟩
          refine ⟨⟨p, r, a⟩, ?_⟩
          rw [toString_eq_join, segments, Project.toString_of_parse hp, ← hsplit, join_split rfl]
  . contradiction

theorem project_toString : Scope.project n.toString = .ok n.project := by
  unfold Scope.project
  rw [validate_toString, split_toString]
  simp only [segments, List.headD_cons, Project.parse_toString]
  rfl

theorem resource_toString : Scope.resource n.toString = .ok n.resource.text := by
  unfold Scope.resource
  rw [validate_toString, split_toString]
  rfl

theorem action_toString : Scope.action n.toString = .ok n.action.text := by
  unfold Scope.action
  rw [validate_toString, split_toString]
  rfl

end ScopeName

/--
The validation accepts exactly the scope names, and the accessors agree with it on their segments.
-/
theorem scope_names :
    (∀ s, Scope.validate s = .ok () ↔ ∃! n : ScopeName, n.toString = s)
    ∧ (∀ n : ScopeName,
      Scope.project n.toString = .ok n.project
        ∧ Scope.resource n.toString = .ok n.resource.text
        ∧ Scope.action n.toString = .ok n.action.text
        ∧ join ":" [n.project.toString, n.resource.text, n.action.text] = n.toString)
    ∧ (∀ s t, Scope.validate s = .ok () → Scope.validate t = .ok () →
      Scope.project s = Scope.project t → Scope.resource s = Scope.resource t →
      Scope.action s = Scope.action t → s = t) := by
  refine ⟨?_, ?_, ?_⟩
  . intro s
    constructor
    . intro h
      rcases ScopeName.of_validate h with ⟨n, hn⟩
      refine ⟨n, hn, ?_⟩
      intro m hm
      apply ScopeName.toString_injective
      rw [hm, hn]
    . intro h
      rcases h with ⟨n, hn, _⟩
      rw [← hn]
      apply ScopeName.validate_toString
  . intro n
    exact ⟨n.project_toString, n.resource_toString, n.action_toString, n.toString_eq_join.symm⟩
  . intro s t hs ht hproject hresource haction
    rcases ScopeName.of_validate hs with ⟨m, rfl⟩
    rcases ScopeName.of_validate ht with ⟨n, rfl⟩
    rw [ScopeName.project_toString, ScopeName.project_toString] at hproject
    rw [ScopeName.resource_toString, ScopeName.resource_toString] at hresource
    rw [ScopeName.action_toString, ScopeName.action_toString] at haction
    injection hproject with hproject
    injection hresource with hresource
    injection haction with haction
    unfold ScopeName.toString
    rw [hproject, hresource, haction]

/--
Names of at most two segments, with empty segments, with more colons or with other characters are refused.
-/
example : ["pandaria", "pandaria::create", "pandaria:session:create:extra", "tavern:session:create",
    "pandaria:session:cre ate", "*:session:create", "pandaria:sess*:create"].all (fun s =>
      (Scope.validate s).toOption.isNone) = true := by
  decide +kernel

end Aspectus
