import Aspectus.Core.Text

/-!
This module contains how splitting a text and joining its parts undo each other.
-/

namespace Aspectus

variable {separator s : String} {c : Char} {parts : List String}

theorem toList_join (separator : String) (parts : List String) :
    (join separator parts).toList = separator.toList.intercalate (parts.map String.toList) := by
  apply String.toList_intercalate

theorem map_ofList_toList (parts : List String) :
    (parts.map String.toList).map String.ofList = parts := by
  simp [Function.comp_def]

theorem map_toList_ofList (parts : List (List Char)) :
    (parts.map String.ofList).map String.toList = parts := by
  simp [Function.comp_def]

theorem join_split (hseparator : separator.toList = [c]) (s : String) :
    join separator (split s c) = s := by
  apply String.toList_inj.mp
  rw [toList_join, split, map_toList_ofList, hseparator, List.intercalate_splitOn]

theorem split_join (hseparator : separator.toList = [c]) (hparts : parts ≠ [])
    (h : ∀ p ∈ parts, c ∉ p.toList)
    : split (join separator parts) c = parts := by
  unfold split
  rw [toList_join, hseparator, List.splitOn_intercalate, map_ofList_toList]
  . simpa using h
  . simpa using hparts

theorem split_append (hseparator : separator.toList = [c]) (s t : String) :
    split (s ++ separator ++ t) c = split s c ++ split t c := by
  unfold split
  rw [String.toList_append, String.toList_append, hseparator, List.append_assoc, List.singleton_append,
    List.splitOn_append_cons_self, List.map_append]

theorem split_ne_nil (s : String) (c : Char) : split s c ≠ [] := by
  simp [split]

/--
Words without whitespace are found again in the text that consists of them.
-/
theorem splitWhitespace_join (h : ∀ p ∈ parts, p ≠ "" ∧ ∀ c ∈ p.toList, isWhitespace c = false) :
    splitWhitespace (join " " parts) = parts := by
  unfold splitWhitespace
  rw [toList_join]
  induction parts with
  | nil => rfl
  | cons p parts ih =>
    have hp := h p List.mem_cons_self
    have hword : (p.toList.isEmpty : Bool) = false := by
      simpa using hp.1
    have ih := ih fun q hq => h q (List.mem_cons_of_mem _ hq)
    cases parts with
    | nil =>
      simp only [List.map_cons, List.map_nil, List.intercalate_singleton]
      rw [List.splitOnP_eq_singleton hp.2]
      simp [hword]
    | cons q parts =>
      simp only [List.map_cons, List.intercalate_cons_cons] at ih ⊢
      rw [List.append_assoc]
      change ((List.splitOnP isWhitespace (p.toList ++ ' ' :: _)).filter _).map _ = _
      rw [List.splitOnP_append_cons_of_forall_mem hp.2 ' ' rfl]
      simp only [List.filter_cons, hword, Bool.not_false, if_true, List.map_cons, String.ofList_toList]
      exact congrArg (p :: ·) ih

end Aspectus
