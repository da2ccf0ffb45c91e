import Aspectus.Data.Hex
import Mathlib.Data.List.Basic

/-!
This module contains the operations on text that the handlers use.
-/

namespace Aspectus

def utf8 (s : String) : List UInt8 :=
  s.toByteArray.data.toList

def startsWith (s p : String) : Bool :=
  p.toList.isPrefixOf s.toList

/--
`s` without the prefix `p`, or `none` if it does not start with it.
-/
def stripPrefix (s p : String) : Option String :=
  if startsWith s p then some (String.ofList (s.toList.drop p.length)) else none

def contains (s : String) (c : Char) : Bool :=
  s.toList.contains c

def containsText (s pattern : String) : Bool :=
  s.toList.tails.any fun rest => pattern.toList.isPrefixOf rest

/--
The number of bytes of a text, which is what the length of a string is in Rust.
-/
def byteLength (s : String) : Nat :=
  (utf8 s).length

def isWhitespace (c : Char) : Bool :=
  c.isWhitespace || c.toNat = 11 || c.toNat = 12 || c.toNat = 133 || c.toNat = 160
    || c.toNat = 5760 || (8192 ≤ c.toNat && c.toNat ≤ 8202) || c.toNat = 8232 || c.toNat = 8233
    || c.toNat = 8239 || c.toNat = 8287 || c.toNat = 12288

def trim (s : String) : String :=
  String.ofList (((s.toList.dropWhile isWhitespace).reverse.dropWhile isWhitespace).reverse)

def splitWhitespace (s : String) : List String :=
  ((s.toList.splitOnP isWhitespace).filter (fun w => !w.isEmpty)).map String.ofList

def split (s : String) (c : Char) : List String :=
  (s.toList.splitOn c).map String.ofList

def join (separator : String) (parts : List String) : String :=
  separator.intercalate parts

/--
No character but the zero character is encoded with a zero byte.
-/
theorem zero_mem_utf8EncodeChar {c : Char} : 0 ∈ String.utf8EncodeChar c ↔ c = Char.ofNat 0 := by
  have hzero : c = Char.ofNat 0 ↔ c.val.toNat = 0 := by
    constructor
    . rintro rfl
      rfl
    . intro h
      exact Char.ext (UInt32.toNat_inj.mp h)
  rw [hzero]
  unfold String.utf8EncodeChar
  generalize c.val.toNat = v
  dsimp only
  have hbyte : ∀ n : Nat, 0 = UInt8.ofNat n ↔ n % 256 = 0 := by
    intro n
    rw [eq_comm, ← UInt8.toNat_inj, UInt8.toNat_ofNat']
    rfl
  repeat' split
  all_goals
    simp only [List.mem_cons, List.not_mem_nil, or_false, hbyte]
    omega

theorem zero_mem_utf8 {s : String} : 0 ∈ utf8 s ↔ Char.ofNat 0 ∈ s.toList := by
  unfold utf8
  rw [← String.utf8Encode_toList]
  unfold List.utf8Encode
  rw [List.data_toByteArray, List.toList_toArray, List.mem_flatMap]
  simp only [zero_mem_utf8EncodeChar]
  simp

theorem append_right_injective {p s t : String} (h : p ++ s = p ++ t) : s = t :=
  (String.append_right_inj p).mp h

theorem startsWith_append (p s : String) : startsWith (p ++ s) p = true := by
  unfold startsWith
  simp

@[simp]
theorem stripPrefix_append (p s : String) : stripPrefix (p ++ s) p = some s := by
  unfold stripPrefix
  rw [startsWith_append]
  simp [← String.length_toList]

/--
Texts with different prefixes are different if neither prefix continues the other.
-/
theorem append_ne_append {p q : String} (h : p.toList.isPrefixOf q.toList = false)
    (h' : q.toList.isPrefixOf p.toList = false) (s t : String) : p ++ s ≠ q ++ t := by
  intro heq
  have hlist : p.toList ++ s.toList = q.toList ++ t.toList := by
    rw [← String.toList_append, heq, String.toList_append]
  rcases List.prefix_or_prefix_of_prefix (List.prefix_append p.toList s.toList)
    (hlist ▸ List.prefix_append q.toList t.toList) with hpq | hqp
  . rw [List.isPrefixOf_iff_prefix.mpr hpq] at h
    contradiction
  . rw [List.isPrefixOf_iff_prefix.mpr hqp] at h'
    contradiction

/--
A text does not start in two ways that differ in the first character.
-/
theorem startsWith_head {s p : String} {c : Char} (h : startsWith s p = true)
    (hp : p.toList.head? = some c) : s.toList.head? = some c := by
  unfold startsWith at h
  rcases List.isPrefixOf_iff_prefix.mp h with ⟨rest, hrest⟩
  rw [← hrest, List.head?_append, hp]
  rfl

/--
The number some decimal digits denote.
-/
def digitsValue (digits : List Char) : Nat :=
  digits.foldl (fun n c => n * 10 + (c.toNat - 48)) 0

theorem digitsValue_toDigits (n : Nat) : digitsValue (Nat.toDigits 10 n) = n := by
  induction n using Nat.strongRecOn with
  | ind n ih =>
    rw [Nat.toDigits_eq_if (by decide)]
    split
    . next hlt => simp [digitsValue, Nat.toNat_digitChar_sub_48_of_lt_ten hlt]
    . next hge =>
      have hdiv := ih (n / 10) (by omega)
      unfold digitsValue at hdiv ⊢
      rw [List.foldl_append, hdiv]
      simp only [List.foldl_cons, List.foldl_nil,
        Nat.toNat_digitChar_sub_48_of_lt_ten (Nat.mod_lt n (by decide : 0 < 10))]
      omega

theorem toList_toString (n : Nat) : (toString n).toList = Nat.toDigits 10 n := by
  simp [toString, Nat.repr]

/--
What precedes the last colon and the number that follows it can be read off a text.
-/
theorem append_colon_number {s t : String} {m n : Nat}
    (h : s ++ ":" ++ toString m = t ++ ":" ++ toString n) : s = t ∧ m = n := by
  have hcolon : ∀ n : Nat, ∀ c ∈ (Nat.toDigits 10 n).reverse, decide (c ≠ ':') = true := by
    intro n c hc
    have hdigit := Nat.isDigit_of_mem_toDigits (by decide) (by decide) (List.mem_reverse.mp hc)
    simp only [ne_eq, decide_not, Bool.not_eq_true', decide_eq_false_iff_not]
    rintro rfl
    contradiction
  have hlist := congrArg (fun s : String => s.toList.reverse) h
  simp only [String.toList_append, toList_toString, List.reverse_append] at hlist
  have htake := congrArg (List.takeWhile fun c => decide (c ≠ ':')) hlist
  rw [List.takeWhile_append_of_pos (hcolon m), List.takeWhile_append_of_pos (hcolon n)] at htake
  simp only [String.reduceToList, List.reverse_singleton, List.singleton_append, ne_eq, not_true,
    decide_false, Bool.false_eq_true, not_false_eq_true, List.takeWhile_cons_of_neg, List.append_nil]
    at htake
  have hdigits := List.reverse_injective htake
  rw [hdigits] at hlist
  have hst := List.append_cancel_left hlist
  simp only [String.reduceToList, List.reverse_singleton, List.singleton_append, List.cons.injEq,
    true_and] at hst
  refine ⟨String.toList_inj.mp (List.reverse_injective hst), ?_⟩
  rw [← digitsValue_toDigits m, hdigits, digitsValue_toDigits]

theorem eq_of_stripPrefix {s p rest : String} (h : stripPrefix s p = some rest) : s = p ++ rest := by
  unfold stripPrefix startsWith at h
  split at h
  . next hprefix =>
    cases h
    rcases List.isPrefixOf_iff_prefix.mp hprefix with ⟨rest, hrest⟩
    apply String.toList_inj.mp
    rw [String.toList_append, String.toList_ofList, ← hrest, ← String.length_toList, List.drop_left]
  . contradiction

theorem startsWith_of_stripPrefix {s p rest : String} (h : stripPrefix s p = some rest) :
    startsWith s p = true := by
  unfold stripPrefix at h
  split at h
  . assumption
  . contradiction

end Aspectus
