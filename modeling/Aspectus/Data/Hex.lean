import Mathlib.Data.List.Basic

/-!
This module contains the hexadecimal encoding of bytes. The encoder only writes lower case digits,
the decoder accepts both cases.
-/

namespace Hex

/--
The lower case digit for a value below 16.
-/
def digit (n : Nat) : Char :=
  if n < 10 then Char.ofNat (48 + n) else Char.ofNat (87 + n)

def value (c : Char) : Option Nat :=
  if 48 ≤ c.toNat ∧ c.toNat ≤ 57 then
    some (c.toNat - 48)
  else if 97 ≤ c.toNat ∧ c.toNat ≤ 102 then
    some (c.toNat - 87)
  else if 65 ≤ c.toNat ∧ c.toNat ≤ 70 then
    some (c.toNat - 55)
  else
    none

namespace encode

def go : List UInt8 → List Char
  | [] => []
  | b :: bs => digit (b.toNat / 16) :: digit (b.toNat % 16) :: go bs

end encode

def encode (bytes : List UInt8) : String :=
  String.ofList (encode.go bytes)

namespace decode

def go : List Char → Option (List UInt8)
  | [] => some []
  | [_] => none
  | hi :: lo :: rest =>
    match value hi, value lo, go rest with
    | some hi, some lo, some bytes => some (UInt8.ofNat (16 * hi + lo) :: bytes)
    | _, _, _ => none

end decode

/--
Fails on an odd number of digits and on characters that are no digits.
-/
def decode (s : String) : Option (List UInt8) :=
  decode.go s.toList

theorem value_digit {n : Nat} (h : n < 16) : value (digit n) = some n := by
  revert n
  decide

theorem decode.go_encode (bytes : List UInt8) : decode.go (encode.go bytes) = some bytes := by
  induction bytes with
  | nil => rfl
  | cons b bs ih =>
    have hb : b.toNat < 256 := b.toNat_lt
    unfold encode.go decode.go
    rw [value_digit (by omega), value_digit (by omega), ih]
    dsimp
    rw [Nat.div_add_mod, UInt8.ofNat_toNat]

theorem decode_encode (bytes : List UInt8) : decode (encode bytes) = some bytes := by
  unfold decode encode
  rw [String.toList_ofList]
  apply decode.go_encode

theorem encode_injective {a b : List UInt8} (h : encode a = encode b) : a = b := by
  have ha := decode_encode a
  rw [h, decode_encode] at ha
  injection ha with ha
  exact ha.symm

def isUpper (c : Char) : Bool :=
  65 ≤ c.toNat ∧ c.toNat ≤ 70

/--
A digit is the lower case one for its value, unless it is an upper case one.
-/
theorem digit_value {c : Char} {n : Nat} (h : value c = some n) (hlower : isUpper c = false) :
    n < 16 ∧ digit n = c := by
  unfold isUpper at hlower
  simp only [decide_eq_false_iff_not] at hlower
  unfold value at h
  unfold digit
  split at h
  . next hdecimal =>
    cases h
    refine ⟨by omega, ?_⟩
    rw [if_pos (by omega), Nat.add_sub_cancel' hdecimal.1, Char.ofNat_toNat]
  . split at h
    . next hletter =>
      cases h
      refine ⟨by omega, ?_⟩
      rw [if_neg (by omega), Nat.add_sub_cancel' (by omega), Char.ofNat_toNat]
    . contradiction

theorem isUpper_digit {n : Nat} (h : n < 16) : isUpper (digit n) = false := by
  revert n
  decide

/--
The text that is decoded is the encoding of the bytes, unless it has upper case digits.
-/
theorem encode.go_decode {cs : List Char} {bytes : List UInt8} (h : decode.go cs = some bytes)
    (hlower : ∀ c ∈ cs, isUpper c = false) : encode.go bytes = cs := by
  induction cs using decode.go.induct generalizing bytes with
  | case1 =>
    cases h
    rfl
  | case2 => contradiction
  | case3 hi lo rest a b bytes' hrest hb ha ih =>
    unfold decode.go at h
    rw [ha, hb, hrest] at h
    cases h
    simp only [List.forall_mem_cons] at hlower
    rcases digit_value ha hlower.1 with ⟨ha, hhi⟩
    rcases digit_value hb hlower.2.1 with ⟨hb, hlo⟩
    have hbyte : (UInt8.ofNat (16 * a + b)).toNat = 16 * a + b := by
      rw [UInt8.toNat_ofNat']
      omega
    unfold encode.go
    rw [hbyte, ih hrest hlower.2.2, Nat.mul_add_div (by omega), Nat.div_eq_of_lt hb, Nat.mul_add_mod,
      Nat.mod_eq_of_lt hb, Nat.add_zero, hhi, hlo]
  | case4 hi lo rest hnone ih =>
    unfold decode.go at h
    split at h
    . next hi' lo' bytes' ha hb hrest => exact absurd hrest (hnone hi' lo' bytes' ha hb)
    . contradiction

theorem encode_decode {s : String} {bytes : List UInt8} (h : decode s = some bytes)
    (hlower : ∀ c ∈ s.toList, isUpper c = false) : encode bytes = s := by
  unfold encode
  rw [encode.go_decode h hlower, String.ofList_toList]

theorem isUpper_encode (bytes : List UInt8) : ∀ c ∈ (encode bytes).toList, isUpper c = false := by
  unfold encode
  rw [String.toList_ofList]
  induction bytes with
  | nil => nofun
  | cons b bs ih =>
    have hb : b.toNat < 256 := b.toNat_lt
    unfold encode.go
    simp only [List.forall_mem_cons]
    exact ⟨isUpper_digit (by omega), isUpper_digit (by omega), ih⟩

end Hex
