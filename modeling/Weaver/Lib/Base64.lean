import Weaver.Lib.Wire

/-!
# Base64 without padding

The URL-safe alphabet, three bytes to four digits. Nothing pads the last group: one byte is written
as two digits and two bytes as three, and the bits that are left over in the last digit are zero.
`decode` accepts nothing else, and `decode_encode` reads back what was written.
-/

namespace Base64

open Wire

def alphabet : List Char :=
  "ABCDEFGHIJKLMNOPQRSTUVWXYZabcdefghijklmnopqrstuvwxyz0123456789-_".toList

/-- The digit with the value, which is less than 64. -/
def digit (n : ℕ) : Char := alphabet.getD n 'A'

def digitValue (c : Char) : Option ℕ := alphabet.idxOf? c

theorem digitValue_digit {n : ℕ} (h : n < 64) : digitValue (digit n) = some n := by
  have hall : ∀ n < 64, digitValue (digit n) = some n := by decide +kernel
  exact hall n h

theorem digit_mem (n : ℕ) : digit n ∈ alphabet := by
  unfold digit
  rw [List.getD_eq_getElem?_getD]
  cases h : alphabet[n]? with
  | none => decide +kernel
  | some c => exact List.mem_of_getElem? h

def encode : Bytes → List Char
  | [] => []
  | [a] => [digit (a.toNat / 4), digit (a.toNat % 4 * 16)]
  | [a, b] =>
    [digit (a.toNat / 4), digit (a.toNat % 4 * 16 + b.toNat / 16), digit (b.toNat % 16 * 4)]
  | a :: b :: c :: rest =>
    digit (a.toNat / 4) :: digit (a.toNat % 4 * 16 + b.toNat / 16) ::
      digit (b.toNat % 16 * 4 + c.toNat / 64) :: digit (c.toNat % 64) :: encode rest

/-- The byte string that the digits spell, if they are canonical. -/
def decode : List Char → Option Bytes
  | [] => some []
  | [_] => none
  | [w, x] => do
    let w ← digitValue w
    let x ← digitValue x
    if x % 16 = 0 then some [UInt8.ofNat (w * 4 + x / 16)] else none
  | [w, x, y] => do
    let w ← digitValue w
    let x ← digitValue x
    let y ← digitValue y
    if y % 4 = 0 then some [UInt8.ofNat (w * 4 + x / 16), UInt8.ofNat (x % 16 * 16 + y / 4)]
    else none
  | w :: x :: y :: z :: rest => do
    let w ← digitValue w
    let x ← digitValue x
    let y ← digitValue y
    let z ← digitValue z
    let bytes ← decode rest
    return UInt8.ofNat (w * 4 + x / 16) :: UInt8.ofNat (x % 16 * 16 + y / 4) ::
      UInt8.ofNat (y % 4 * 64 + z) :: bytes

theorem ofNat_parts (a : UInt8) {n : ℕ} (h : n = a.toNat) : UInt8.ofNat n = a := by
  rw [h, UInt8.ofNat_toNat]

theorem decode_encode (bytes : Bytes) : decode (encode bytes) = some bytes := by
  induction bytes using encode.induct with
  | case1 => rfl
  | case2 a =>
    have ha := a.toNat_lt
    simp only [encode, decode, digitValue_digit (show a.toNat / 4 < 64 by omega),
      digitValue_digit (show a.toNat % 4 * 16 < 64 by omega), Option.bind_eq_bind,
      Option.bind_some]
    rw [if_pos (by omega), ofNat_parts a (by omega)]
  | case3 a b =>
    have ha := a.toNat_lt
    have hb := b.toNat_lt
    simp only [encode, decode, digitValue_digit (show a.toNat / 4 < 64 by omega),
      digitValue_digit (show a.toNat % 4 * 16 + b.toNat / 16 < 64 by omega),
      digitValue_digit (show b.toNat % 16 * 4 < 64 by omega), Option.bind_eq_bind,
      Option.bind_some]
    rw [if_pos (by omega), ofNat_parts a (by omega), ofNat_parts b (by omega)]
  | case4 a b c rest ih =>
    have ha := a.toNat_lt
    have hb := b.toNat_lt
    have hc := c.toNat_lt
    simp only [encode, decode, digitValue_digit (show a.toNat / 4 < 64 by omega),
      digitValue_digit (show a.toNat % 4 * 16 + b.toNat / 16 < 64 by omega),
      digitValue_digit (show b.toNat % 16 * 4 + c.toNat / 64 < 64 by omega),
      digitValue_digit (show c.toNat % 64 < 64 by omega), ih, Option.bind_eq_bind,
      Option.bind_some]
    rw [ofNat_parts a (by omega), ofNat_parts b (by omega), ofNat_parts c (by omega)]
    rfl

theorem mem_alphabet_of_mem_encode {bytes : Bytes} {c : Char} (h : c ∈ encode bytes) :
    c ∈ alphabet := by
  induction bytes using encode.induct with
  | case1 => cases h
  | case2 a =>
    simp only [encode, List.mem_cons, List.not_mem_nil, or_false] at h
    rcases h with rfl | rfl <;> exact digit_mem _
  | case3 a b =>
    simp only [encode, List.mem_cons, List.not_mem_nil, or_false] at h
    rcases h with rfl | rfl | rfl <;> exact digit_mem _
  | case4 a b _ rest ih =>
    simp only [encode, List.mem_cons] at h
    rcases h with rfl | rfl | rfl | rfl | h
    · exact digit_mem _
    · exact digit_mem _
    · exact digit_mem _
    · exact digit_mem _
    · exact ih h

end Base64
