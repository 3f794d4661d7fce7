import Mathlib.Algebra.Group.Nat.Even
import PicoLoader.Bytes.LittleEndian

/-!
# What a count of bytes can hold

A list of bytes spells a number below the power of 256 of its length (`decode_lt`), and a number
that is written at a width is read back up to a multiple of that power (`decode_encode`). So a list
is the numbers in its fields, written one after the other (`encode_field_append_drop`).
-/

namespace PicoLoader.LittleEndian

/-- A list of bytes spells a number below the power of 256 of its length. -/
theorem decode_lt (bytes : List UInt8) : decode bytes < 256 ^ bytes.length := by
  induction bytes with
  | nil => simp [decode]
  | cons b bs ih =>
    have hb := b.toNat_lt
    simp only [decode, List.length_cons, Nat.pow_succ]
    omega

/-- **Writing, then reading**, gives the number back, reduced to what the width can hold. -/
theorem decode_encode (width n : Nat) : decode (encode width n) = n % 256 ^ width := by
  induction width generalizing n with
  | zero => simp [encode, decode, Nat.mod_one]
  | succ width ih =>
    rw [encode, decode, ih, Nat.pow_succ, Nat.mul_comm (256 ^ width), Nat.mod_mul]
    simp [UInt8.toNat_ofNat']

/-- A word is read back from its bytes. -/
theorem ofNat_decode_encode (word : UInt32) :
    UInt32.ofNat (decode (encode 4 word.toNat)) = word := by
  have hlt : word.toNat < 256 ^ 4 := word.toNat_lt
  rw [decode_encode, Nat.mod_eq_of_lt hlt, UInt32.ofNat_toNat]

/-- So is half a word. -/
theorem ofNat_decode_encode_half (half : UInt16) :
    UInt16.ofNat (decode (encode 2 half.toNat)) = half := by
  have hlt : half.toNat < 256 ^ 2 := half.toNat_lt
  rw [decode_encode, Nat.mod_eq_of_lt hlt, UInt16.ofNat_toNat]

/-! ### Fields -/

variable {bytes : List UInt8} {offset width : Nat}

/-- A field holds a number of its width. -/
theorem field_lt (bytes : List UInt8) (offset width : Nat) :
    field bytes offset width < 256 ^ width := by
  refine Nat.lt_of_lt_of_le (decode_lt _) (Nat.pow_le_pow_right (by decide) ?_)
  rw [List.length_take]
  exact Nat.min_le_left _ _

/-- **A list from some place on** is the field at that place, and the list from behind it on. -/
theorem encode_field_append_drop (h : offset + width ≤ bytes.length) :
    encode width (field bytes offset width) ++ bytes.drop (offset + width) =
      bytes.drop offset := by
  have hlength : ((bytes.drop offset).take width).length = width := by
    rw [List.length_take, List.length_drop]
    omega
  have hback := encode_decode ((bytes.drop offset).take width)
  rw [hlength] at hback
  rw [field, hback, ← List.drop_drop, List.take_append_drop]

end PicoLoader.LittleEndian
