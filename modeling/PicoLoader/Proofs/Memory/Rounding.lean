import Mathlib.Algebra.Group.Nat.Even
import PicoLoader.Memory.Align

/-!
# Alignment is rounding

`PicoLoader.Memory.alignDown` and `PicoLoader.Memory.alignUp` are masks. This file says what they do
to the *numbers*, for every power of two: the mask clears the bits below the power, so rounding down
gives the multiple at or below (`toNat_alignDown`), and rounding up is rounding down from the last
address below the next multiple (`toNat_alignUp`).

Flash is addressed by numbers from here on: the page of an address `x` has the number `x / 256`, its
sector the number `x / 4096`.
-/

namespace PicoLoader.Memory

variable {value align : UInt32} {k : Nat}

/-- The predecessor of a power of two has exactly the bits below it. -/
theorem testBit_pred (h : align.toNat = 2 ^ k) (i : Nat) :
    (align - 1).toNat.testBit i = decide (i < k) := by
  have hone : (1 : UInt32) ≤ align := by
    rw [UInt32.le_iff_toNat_le, h]
    exact Nat.one_le_two_pow
  rw [UInt32.toNat_sub_of_le _ _ hone, h]
  exact Nat.testBit_two_pow_sub_one k i

/-- **Rounding down** gives the multiple at or below. -/
theorem toNat_alignDown (h : align.toNat = 2 ^ k) :
    (alignDown value align).toNat = align.toNat * (value.toNat / align.toNat) := by
  -- Bit by bit: both sides have the bits of the value from `k` on, and no other.
  apply Nat.eq_of_testBit_eq
  intro i
  have hmask : (alignDown value align).toNat.testBit i =
      (value.toNat.testBit i && (decide (i < 32) && !(align - 1).toNat.testBit i)) := by
    change (value.toBitVec &&& ~~~(align - 1).toBitVec).getLsbD i = _
    rw [BitVec.getLsbD_and, BitVec.getLsbD_not]
    rfl
  rw [hmask, testBit_pred h, h, Nat.testBit_two_pow_mul, Nat.testBit_div_two_pow]
  rcases Nat.lt_or_ge i k with hik | hki
  · simp [hik, Nat.not_le.mpr hik]
  rcases Nat.lt_or_ge i 32 with hi | hi
  · simp [hi, hki, Nat.not_lt.mpr hki, Nat.sub_add_cancel hki]
  · -- A word has no bits from 32 on, so both sides are off.
    have hoff : value.toNat.testBit i = false :=
      Nat.testBit_lt_two_pow
        (Nat.lt_of_lt_of_le value.toNat_lt (Nat.pow_le_pow_right (by decide) hi))
    simp [Nat.sub_add_cancel hki, hoff]

/-- **Rounding up** gives the multiple at or below the last address before the next multiple. -/
theorem toNat_alignUp (h : align.toNat = 2 ^ k)
    (hfits : value.toNat + (align.toNat - 1) < UInt32.size) :
    (alignUp value align).toNat =
      align.toNat * ((value.toNat + (align.toNat - 1)) / align.toNat) := by
  have hone : (1 : UInt32) ≤ align := by
    rw [UInt32.le_iff_toNat_le, h]
    exact Nat.one_le_two_pow
  have hlast : (value + align - 1).toNat = value.toNat + (align.toNat - 1) := by
    have hassoc : value + align - 1 = value + (align - 1) := by
      rw [UInt32.sub_eq_add_neg, UInt32.sub_eq_add_neg, UInt32.add_assoc]
    rw [hassoc, UInt32.toNat_add, UInt32.toNat_sub_of_le _ _ hone]
    exact Nat.mod_eq_of_lt hfits
  rw [alignUp_eq_alignDown, toNat_alignDown h, hlast]

/-! ### Pages and sectors -/

@[simp] theorem toNat_pageSize : pageSize.toNat = 256 := rfl

@[simp] theorem toNat_sectorSize : sectorSize.toNat = 4096 := rfl

/-- The first address of the page of an address. -/
theorem toNat_alignDown_pageSize (addr : UInt32) :
    (alignDown addr pageSize).toNat = 256 * (addr.toNat / 256) :=
  toNat_alignDown (k := 8) rfl

/-- The first address of the sector of an address. -/
theorem toNat_alignDown_sectorSize (addr : UInt32) :
    (alignDown addr sectorSize).toNat = 4096 * (addr.toNat / 4096) :=
  toNat_alignDown (k := 12) rfl

/-- One past the sector of the address before `addr`. -/
theorem toNat_alignUp_sectorSize {addr : UInt32} (hfits : addr.toNat + 4095 < UInt32.size) :
    (alignUp addr sectorSize).toNat = 4096 * ((addr.toNat + 4095) / 4096) :=
  toNat_alignUp (k := 12) rfl hfits

end PicoLoader.Memory
