/-!
# Alignment

Flash is erased in sectors and written in pages, so addresses are rounded to multiples of a power of
two. On 32-bit words the rounding is a mask: the complement of `align - 1` clears exactly the bits
below `align`.

* `PicoLoader.Memory.alignDown` – clear the low bits;
* `PicoLoader.Memory.alignUp` – add `align - 1` first, which wraps at the top of the address space.
-/

namespace PicoLoader.Memory

/-- The bytes of a flash page, the unit of writing. -/
def pageSize : UInt32 := 256

/-- The bytes of a flash sector, the unit of erasing. -/
def sectorSize : UInt32 := 4096

/-- Rounds `value` down: clears every bit that `align - 1` has. -/
def alignDown (value align : UInt32) : UInt32 :=
  value &&& ~~~(align - 1)

/-- Rounds `value` up: rounds `value + align - 1` down. -/
def alignUp (value align : UInt32) : UInt32 :=
  (value + align - 1) &&& ~~~(align - 1)

/-- Rounding up is rounding down past the last address below the next multiple. -/
theorem alignUp_eq_alignDown (value align : UInt32) :
    alignUp value align = alignDown (value + align - 1) align := rfl

/-- Rounding down never moves an address up. -/
theorem alignDown_le (value align : UInt32) : alignDown value align ≤ value := by
  rw [alignDown, UInt32.le_iff_toNat_le, UInt32.toNat_and]
  exact Nat.and_le_left

end PicoLoader.Memory
