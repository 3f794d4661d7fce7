import PicoLoader.Chip

/-!
# Where flash and SRAM lie

Flash and SRAM start at the same addresses on both chip families and differ in where they end. A
`PicoLoader.Memory.Layout` holds the two ends, and answers the three questions a load asks of an
address: is it flash (`isFlash`), is it SRAM (`isSram`), and where in SRAM does the copy of a flash
range go (`mirror?`).

Main statement: `mirror?_eq_some_iff`, which says exactly when a range has a copy and where.
-/

namespace PicoLoader.Memory

/-- The first address of flash. -/
def flashStart : UInt32 := 0x10000000

/-- The first address of SRAM. -/
def sramStart : UInt32 := 0x20000000

/-- The ends of the two memories: the first address that no longer belongs to each. -/
structure Layout where
  flashEnd : UInt32
  sramEnd : UInt32
deriving DecidableEq, Repr

namespace Layout

/-- 16 MiB of flash window, 264 KiB of SRAM. -/
def rp2040 : Layout := ⟨0x11000000, 0x20042000⟩

/-- 64 MiB of flash window, 520 KiB of SRAM. -/
def rp2350 : Layout := ⟨0x14000000, 0x20082000⟩

/-- The layout of a chip family. -/
def ofChip : Chip → Layout
  | .rp2040 => rp2040
  | .rp2350 => rp2350

/-- Whether `addr` lies in flash. -/
def isFlash (layout : Layout) (addr : UInt32) : Bool :=
  flashStart ≤ addr && addr < layout.flashEnd

/-- Whether `addr` lies in SRAM. -/
def isSram (layout : Layout) (addr : UInt32) : Bool :=
  sramStart ≤ addr && addr < layout.sramEnd

/-- The address in SRAM, counted without a bound, that is as far from the start of SRAM as `addr` is
from the start of flash. -/
def mirrored (addr : UInt32) : Nat :=
  sramStart.toNat + (addr.toNat - flashStart.toNat)

/-- The place in SRAM for a copy of the `size` bytes of flash at `addr`, if all of them fit below
the end of SRAM. -/
def mirror? (layout : Layout) (addr size : UInt32) : Option UInt32 :=
  if flashStart ≤ addr ∧ mirrored addr + size.toNat ≤ layout.sramEnd.toNat then
    some (UInt32.ofNat (mirrored addr))
  else
    none

/-- **When a flash range has a copy in SRAM, and where**: it starts in or above flash, and the copy,
as far into SRAM as the range is into flash, ends at or below the end of SRAM. -/
theorem mirror?_eq_some_iff {layout : Layout} {addr size copy : UInt32} :
    layout.mirror? addr size = some copy ↔
      flashStart ≤ addr ∧ copy.toNat = mirrored addr ∧
        copy.toNat + size.toNat ≤ layout.sramEnd.toNat := by
  have hend := layout.sramEnd.toNat_lt
  simp only [mirror?]
  split
  case isTrue h =>
    have hcopy : (UInt32.ofNat (mirrored addr)).toNat = mirrored addr := by
      rw [UInt32.toNat_ofNat']
      omega
    rw [Option.some.injEq, ← UInt32.toNat_inj, hcopy]
    grind
  case isFalse h => grind

end Layout

end PicoLoader.Memory
