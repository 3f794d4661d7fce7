import Mathlib.Logic.Basic
import PicoLoader.Elf.ProgramHeader
import PicoLoader.Memory.Layout

/-!
# Where a segment belongs

A program header has two addresses for its segment, and four numbers decide what becomes of the
bytes: the kind, the size in the file and the two addresses. This file says how, by these numbers
alone.

* `PicoLoader.Elf.ProgramHeader.Loaded` – whether there are bytes to load;
* `PicoLoader.Elf.ProgramHeader.home` – the address that they are for;
* `PicoLoader.Memory.Layout.FlashAt`, `PicoLoader.Memory.Layout.SramAt` – whether an address is one
  of flash, or of SRAM;
* `PicoLoader.Memory.copyPlace` – the address in SRAM that stands for one of flash.

A plan is made with tests of its own. They agree with what is said here (`loaded_iff`,
`home_eq_loadAddress`, `flashAt_iff`, `sramAt_iff`, `copyPlace_eq_mirrored`), and whatever is said
of plans in the following is said in these words.
-/

namespace PicoLoader

open Memory

/-! ### Addresses -/

namespace Memory

/-- Whether an address, as a number, lies in flash. -/
def Layout.FlashAt (layout : Layout) (x : Nat) : Prop :=
  flashStart.toNat ≤ x ∧ x < layout.flashEnd.toNat

instance (layout : Layout) (x : Nat) : Decidable (layout.FlashAt x) :=
  inferInstanceAs (Decidable (_ ∧ _))

/-- Whether an address, as a number, lies in SRAM. -/
def Layout.SramAt (layout : Layout) (x : Nat) : Prop :=
  sramStart.toNat ≤ x ∧ x < layout.sramEnd.toNat

instance (layout : Layout) (x : Nat) : Decidable (layout.SramAt x) :=
  inferInstanceAs (Decidable (_ ∧ _))

/-- The address in SRAM that is as far from the start of SRAM as `x` is from the start of flash. -/
def copyPlace (x : Nat) : Nat := sramStart.toNat + (x - flashStart.toNat)

variable {layout : Layout} {addr : UInt32}

theorem flashAt_iff : layout.FlashAt addr.toNat ↔ layout.isFlash addr = true := by
  rw [Layout.isFlash, Bool.and_eq_true, decide_eq_true_eq, decide_eq_true_eq,
    UInt32.le_iff_toNat_le, UInt32.lt_iff_toNat_lt, Layout.FlashAt]

theorem not_flashAt_iff : ¬layout.FlashAt addr.toNat ↔ layout.isFlash addr = false := by
  rw [flashAt_iff, Bool.not_eq_true]

theorem sramAt_iff : layout.SramAt addr.toNat ↔ layout.isSram addr = true := by
  rw [Layout.isSram, Bool.and_eq_true, decide_eq_true_eq, decide_eq_true_eq,
    UInt32.le_iff_toNat_le, UInt32.lt_iff_toNat_lt, Layout.SramAt]

/-- Two layouts say the same of an address if it is in the flash of both or of neither. -/
theorem isFlash_eq_iff {other : Layout} : layout.isFlash addr = other.isFlash addr ↔
    (layout.FlashAt addr.toNat ↔ other.FlashAt addr.toNat) := by
  rw [Bool.eq_iff_iff, flashAt_iff, flashAt_iff]

theorem copyPlace_eq_mirrored (addr : UInt32) : copyPlace addr.toNat = Layout.mirrored addr := rfl

end Memory

/-! ### Program headers -/

namespace Elf.ProgramHeader

/-- Whether a segment is to be loaded, and has bytes in the file. -/
def Loaded (segment : ProgramHeader) : Prop := segment.kind = 1 ∧ segment.fileSize ≠ 0

instance (segment : ProgramHeader) : Decidable segment.Loaded :=
  inferInstanceAs (Decidable (_ ∧ _))

/-- The address that a segment is for: the physical one, or the virtual one if the physical one is
zero. -/
def home (segment : ProgramHeader) : UInt32 :=
  if segment.physicalAddr = 0 then segment.virtualAddr else segment.physicalAddr

variable {segment : ProgramHeader}

theorem loaded_iff : segment.Loaded ↔ segment.hasBytes = true := by
  rw [hasBytes, isLoad, Bool.and_eq_true, beq_iff_eq, bne_iff_ne, Loaded]

theorem not_loaded_iff : ¬segment.Loaded ↔ segment.hasBytes = false := by
  rw [loaded_iff, Bool.not_eq_true]

theorem home_eq_loadAddress (segment : ProgramHeader) : segment.home = segment.loadAddress := by
  rw [home, loadAddress, ite_not]

/-- A segment with bytes has at least one. -/
theorem Loaded.fileSize_pos (h : segment.Loaded) : 0 < segment.fileSize.toNat :=
  Nat.pos_of_ne_zero fun hzero => h.2 (UInt32.toNat_inj.mp hzero)

end Elf.ProgramHeader

end PicoLoader
