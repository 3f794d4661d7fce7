/-!
# The two chip families and their USB identities

A board shows itself on the bus under one vendor id and a product id that tells the chip family and
the mode: the boot loader in ROM (BOOTSEL), or firmware with a serial port over USB.
`PicoLoader.Chip.ofProductId?` reads the family off the product id.
-/

namespace PicoLoader

/-- A chip family. -/
inductive Chip where
  | rp2040
  | rp2350
deriving DecidableEq, Repr

namespace Chip

/-- The USB vendor id of both families. -/
def vendorId : UInt16 := 0x2E8A

/-- The product id in BOOTSEL mode. -/
def bootselId : Chip → UInt16
  | rp2040 => 0x0003
  | rp2350 => 0x000f

/-- The product id of firmware with a serial port over USB. -/
def serialId : Chip → UInt16
  | rp2040 => 0x000a
  | rp2350 => 0x0009

/-- Both families. -/
def all : List Chip := [rp2040, rp2350]

/-- The family that uses `product` in either mode. -/
def ofProductId? (product : UInt16) : Option Chip :=
  all.find? fun chip => product == chip.bootselId || product == chip.serialId

/-- Whether `product` is the id of a board in BOOTSEL mode. -/
def isBootselId (product : UInt16) : Bool :=
  all.any fun chip => product == chip.bootselId

/-- The name shown for a family. -/
def name : Chip → String
  | rp2040 => "Rp2040"
  | rp2350 => "Rp2350"

@[simp] theorem ofProductId?_bootselId (chip : Chip) : ofProductId? chip.bootselId = some chip := by
  cases chip <;> decide

@[simp] theorem ofProductId?_serialId (chip : Chip) : ofProductId? chip.serialId = some chip := by
  cases chip <;> decide

end Chip

end PicoLoader
