import PicoLoader.Text.Hex

/-!
# Why an image cannot be loaded as asked

An image can be well formed and still not loadable: it leaves the address space, it has nothing for
RAM, or its entry point is not a place to start from. Each cause is one constructor; the text shown
to the user names the address where there is one.
-/

namespace PicoLoader.Plan

/-- A reason not to load an image the way it was asked for. -/
inductive Problem where
  /-- The segment that begins here ends past the last address that can be used. -/
  | pastAddressSpace (addr : UInt32)
  /-- Flash may not be written, and no segment goes to RAM. -/
  | nothingForRam
  /-- The entry point is zero. -/
  | entryZero
  /-- The entry point lies in flash, and flash there has no copy in SRAM. -/
  | entryUnmirrored (addr : UInt32)
  /-- The entry point lies in no memory. -/
  | entryOutside (addr : UInt32)
  /-- A reason given in words. -/
  | stated (text : String)
deriving DecidableEq, Repr

/-- The text shown to the user. -/
def Problem.message : Problem → String
  | pastAddressSpace addr =>
    "Segment at " ++ Hex.number addr.toNat ++ " runs past the end of the address space."
  | nothingForRam =>
    "No loadable RAM segments found (flash segments skipped). Use --flash to enable flash writes."
  | entryZero => "ELF entry point is zero; cannot execute."
  | entryUnmirrored addr =>
    "Entry point " ++ Hex.number addr.toNat ++
      " cannot be mirrored into SRAM. Use --flash to run from flash."
  | entryOutside addr => "Entry point " ++ Hex.number addr.toNat ++ " is not in flash or SRAM."
  | stated text => text

end PicoLoader.Plan
