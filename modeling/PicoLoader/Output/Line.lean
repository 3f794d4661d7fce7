import PicoLoader.Memory.Layout
import PicoLoader.Memory.Span
import PicoLoader.Plan.Basic
import PicoLoader.Text.Hex

/-!
# Lines of output

Both a dry run and a load tell the user what happens, one line for each thing. A line is a value;
`PicoLoader.Line.text` is its text, with the end of line. Every text consists of ASCII characters.
-/

namespace PicoLoader

open Memory

/-- One line of output. -/
inductive Line where
  /-- A dry run assumes this layout. -/
  | assumedLayout (layout : Layout)
  /-- Segments meant for flash go to SRAM. -/
  | mirroring
  /-- Segments meant for flash are left out. -/
  | skipping
  /-- A load would stop the device from running out of flash. -/
  | wouldExitXip
  /-- A load would erase this span. -/
  | wouldErase (span : Span)
  /-- A load would write so many bytes to RAM. -/
  | wouldWriteRam (addr : UInt32) (size : Nat)
  /-- A load would write this flash page. -/
  | wouldWritePage (addr : UInt32) (size : Nat)
  /-- A load would start the image here. -/
  | wouldExecute (addr : UInt32)
  /-- The dry run is over. -/
  | dryRunComplete
  /-- The image was started here. -/
  | executing (addr : UInt32)
  /-- The load is over. -/
  | loadComplete
deriving DecidableEq, Repr

/-- The text of a line, with the end of line. -/
def Line.text : Line → String
  | assumedLayout layout =>
    "Dry run: assuming RP2040 memory layout (flash end " ++ Hex.number layout.flashEnd.toNat ++
      ", SRAM end " ++ Hex.number layout.sramEnd.toNat ++ ").\n"
  | mirroring => "Mirroring flash segments into SRAM (use --flash to write flash instead).\n"
  | skipping =>
    "Skipping flash segments that do not fit in SRAM (use --flash to enable flash writes).\n"
  | wouldExitXip => "Dry run: would exit XIP mode.\n"
  | wouldErase span =>
    "Dry run: would erase flash " ++ Hex.number span.start.toNat ++ "-" ++
      Hex.number span.stop.toNat ++ s!" ({span.length.toNat} bytes).\n"
  | wouldWriteRam addr size =>
    "Dry run: would write RAM " ++ Hex.number addr.toNat ++ s!" ({size} bytes).\n"
  | wouldWritePage addr size =>
    "Dry run: would write flash page " ++ Hex.number addr.toNat ++ s!" ({size} bytes).\n"
  | wouldExecute addr => "Dry run: would execute at " ++ Hex.number addr.toNat ++ ".\n"
  | dryRunComplete => "Dry run complete.\n"
  | executing addr => "Executing at " ++ Hex.number addr.toNat ++ ".\n"
  | loadComplete => "Load complete.\n"

/-- The lines about segments meant for flash that are not written to flash. -/
def Plan.notes (plan : Plan) : List Line :=
  (if plan.mirrored then [.mirroring] else []) ++ (if plan.skipped then [.skipping] else [])

end PicoLoader
