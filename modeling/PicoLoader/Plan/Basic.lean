import PicoLoader.Memory.PageMap
import PicoLoader.Memory.Span
import PicoLoader.Plan.Placement

/-!
# Plans

A plan is everything that a load does to a device, worked out before the device is touched: blocks
for RAM in the order of the segments, flash pages in the order of their addresses, the spans of
flash to erase, and the entry point.

`PicoLoader.Plan.build` makes the plan of an image. It places every segment and gathers the
placements; it fails with the first fault of a segment, or if flash may not be written and nothing
is left for RAM.
-/

namespace PicoLoader

open Memory

/-- What to write, what to erase, and where to start. -/
structure Plan where
  /-- Written to RAM, in this order. -/
  ram : List Block
  /-- Written to flash. -/
  pages : PageMap
  /-- Erased before any page is written. -/
  erase : List Span
  /-- Whether a segment meant for flash goes to SRAM. -/
  mirrored : Bool
  /-- Whether a segment meant for flash is left out. -/
  skipped : Bool
  entry : UInt32
deriving DecidableEq

namespace Plan

/-- The sectors that a block meets: its first and last byte, rounded outward. -/
def sectors (block : Block) : Span :=
  ⟨alignDown block.addr sectorSize,
    alignUp (block.addr + UInt32.ofNat block.size) sectorSize⟩

/-- Gathers placements into a plan. -/
def gather (entry : UInt32) (placed : List Placement) : Plan :=
  let flash := placed.filterMap Placement.flashBlock?
  { ram := placed.filterMap Placement.ramBlock?
    pages := flash.foldl PageMap.scatter PageMap.empty
    erase := Span.merge (flash.map sectors)
    mirrored := placed.any Placement.isMirrored
    skipped := placed.any Placement.isSkipped
    entry }

/-- Whether there is nothing to write. -/
def isEmpty (plan : Plan) : Bool := plan.pages.isEmpty && plan.ram.isEmpty

/-- Whether a load of the plan writes flash. -/
def writesFlash (plan : Plan) : Bool := !plan.pages.isEmpty

/-- **The plan of an image.** -/
def build (image : Elf.Image) (layout : Layout) (allowFlash : Bool) : Except Fault Plan :=
  match placements image layout allowFlash image.segments with
  | (_, some fault) => .error fault
  | (placed, none) =>
    let plan := gather image.header.entry placed
    if !allowFlash && plan.isEmpty then .error (.plan .nothingForRam) else .ok plan

/-- What planning logs: the placements, up to the first fault. -/
def log (image : Elf.Image) (layout : Layout) (allowFlash : Bool) : List Log.Entry :=
  (placements image layout allowFlash image.segments).1.flatMap Placement.log

/-- The plan of a file, with everything that is logged on the way. A file is given by its bytes, or
by the reason why it has none. -/
def ofFile (file : Except Elf.Error (List UInt8)) (layout : Layout) (allowFlash : Bool) :
    Except Fault Plan × List Log.Entry :=
  match file with
  | .error error => (.error (.image error), [])
  | .ok bytes =>
    match Elf.Image.ofBytes bytes with
    | .error error => (.error (.image error), Elf.Image.log bytes)
    | .ok image =>
      (build image layout allowFlash, Elf.Image.log bytes ++ log image layout allowFlash)

end Plan

end PicoLoader
