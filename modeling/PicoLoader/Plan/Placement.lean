import PicoLoader.Elf.Image
import PicoLoader.Fault
import PicoLoader.Memory.Block
import PicoLoader.Memory.Layout

/-!
# Where each segment goes

Every program header is looked at once, on its own. A header with nothing to load has no placement;
any other gets one of four, or a fault:

| address | flash may be written | placement |
|---|---|---|
| not in flash | – | `ram` |
| in flash | no, and a copy fits into SRAM | `mirrored` |
| in flash | no, and no copy fits | `skipped` |
| in flash | yes | `flash` |

`PicoLoader.Plan.placements` goes through the headers in file order and stops at the first fault.
What was placed before it is kept, because it has been logged by then.
-/

namespace PicoLoader

open Memory

/-- What becomes of a segment with bytes to load. -/
inductive Placement where
  /-- Written to its own address. -/
  | ram (block : Block)
  /-- Meant for flash at `source`, written to SRAM instead. -/
  | mirrored (source : UInt32) (block : Block)
  /-- Meant for flash, and not written at all. -/
  | skipped (addr size : UInt32)
  /-- Written to flash. -/
  | flash (block : Block)
deriving DecidableEq, Repr

namespace Placement

/-- The block that is written to RAM. -/
def ramBlock? : Placement → Option Block
  | ram block => some block
  | mirrored _ block => some block
  | skipped _ _ => none
  | flash _ => none

/-- The block that is written to flash. -/
def flashBlock? : Placement → Option Block
  | flash block => some block
  | _ => none

/-- Whether the segment goes to SRAM in place of flash. -/
def isMirrored : Placement → Bool
  | mirrored _ _ => true
  | _ => false

/-- Whether the segment is left out. -/
def isSkipped : Placement → Bool
  | skipped _ _ => true
  | _ => false

/-- What is logged about a placement. Nothing is said about segments that go to flash. -/
def log : Placement → List Log.Entry
  | ram block =>
    [⟨.debug, .plan,
      "RAM segment " ++ Hex.number block.addr.toNat ++ s!" ({block.size} bytes)"⟩]
  | mirrored source block =>
    [⟨.debug, .plan, "mirroring flash segment " ++ Hex.number source.toNat ++ " to " ++
      Hex.number block.addr.toNat⟩]
  | skipped addr size =>
    [⟨.debug, .plan, "flash segment " ++ Hex.number addr.toNat ++
      s!" ({size.toNat} bytes) does not fit in SRAM"⟩]
  | flash _ => []

end Placement

namespace Plan

/-- The highest address at which a segment of flash may end. It leaves room to round the end up to a
sector. -/
def flashLimit : Nat := UInt32.size - 1 - sectorSize.toNat

/-- Places the bytes of a segment, as the table above has it. -/
def placeBytes (layout : Layout) (allowFlash : Bool) (segment : Elf.ProgramHeader)
    (bytes : List UInt8) : Except Problem Placement :=
  let block : Block := ⟨segment.loadAddress, bytes⟩
  if !layout.isFlash block.addr then
    if block.stop < UInt32.size then .ok (.ram block) else .error (.pastAddressSpace block.addr)
  else if !allowFlash then
    match layout.mirror? block.addr segment.fileSize with
    | some copy => .ok (.mirrored block.addr ⟨copy, bytes⟩)
    | none => .ok (.skipped block.addr segment.fileSize)
  else if block.stop ≤ flashLimit then .ok (.flash block)
  else .error (.pastAddressSpace block.addr)

/-- The placement of one segment; none if it has nothing to load. -/
def place (image : Elf.Image) (layout : Layout) (allowFlash : Bool) (segment : Elf.ProgramHeader) :
    Except Fault (Option Placement) :=
  if !segment.hasBytes then .ok none
  else if segment.loadAddress = 0 then .error (.image .noLoadAddress)
  else
    match image.content segment with
    | .error error => .error (.image error)
    | .ok bytes =>
      match placeBytes layout allowFlash segment bytes with
      | .error problem => .error (.plan problem)
      | .ok placement => .ok (some placement)

/-- The placements of some segments in order, up to the first fault if there is one. -/
def placements (image : Elf.Image) (layout : Layout) (allowFlash : Bool) :
    List Elf.ProgramHeader → List Placement × Option Fault
  | [] => ([], none)
  | segment :: segments =>
    match place image layout allowFlash segment with
    | .error fault => ([], some fault)
    | .ok none => placements image layout allowFlash segments
    | .ok (some placement) =>
      let (placed, fault?) := placements image layout allowFlash segments
      (placement :: placed, fault?)

end Plan

end PicoLoader
