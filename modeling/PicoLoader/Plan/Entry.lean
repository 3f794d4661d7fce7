import PicoLoader.Plan.Basic

/-!
# Where to start

The entry point of an image is an address of the image as it was linked. If flash may be written the
image is where it was linked, and the entry point is taken as it is. If not, an entry point in flash
moves to SRAM along with the segments, and any other has to be in SRAM already.
-/

namespace PicoLoader.Plan

open Memory

/-- The bytes that an entry point in flash needs in SRAM: one instruction. -/
def entrySize : UInt32 := 4

/-- **The address to start at** once the plan has been carried out. -/
def startAddress (plan : Plan) (layout : Layout) (allowFlash : Bool) : Except Problem UInt32 :=
  if plan.entry = 0 then .error .entryZero
  else if allowFlash then .ok plan.entry
  else if layout.isFlash plan.entry then
    match layout.mirror? plan.entry entrySize with
    | some copy => .ok copy
    | none => .error (.entryUnmirrored plan.entry)
  else if layout.isSram plan.entry then .ok plan.entry
  else .error (.entryOutside plan.entry)

end PicoLoader.Plan
