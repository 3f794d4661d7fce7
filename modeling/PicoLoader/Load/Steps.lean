import PicoLoader.Load.Step
import PicoLoader.Plan.Entry

/-!
# The steps of a plan

Carrying out a plan takes the interface over, tells the notes, prepares flash, writes RAM, writes
flash pages, and starts the image if asked to.

* `PicoLoader.Load.ramSteps` – a block for RAM, in writes of at most `PicoLoader.Load.chunkSize`
  bytes;
* `PicoLoader.Load.flashSteps` – leaving flash and erasing, if there are pages to write;
* `PicoLoader.Load.pageStep` – one flash page, in one write;
* `PicoLoader.Load.endSteps` – starting the image, and the last line;
* `PicoLoader.Load.steps` – all of them.
-/

namespace PicoLoader.Load

open Memory

/-- The most bytes that one write to RAM carries. -/
def chunkSize : Nat := 1024

/-- The writes of `bytes`, which begin `offset` bytes into a block at `addr`. A write that would
begin past the end of the address space is a fault of the whole block. -/
def chunkSteps (addr : UInt32) (offset : Nat) (bytes : List UInt8) : List Step :=
  if bytes = [] then []
  else if addr.toNat + offset < UInt32.size then
    .require (.write (addr + UInt32.ofNat offset) (bytes.take chunkSize)) .ramWrite ::
      chunkSteps addr (offset + chunkSize) (bytes.drop chunkSize)
  else [.stop (.plan (.pastAddressSpace addr))]
termination_by bytes.length
decreasing_by
  rename_i hne _
  have hlen : 0 < bytes.length := List.length_pos_iff.mpr hne
  rw [List.length_drop, chunkSize]
  omega

/-- The steps for a block for RAM. -/
def ramSteps (block : Block) : List Step :=
  .note ⟨.debug, .load,
    s!"writing {block.size} bytes to " ++ Hex.number block.addr.toNat⟩ ::
      chunkSteps block.addr 0 block.bytes

/-- The steps that erase one span. -/
def eraseSteps (span : Span) : List Step :=
  [.note ⟨.debug, .load,
      "erasing " ++ Hex.number span.start.toNat ++ "-" ++ Hex.number span.stop.toNat⟩,
    .require (.erase span.start span.length) .flashErase]

/-- The steps that prepare flash: none if no page is to be written. -/
def flashSteps (plan : Plan) : List Step :=
  if plan.writesFlash then
    .attempt .exitXip "Failed to exit XIP mode" :: plan.erase.flatMap eraseSteps
  else []

/-- The step for one flash page. -/
def pageStep (page : Block) : Step :=
  .require (.write page.addr page.bytes) .flashWrite

/-- The steps that end a load. With `start` the image is started. -/
def endSteps (plan : Plan) (layout : Layout) (allowFlash start : Bool) : List Step :=
  if start then
    match plan.startAddress layout allowFlash with
    | .ok addr => [.require (.exec addr) .exec, .say (.executing addr), .say .loadComplete]
    | .error problem => [.stop (.plan problem)]
  else [.say .loadComplete]

/-- **The steps of a plan.** -/
def steps (plan : Plan) (layout : Layout) (allowFlash start : Bool) : List Step :=
  .attempt .resetInterface "reset interface failed" :: plan.notes.map .say ++ flashSteps plan ++
    plan.ram.flatMap ramSteps ++ plan.pages.pages.map pageStep ++
    endSteps plan layout allowFlash start

/-- **Carries out a plan** on a target: the result, the state of the target, and the sink. -/
def perform {σ : Type} (target : Target σ) (plan : Plan) (layout : Layout)
    (allowFlash start : Bool) (state : σ) (sink : Sink) : Except Fault Unit × σ × Sink :=
  run target state sink (steps plan layout allowFlash start)

end PicoLoader.Load
