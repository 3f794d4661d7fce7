import PicoLoader.Load.Steps
import PicoLoader.Picoboot.Session

/-!
# Loading over USB

A session with a boot loader is a target: each call of a load is an operation, except that taking
the interface over is a request of its own. `PicoLoader.Load.overUsb` is the whole load of a file,
from finding the board to the last line of output. The board is found first, because its chip
decides the layout that the file is planned for.
-/

namespace PicoLoader.Load

open Memory Picoboot Usb

/-- The operation that a call asks for; none for taking the interface over. -/
def Call.operation? : Call → Option Operation
  | resetInterface => none
  | exitXip => some .exitXip
  | erase addr size => some (.flashErase addr size)
  | write addr bytes => some (.write addr bytes)
  | exec addr => some (.exec addr)

/-- A session as the target of a load. -/
def sessionTarget : Target Session where
  perform call :=
    match call.operation? with
    | some operation => Session.perform operation
    | none => Session.takeOver
  note := Session.note

/-- Carries out a plan, or fails with the fault there is in place of one. -/
def performPlan (connection : Connection) (planned : Except Fault Plan)
    (allowFlash start : Bool) (host : Host) (sink : Sink) : Except Fault Unit × Host × Sink :=
  match planned with
  | .error fault => (.error fault, host, sink)
  | .ok plan =>
    let (result, session, sink) :=
      perform sessionTarget plan (.ofChip connection.chip) allowFlash start
        (Session.start connection host) sink
    (result, session.host, sink)

/-- **Loads a file onto the first board in BOOTSEL mode.** Once the board is found, `greeting` is
logged for its chip; then the file is read. -/
def overUsb (bus : Bus) (file : Except Elf.Error (List UInt8)) (allowFlash start : Bool)
    (greeting : Chip → List Log.Entry) (host : Host) (sink : Sink) :
    Except Fault Unit × Host × Sink :=
  match connect bus host with
  | (.error fault, host) => (.error fault, host, sink)
  | (.ok connection, host) =>
    let (planned, log) := Plan.ofFile file (.ofChip connection.chip) allowFlash
    let host := { host with log := host.log ++ greeting connection.chip ++ log }
    performPlan connection planned allowFlash start host sink

end PicoLoader.Load
