import PicoLoader.Picoboot.Session
import PicoLoader.Reboot.Scan

/-!
# Rebooting a board

`PicoLoader.Reboot.perform` takes the way that the interfaces of an open board leave. On the way
through the boot loader, each chip family has its own command; a board that leaves the bus in the
middle of it has begun to reboot, so a disconnection counts as success there as well.
-/

namespace PicoLoader.Reboot

open Picoboot Usb

/-- What a request for a reboot has come to. -/
inductive Outcome where
  /-- The board was told to reboot. -/
  | sent
  /-- The board was told to reboot into BOOTSEL mode. -/
  | bootselRequested
  /-- The board is in BOOTSEL mode, and was left alone. -/
  | alreadyInBootsel
deriving DecidableEq, Repr

/-- How long a boot loader waits before it reboots, in milliseconds. -/
def delay : UInt32 := 500

/-- The operation that makes the boot loader of a chip reboot. -/
def operation : Chip → Operation
  | .rp2040 => .reboot 0 0 delay
  | .rp2350 => .rebootNormal delay

/-- Makes the boot loader of a connection reboot, in a session of one operation. -/
def viaPicoboot (connection : Connection) : Attempt Host Unit := fun host =>
  let (result, session) :=
    (Session.perform (operation connection.chip)).acceptDisconnect (.start connection host)
  (result, session.host)

/-- What a reset request comes to. -/
def ResetRequest.outcome : ResetRequest → Outcome
  | bootsel => .bootselRequested
  | flash => .sent

/-- Takes a way to reboot. -/
def follow (board : Board) : Route → Attempt Host Outcome
  | .alreadyInBootsel => pure .alreadyInBootsel
  | .reset interface request => do
    sendReset board.device interface request
    pure request.outcome
  | .picoboot endpoints => do
    viaPicoboot (← claimFor board.device board.chip endpoints)
    pure .sent

/-- **Reboots an open board**, into BOOTSEL mode or else into the program in flash. -/
def perform (board : Board) (bootsel : Bool) : Attempt Host Outcome :=
  match board.interfaces.route bootsel with
  | .ok route => follow board route
  | .error fault => .fail fault

end PicoLoader.Reboot
