import PicoLoader.Picoboot.Endpoints
import PicoLoader.Reboot.ResetInterface

/-!
# Ways to reboot a board

A board can be rebooted by its boot loader, which runs in BOOTSEL mode only, or through the reset
interface of its firmware. Which of the two is used depends on where the board should end up: only
the reset interface leads into BOOTSEL mode, and the boot loader is the better way out of it. A
board with nothing but its boot loader is in BOOTSEL mode already.

`PicoLoader.Reboot.Interfaces.route` makes the choice. It fails exactly where there is neither
(`PicoLoader.Reboot.Interfaces.route_eq_error_iff`).
-/

namespace PicoLoader.Reboot

open Picoboot Usb

/-- The interfaces of a board that can reboot it. -/
structure Interfaces where
  picoboot : Option Endpoints
  reset : Option UInt8
deriving DecidableEq, Repr

/-- A way to reboot a board. -/
inductive Route where
  | picoboot (endpoints : Endpoints)
  | reset (interface : UInt8) (request : ResetRequest)
  /-- Nothing has to be done. -/
  | alreadyInBootsel
deriving DecidableEq, Repr

namespace Interfaces

/-- The interfaces of a device, by its descriptors. -/
def ofDevice (device : Device) : Interfaces := ⟨Endpoints.find? device, resetInterface? device⟩

/-- Whether there is any interface that can reboot the board. -/
def any (interfaces : Interfaces) : Bool := interfaces.picoboot.isSome || interfaces.reset.isSome

/-- **The way to reboot**, into BOOTSEL mode or else into the program in flash. -/
def route (interfaces : Interfaces) (bootsel : Bool) : Except Fault Route :=
  match bootsel, interfaces.picoboot, interfaces.reset with
  | true, _, some interface => .ok (.reset interface .bootsel)
  | true, some _, none => .ok .alreadyInBootsel
  | false, some endpoints, _ => .ok (.picoboot endpoints)
  | false, none, some interface => .ok (.reset interface .flash)
  | _, none, none => .error .noInterface

/-- There is no way to reboot exactly where there is no interface for it. -/
theorem route_eq_error_iff {interfaces : Interfaces} {bootsel : Bool} {fault : Fault} :
    interfaces.route bootsel = .error fault ↔
      interfaces.any = false ∧ fault = .noInterface := by
  obtain ⟨picoboot, reset⟩ := interfaces
  cases bootsel <;> cases picoboot <;> cases reset <;> simp [route, any, eq_comm]

end Interfaces

end PicoLoader.Reboot
