import PicoLoader.Usb.Host

/-!
# The reset interface

Firmware with a serial port over USB has, beside it, an interface of the vendor's own class that
takes one kind of request: to reset the board, either into BOOTSEL mode or back into the program in
its flash. The request is a control transfer without data. A board may leave the bus before it
completes that transfer, so a disconnection counts as success.

* `PicoLoader.Reboot.resetInterface?` – the number of the interface on a device;
* `PicoLoader.Reboot.sendReset` – the request.
-/

namespace PicoLoader.Reboot

open Usb

/-- What the board does after a reset. -/
inductive ResetRequest where
  | bootsel
  | flash
deriving DecidableEq, Repr

namespace ResetRequest

/-- The byte that asks for a reset. -/
def code : ResetRequest → UInt8
  | bootsel => 1
  | flash => 2

/-- The name shown for a request. -/
def name : ResetRequest → String
  | bootsel => "Bootsel"
  | flash => "Flash"

end ResetRequest

/-- The number of the first reset interface of a device: through the configurations in order,
through the settings of each in the order of the device. -/
def resetInterface? (device : Device) : Option UInt8 :=
  device.configurations.findSome? fun configuration =>
    (configuration.find? fun setting => setting.isVendor 0 1).map Setting.interface

/-- A device has a reset interface if and only if one of its settings is of that kind. -/
theorem isSome_resetInterface?_iff {device : Device} :
    (resetInterface? device).isSome ↔
      ∃ configuration ∈ device.configurations, ∃ setting ∈ configuration,
        setting.isVendor 0 1 := by
  simp [resetInterface?, List.findSome?_isSome_iff]

/-- The time limit for a reset request, in milliseconds. -/
def resetLimit : Nat := 2000

/-- The request type of control transfers to an interface, from the host, in the sense of its
class. -/
def classOut : UInt8 := 0x21

/-- The head of a reset request. -/
def ResetRequest.setup (request : ResetRequest) (interface : UInt8) : Setup :=
  ⟨classOut, request.code, 0, interface.toUInt16⟩

/-- **Asks an open device to reset**, through its reset interface. -/
def sendReset (device : Device) (interface : UInt8) (request : ResetRequest) :
    Attempt Host Unit := do
  claim device interface
  let number := interface.toNat
  note ⟨.debug, .reset, s!"sending {request.name} reset request on interface {number}"⟩
  (controlOut (request.setup interface) [] resetLimit).acceptDisconnect

end PicoLoader.Reboot
