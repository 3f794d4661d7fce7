import PicoLoader.Usb.Descriptor

/-!
# Finding the boot loader on a device

The boot loader listens on an interface of the vendor's own class with a bulk endpoint in each
direction. `PicoLoader.Picoboot.Endpoints.find?` looks for one: through the configurations in order,
through the interfaces of each in ascending order of number, through the settings of each in the
order of the device. Endpoints of different settings are never put together; of several endpoints
of one direction in a setting the last counts.
-/

namespace PicoLoader.Picoboot

open Usb

/-- The interface of the boot loader and its two bulk endpoints. -/
structure Endpoints where
  interface : UInt8
  bulkOut : UInt8
  bulkIn : UInt8
deriving DecidableEq, Repr

/-- The address of the last bulk endpoint of a setting in one direction. -/
def lastBulk? (setting : Setting) (isIn : Bool) : Option UInt8 :=
  ((setting.endpoints.filter fun e => e.isBulk && e.isIn == isIn).getLast?).map Endpoint.address

namespace Endpoints

/-- The endpoints of a setting, if it is one of the boot loader. -/
def ofSetting? (setting : Setting) : Option Endpoints :=
  if setting.isVendor 0 0 then
    match lastBulk? setting false, lastBulk? setting true with
    | some bulkOut, some bulkIn => some ⟨setting.interface, bulkOut, bulkIn⟩
    | _, _ => none
  else none

/-- **The endpoints of the boot loader on a device**: those of the first setting that has them. -/
def find? (device : Device) : Option Endpoints :=
  device.configurations.findSome? fun configuration =>
    (byInterface configuration).findSome? ofSetting?

/-- How a log shows endpoints. -/
def shown (endpoints : Endpoints) : String :=
  let interface := endpoints.interface.toNat
  let bulkOut := endpoints.bulkOut.toNat
  let bulkIn := endpoints.bulkIn.toNat
  s!"PicobootEndpoints \x7b interface_number: {interface}, endpoint_out_addr: {bulkOut}, " ++
    s!"endpoint_in_addr: {bulkIn} \x7d"

end Endpoints

end PicoLoader.Picoboot
