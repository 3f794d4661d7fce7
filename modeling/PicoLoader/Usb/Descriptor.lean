import PicoLoader.Sorting

/-!
# Descriptors

What a device says about itself before it is used. A device has configurations; a configuration is a
list of settings, each for one interface, and an interface may have several alternate settings; a
setting lists its endpoints.

The host hands the settings of a configuration out in two orders: as the device lists them, and
grouped by interface in ascending order of number (`PicoLoader.Usb.byInterface`).
-/

namespace PicoLoader.Usb

/-- One end of a channel on a device. -/
structure Endpoint where
  address : UInt8
  attributes : UInt8
deriving DecidableEq, Repr

namespace Endpoint

/-- Whether transfers go to the host: bit 7 of the address. -/
def isIn (endpoint : Endpoint) : Bool := endpoint.address &&& 0x80 != 0

/-- Whether transfers are bulk transfers: the low two bits of the attributes. -/
def isBulk (endpoint : Endpoint) : Bool := endpoint.attributes &&& 3 == 2

end Endpoint

/-- One way to use one interface. -/
structure Setting where
  interface : UInt8
  alternate : UInt8
  interfaceClass : UInt8
  subclass : UInt8
  protocol : UInt8
  endpoints : List Endpoint
deriving DecidableEq, Repr

/-- Whether a setting is of the vendor's own class, with these codes. -/
def Setting.isVendor (setting : Setting) (subclass protocol : UInt8) : Bool :=
  setting.interfaceClass == 0xff && setting.subclass == subclass && setting.protocol == protocol

/-- The settings of a configuration, in the order of the device. -/
abbrev Configuration := List Setting

/-- The settings grouped by interface, in ascending order of interface number; those of one
interface keep their order. -/
def byInterface (configuration : Configuration) : List Setting :=
  Sorting.sortOn (fun setting => setting.interface.toNat) configuration

/-- A device as the host sees it. The host may refuse to open it, to claim an interface of it, or to
detach another driver and claim; the texts say why. -/
structure Device where
  vendor : UInt16
  product : UInt16
  configurations : List Configuration
  openRefusal : Option String
  claimRefusal : Option String
  detachRefusal : Option String
deriving DecidableEq, Repr

end PicoLoader.Usb
