/-!
# Calls to a device

The five things that a load asks of a device. A call is a value, so that what a load asks can be
written down, compared and replayed on a memory, whatever the device answers.
-/

namespace PicoLoader.Load

/-- One request to a device. -/
inductive Call where
  /-- Forget what an earlier user of the device has left unfinished. -/
  | resetInterface
  /-- Stop running out of flash, so that flash can be written. -/
  | exitXip
  /-- Erase `size` bytes of flash. -/
  | erase (addr size : UInt32)
  /-- Store bytes, in RAM or in erased flash. -/
  | write (addr : UInt32) (bytes : List UInt8)
  /-- Start the program at an address. -/
  | exec (addr : UInt32)
deriving DecidableEq, Repr

/-- The address that a call works on; zero if it works on none. -/
def Call.addr : Call → UInt32
  | resetInterface => 0
  | exitXip => 0
  | erase addr _ => addr
  | write addr _ => addr
  | exec addr => addr

end PicoLoader.Load
