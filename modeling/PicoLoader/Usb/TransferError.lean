/-!
# How a USB transfer can fail

The host controller reports a failed transfer with one of five causes. One of them matters to the
protocols above: a device that starts an image or reboots drops off the bus, so `disconnected` is
what success can look like.
-/

namespace PicoLoader.Usb

/-- Why a transfer failed. -/
inductive TransferError where
  /-- The host gave up the transfer. -/
  | cancelled
  /-- The device answered with a stall: it does not accept the request. -/
  | stall
  /-- The device is no longer on the bus. -/
  | disconnected
  /-- The hardware failed or broke the protocol. -/
  | fault
  /-- The host gave no cause. -/
  | unknown
deriving DecidableEq, Repr

namespace TransferError

/-- All causes. -/
def all : List TransferError := [cancelled, stall, disconnected, fault, unknown]

/-- The name of the cause. -/
def name : TransferError → String
  | cancelled => "Cancelled"
  | stall => "Stall"
  | disconnected => "Disconnected"
  | fault => "Fault"
  | unknown => "Unknown"

/-- The text shown to the user. -/
def message : TransferError → String
  | cancelled => "transfer was cancelled"
  | stall => "endpoint STALL condition"
  | disconnected => "device disconnected"
  | fault => "hardware fault or protocol violation"
  | unknown => "unknown error"

end TransferError

end PicoLoader.Usb
