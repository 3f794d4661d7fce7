import PicoLoader.Elf.Error
import PicoLoader.Picoboot.Status
import PicoLoader.Plan.Problem
import PicoLoader.Usb.TransferError

/-!
# Faults

Everything that can end an operation, from the image file to the device. Each fault is a cause with
its data; `PicoLoader.Fault.message` is the one place that puts faults into words.

A fault during a load is wrapped: `load` names the stage that failed and the address it worked on,
and keeps the cause inside.
-/

namespace PicoLoader

/-- The part of a load that was under way. -/
inductive Stage where
  | flashErase
  | ramWrite
  | flashWrite
  | exec
  /-- A part that goes by this name. -/
  | named (label : String)
deriving DecidableEq, Repr

namespace Stage

/-- The name shown for a stage. -/
def label : Stage → String
  | flashErase => "Flash erase"
  | ramWrite => "RAM write"
  | flashWrite => "Flash write"
  | exec => "Exec"
  | named label => label

/-- The stage that a label names. -/
def ofLabel (label : String) : Stage :=
  match [flashErase, ramWrite, flashWrite, exec].find? fun stage => stage.label == label with
  | some stage => stage
  | none => named label

@[simp] theorem label_ofLabel (label : String) : (ofLabel label).label = label := by
  unfold ofLabel
  split
  case h_1 stage h => simpa using List.find?_some h
  case h_2 => rfl

end Stage

/-- What ended an operation. -/
inductive Fault where
  /-- The image file is not usable. -/
  | image (error : Elf.Error)
  /-- The host failed outside a transfer: listing, opening, claiming, or writing output. -/
  | host (text : String)
  /-- A USB transfer failed. -/
  | transfer (error : Usb.TransferError)
  /-- A USB transfer did not end in time. -/
  | timedOut
  /-- No board in BOOTSEL mode is on the bus. -/
  | noBootselDevice
  /-- No board is on the bus. -/
  | noDevice
  /-- The board has no interface that could be used. -/
  | noInterface
  /-- The boot loader reported a status for a command. -/
  | reported (command : UInt8) (status : Picoboot.Status)
  /-- A transfer moved fewer or more bytes than it had to. -/
  | shortTransfer (expected actual : Nat)
  /-- A stage of a load failed at an address. -/
  | load (stage : Stage) (addr : UInt32) (cause : Fault)
  /-- The image cannot be loaded as asked. -/
  | plan (problem : Plan.Problem)
deriving DecidableEq, Repr

namespace Fault

/-- The text shown to the user. -/
def message : Fault → String
  | image error => "ELF parse failed: " ++ error.message
  | host text => text
  | transfer error => "USB transfer failed: " ++ error.message
  | timedOut => "USB transfer timed out"
  | noBootselDevice => "No Raspberry Pi BOOTSEL device found."
  | noDevice => "No Raspberry Pi USB device found."
  | noInterface => "Device does not expose a reset or picoboot interface."
  | reported command status =>
    "device reported " ++ status.name ++ " for command " ++ Hex.byte command.toNat
  | shortTransfer expected actual => s!"short transfer: expected {expected} bytes, got {actual}"
  | load stage addr cause =>
    stage.label ++ " failed at " ++ Hex.number addr.toNat ++ " (" ++ cause.message ++ ")."
  | plan problem => problem.message

/-- Whether the device went away. A disconnection inside a failed load does not count. -/
def isDisconnect : Fault → Bool
  | transfer .disconnected => true
  | _ => false

/-- The only fault that counts as a disconnection. -/
theorem isDisconnect_iff {fault : Fault} :
    fault.isDisconnect = true ↔ fault = .transfer .disconnected := by
  constructor
  · intro h
    match fault, h with
    | .transfer .disconnected, _ => rfl
  · rintro rfl
    rfl

end Fault

end PicoLoader
