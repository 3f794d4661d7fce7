/-!
# Status codes of the boot loader

After a failed command the boot loader can be asked what was wrong. It answers with one of eighteen
codes, numbered without gaps from zero. `PicoLoader.Picoboot.Status.ofCode?` reads a code and
`PicoLoader.Picoboot.Status.code` writes it; `ofCode?_eq_some_iff` says that they undo each other.
-/

namespace PicoLoader.Picoboot

/-- What the boot loader says about the last command. -/
inductive Status where
  | ok
  | unknownCommand
  | invalidCommandLength
  | invalidTransferLength
  | invalidAddress
  | badAlignment
  | interleavedWrite
  | rebooting
  | unknownError
  | invalidState
  | notPermitted
  | invalidArgument
  | bufferTooSmall
  | preconditionNotMet
  | modifiedData
  | invalidData
  | notFound
  | unsupportedModification
deriving DecidableEq, Repr

namespace Status

/-- All statuses, in the order of their codes. -/
def all : List Status :=
  [ok, unknownCommand, invalidCommandLength, invalidTransferLength, invalidAddress, badAlignment,
    interleavedWrite, rebooting, unknownError, invalidState, notPermitted, invalidArgument,
    bufferTooSmall, preconditionNotMet, modifiedData, invalidData, notFound,
    unsupportedModification]

/-- The number that stands for a status on the wire. -/
def code : Status → UInt32
  | ok => 0
  | unknownCommand => 1
  | invalidCommandLength => 2
  | invalidTransferLength => 3
  | invalidAddress => 4
  | badAlignment => 5
  | interleavedWrite => 6
  | rebooting => 7
  | unknownError => 8
  | invalidState => 9
  | notPermitted => 10
  | invalidArgument => 11
  | bufferTooSmall => 12
  | preconditionNotMet => 13
  | modifiedData => 14
  | invalidData => 15
  | notFound => 16
  | unsupportedModification => 17

/-- The status that `code` stands for, if it stands for one. -/
def ofCode? (code : UInt32) : Option Status :=
  all.find? fun status => status.code == code

/-- The name shown for a status. -/
def name : Status → String
  | ok => "Ok"
  | unknownCommand => "UnknownCmd"
  | invalidCommandLength => "InvalidCmdLength"
  | invalidTransferLength => "InvalidTransferLength"
  | invalidAddress => "InvalidAddress"
  | badAlignment => "BadAlignment"
  | interleavedWrite => "InterleavedWrite"
  | rebooting => "Rebooting"
  | unknownError => "UnknownError"
  | invalidState => "InvalidState"
  | notPermitted => "NotPermitted"
  | invalidArgument => "InvalidArg"
  | bufferTooSmall => "BufferTooSmall"
  | preconditionNotMet => "PreconditionNotMet"
  | modifiedData => "ModifiedData"
  | invalidData => "InvalidData"
  | notFound => "NotFound"
  | unsupportedModification => "UnsupportedModification"

@[simp] theorem ofCode?_code (status : Status) : ofCode? status.code = some status := by
  cases status <;> decide

/-- A code is read as exactly the status that is written as it. -/
theorem ofCode?_eq_some_iff {code : UInt32} {status : Status} :
    ofCode? code = some status ↔ status.code = code := by
  constructor
  · intro h
    simpa using List.find?_some h
  · rintro rfl
    exact ofCode?_code status

end Status

end PicoLoader.Picoboot
