/-!
# Command ids

The boot loader knows fourteen commands, each with a byte for an id. Bit 7 of the id says which way
the data of the command goes. `PicoLoader.Picoboot.CommandId.ofCode?` reads an id and
`PicoLoader.Picoboot.CommandId.code` writes it; `ofCode?_eq_some_iff` says that they undo each
other.
-/

namespace PicoLoader.Picoboot

/-- What the boot loader can be told to do. -/
inductive CommandId where
  | unknown
  | exclusiveAccess
  | reboot
  | flashErase
  | read
  | write
  | exitXip
  | enterCommandXip
  | exec
  | vectorizeFlash
  | reboot2
  | getInfo
  | otpRead
  | otpWrite
deriving DecidableEq, Repr

namespace CommandId

/-- All commands. Those from `reboot2` on exist on the newer chip only. -/
def all : List CommandId :=
  [unknown, exclusiveAccess, reboot, flashErase, read, write, exitXip, enterCommandXip, exec,
    vectorizeFlash, reboot2, getInfo, otpRead, otpWrite]

/-- The byte that stands for a command on the wire. -/
def code : CommandId → UInt8
  | unknown => 0x00
  | exclusiveAccess => 0x01
  | reboot => 0x02
  | flashErase => 0x03
  | read => 0x84
  | write => 0x05
  | exitXip => 0x06
  | enterCommandXip => 0x07
  | exec => 0x08
  | vectorizeFlash => 0x09
  | reboot2 => 0x0a
  | getInfo => 0x8b
  | otpRead => 0x8c
  | otpWrite => 0x0d

/-- The command that `code` stands for, if it stands for one. -/
def ofCode? (code : UInt8) : Option CommandId :=
  all.find? fun id => id.code == code

/-- Whether the data of a command comes in. -/
def isIn (id : CommandId) : Bool := id.code &&& 0x80 != 0

/-- The name shown for a command. -/
def name : CommandId → String
  | unknown => "Unknown"
  | exclusiveAccess => "ExclusiveAccess"
  | reboot => "Reboot"
  | flashErase => "FlashErase"
  | read => "Read"
  | write => "Write"
  | exitXip => "ExitXip"
  | enterCommandXip => "EnterCmdXip"
  | exec => "Exec"
  | vectorizeFlash => "VectorizeFlash"
  | reboot2 => "Reboot2"
  | getInfo => "GetInfo"
  | otpRead => "OtpRead"
  | otpWrite => "OtpWrite"

@[simp] theorem ofCode?_code (id : CommandId) : ofCode? id.code = some id := by
  cases id <;> decide

/-- An id is read as exactly the command that is written as it. -/
theorem ofCode?_eq_some_iff {code : UInt8} {id : CommandId} :
    ofCode? code = some id ↔ id.code = code := by
  constructor
  · intro h
    simpa using List.find?_some h
  · rintro rfl
    exact ofCode?_code id

end CommandId

end PicoLoader.Picoboot
