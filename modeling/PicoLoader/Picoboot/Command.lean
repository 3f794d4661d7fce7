import PicoLoader.Bytes.LittleEndian
import PicoLoader.Picoboot.CommandId

/-!
# Commands and their packets

A command goes to the boot loader as a packet of 32 bytes, all numbers little-endian:

| offset | bytes | field |
|---|---|---|
| 0 | 4 | magic number |
| 4 | 4 | token, which a status reply repeats |
| 8 | 1 | command id |
| 9 | 1 | number of argument bytes |
| 10 | 2 | zero |
| 12 | 4 | number of data bytes that follow |
| 16 | 16 | arguments, filled up with zeros |

* `PicoLoader.Picoboot.Command` – a command with its arguments, which have at most 16 bytes;
* `PicoLoader.Picoboot.Command.packet` – its packet, always 32 bytes long (`length_packet`);
* `PicoLoader.Picoboot.Operation` – the commands that the tools use, with arguments that mean
  something.
-/

namespace PicoLoader.Picoboot

open LittleEndian (encode)

/-- The number at the start of every packet. -/
def packetMagic : UInt32 := 0x431FD10B

/-- The bytes of a packet. -/
def packetSize : Nat := 32

/-- The bytes for arguments in a packet. -/
def argumentSize : Nat := 16

/-- The bytes of some words, one after the other. -/
def wordBytes (words : List UInt32) : List UInt8 :=
  words.flatMap fun word => encode 4 word.toNat

@[simp] theorem length_wordBytes (words : List UInt32) :
    (wordBytes words).length = 4 * words.length := by
  induction words with
  | nil => rfl
  | cons word words ih =>
    have h : wordBytes (word :: words) = encode 4 word.toNat ++ wordBytes words := rfl
    rw [h, List.length_append, ih, LittleEndian.length_encode, List.length_cons]
    omega

/-- A command with its arguments. -/
structure Command where
  id : CommandId
  arguments : List UInt8
  /-- The number of data bytes that follow, in the direction of the command. -/
  transferLength : UInt32
  fits : arguments.length ≤ argumentSize
deriving DecidableEq

namespace Command

/-- A command whose arguments are words. -/
def ofWords (id : CommandId) (words : List UInt32) (transferLength : UInt32)
    (h : words.length ≤ 4 := by simp) : Command where
  id
  arguments := wordBytes words
  transferLength
  fits := by
    rw [length_wordBytes, argumentSize]
    omega

@[simp] theorem id_ofWords (id : CommandId) (words : List UInt32) (transferLength : UInt32)
    (h : words.length ≤ 4) : (ofWords id words transferLength h).id = id := rfl

/-- **The packet of a command** under a token. -/
def packet (command : Command) (token : UInt32) : List UInt8 :=
  encode 4 packetMagic.toNat ++ encode 4 token.toNat ++
    [command.id.code, UInt8.ofNat command.arguments.length, 0, 0] ++
    encode 4 command.transferLength.toNat ++ command.arguments ++
    List.replicate (argumentSize - command.arguments.length) 0

/-- **Every packet has 32 bytes.** -/
@[simp] theorem length_packet (command : Command) (token : UInt32) :
    (command.packet token).length = packetSize := by
  have h := command.fits
  simp only [packet, List.length_append, LittleEndian.length_encode, List.length_cons,
    List.length_nil, List.length_replicate, packetSize]
  simp only [argumentSize] at h ⊢
  omega

end Command

/-! ### Operations -/

/-- A command that the tools use. -/
inductive Operation where
  /-- Stop running out of flash. -/
  | exitXip
  /-- Erase `size` bytes of flash. -/
  | flashErase (addr size : UInt32)
  /-- Store bytes, in RAM or in erased flash. -/
  | write (addr : UInt32) (bytes : List UInt8)
  /-- Start the program at an address. -/
  | exec (addr : UInt32)
  /-- Reboot, after a delay in milliseconds; into flash if `pc` is zero. -/
  | reboot (pc sp delay : UInt32)
  /-- Reboot the newer chip normally, after a delay in milliseconds. -/
  | rebootNormal (delay : UInt32)
deriving DecidableEq, Repr

namespace Operation

/-- The flags of a normal reboot. -/
def normalReboot : UInt32 := 0

/-- The command of an operation. -/
def command : Operation → Command
  | exitXip => .ofWords .exitXip [] 0
  | flashErase addr size => .ofWords .flashErase [addr, size] 0
  | write addr bytes =>
    .ofWords .write [addr, UInt32.ofNat bytes.length] (UInt32.ofNat bytes.length)
  | exec addr => .ofWords .exec [addr] 0
  | reboot pc sp delay => .ofWords .reboot [pc, sp, delay] 0
  | rebootNormal delay => .ofWords .reboot2 [normalReboot, delay, 0, 0] 0

/-- The data that goes out after the command. -/
def payload : Operation → List UInt8
  | write _ bytes => bytes
  | _ => []

/-- The data of every operation goes out. -/
theorem isIn_command (operation : Operation) : operation.command.id.isIn = false := by
  cases operation <;> simp only [command, Command.id_ofWords] <;> decide

end Operation

end PicoLoader.Picoboot
