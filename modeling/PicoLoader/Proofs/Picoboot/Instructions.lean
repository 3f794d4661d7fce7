import PicoLoader.Proofs.Picoboot.Tokens

/-!
# Packets say what to do

The boot loader knows of an operation what its packet says, and nothing else. This file reads a
packet the way the boot loader has to: by the numbers of the protocol, without the names that the
writer has for them.

| id | arguments | data bytes | instruction |
|---|---|---|---|
| 0x02 | `pc`, `sp`, `delay` | 0 | reboot |
| 0x03 | `addr`, `size` | 0 | erase flash |
| 0x05 | `addr`, `size` | `size` | write |
| 0x06 | none | 0 | stop running out of flash |
| 0x08 | `addr` | 0 | start a program |
| 0x0a | 0, `delay`, 0, 0 | 0 | reboot the newer chip normally |

A `PicoLoader.Picoboot.Instruction` is what is read: all of an operation, but for the data of a
write, which follow the packet; of these a packet has the number. `Instruction.read?_eq_some_iff`
says that the packet of an operation is the one list of bytes that is read as the operation under
its token. Two operations with one packet are hence one operation under one token, up to the data.
-/

namespace PicoLoader.Picoboot

open LittleEndian (field)
open Usb

/-- What a packet tells the boot loader to do. -/
inductive Instruction where
  /-- Stop running out of flash. -/
  | exitXip
  /-- Erase `size` bytes of flash. -/
  | flashErase (addr size : UInt32)
  /-- Store that many bytes, which follow the packet. -/
  | write (addr : UInt32) (count : Nat)
  /-- Start the program at an address. -/
  | exec (addr : UInt32)
  /-- Reboot, after a delay in milliseconds. -/
  | reboot (pc sp delay : UInt32)
  /-- Reboot the newer chip normally, after a delay in milliseconds. -/
  | rebootNormal (delay : UInt32)
deriving DecidableEq, Repr

/-- What the packet of an operation has to tell. -/
def Operation.instruction : Operation → Instruction
  | exitXip => .exitXip
  | flashErase addr size => .flashErase addr size
  | write addr bytes => .write addr bytes.length
  | exec addr => .exec addr
  | reboot pc sp delay => .reboot pc sp delay
  | rebootNormal delay => .rebootNormal delay

/-- **The instruction of a packet**, by the table above. -/
def Packet.instruction? (packet : Packet) : Option Instruction :=
  let code := packet.id.code
  let count := packet.transferLength
  match packet.words with
  | [] => if code = 0x06 ∧ count = 0 then some .exitXip else none
  | [addr] => if code = 0x08 ∧ count = 0 then some (.exec addr) else none
  | [addr, size] =>
    if code = 0x03 ∧ count = 0 then some (.flashErase addr size)
    else if code = 0x05 ∧ count = size then some (.write addr count.toNat)
    else none
  | [pc, sp, delay] => if code = 0x02 ∧ count = 0 then some (.reboot pc sp delay) else none
  | [flags, delay, first, second] =>
    if code = 0x0a ∧ count = 0 ∧ flags = 0 ∧ first = 0 ∧ second = 0 then some (.rebootNormal delay)
    else none
  | _ => none

namespace Instruction

/-- Reads the token and the instruction off the bytes of a packet. -/
def read? (bytes : List UInt8) : Option (UInt32 × Instruction) := do
  let packet ← Packet.read? bytes
  let instruction ← packet.instruction?
  return (packet.token, instruction)

/-- The id, the arguments and the number of data bytes in the packet of an instruction. -/
def form : Instruction → CommandId × List UInt32 × Nat
  | exitXip => (.exitXip, [], 0)
  | flashErase addr size => (.flashErase, [addr, size], 0)
  | write addr count => (.write, [addr, UInt32.ofNat count], count)
  | exec addr => (.exec, [addr], 0)
  | reboot pc sp delay => (.reboot, [pc, sp, delay], 0)
  | rebootNormal delay => (.reboot2, [0, delay, 0, 0], 0)

end Instruction

theorem CommandId.code_injective {id id' : CommandId} (h : id.code = id'.code) : id = id' := by
  rw [← Option.some.injEq, ← ofCode?_code id, ← ofCode?_code id', h]

/-- A line of the table gives an instruction to packets of its form. -/
theorem Instruction.eq_form_of_ite {id : CommandId} {words : List UInt32} {count : Nat} {P : Prop}
    [Decidable P] {found instruction : Instruction} (named : CommandId)
    (hform : P → (named, words, count) = found.form)
    (h : (if id.code = named.code ∧ P then some found else none) = some instruction) :
    (id, words, count) = instruction.form := by
  obtain ⟨⟨hid, hP⟩, heq⟩ := Option.ite_none_right_eq_some.mp h
  obtain rfl := CommandId.code_injective hid
  obtain rfl := Option.some.inj heq
  exact hform hP

/-- **A packet has one instruction** if and only if it has the form of the instruction. -/
theorem Packet.instruction?_eq_some_iff {packet : Packet} {instruction : Instruction} :
    packet.instruction? = some instruction ↔
      (packet.id, packet.words, packet.transferLength.toNat) = instruction.form := by
  obtain ⟨token, id, words, count⟩ := packet
  constructor
  · intro h
    simp only [instruction?] at h
    split at h
    case h_1 =>
      refine Instruction.eq_form_of_ite .exitXip ?_ h
      rintro rfl
      rfl
    case h_2 addr =>
      refine Instruction.eq_form_of_ite .exec ?_ h
      rintro rfl
      rfl
    case h_3 addr size =>
      -- Two lines of the table have two arguments.
      split at h
      case isTrue herase =>
        refine Instruction.eq_form_of_ite .flashErase ?_ ((if_pos herase).trans h)
        rintro rfl
        rfl
      case isFalse =>
        refine Instruction.eq_form_of_ite .write ?_ h
        rintro rfl
        rw [Instruction.form, UInt32.ofNat_toNat]
    case h_4 pc sp delay =>
      refine Instruction.eq_form_of_ite .reboot ?_ h
      rintro rfl
      rfl
    case h_5 flags delay first second =>
      refine Instruction.eq_form_of_ite .reboot2 ?_ h
      rintro ⟨rfl, rfl, rfl, rfl⟩
      rfl
    case h_6 => cases h
  · intro h
    obtain ⟨hid, hwords, hcount⟩ := Prod.ext_iff.mp h |>.imp_right Prod.ext_iff.mp
    cases instruction with
    | write addr size =>
      simp only [Instruction.form] at hid hwords hcount
      subst hid hwords hcount
      simp [instruction?, CommandId.code]
    | _ =>
      simp only [Instruction.form] at hid hwords hcount
      subst hid hwords
      obtain rfl : count = 0 := UInt32.toNat_inj.mp hcount
      simp [instruction?, CommandId.code]

namespace Operation

variable (operation : Operation) (token : UInt32)

/-- The command of an operation has the form of its instruction. -/
theorem exists_command_eq : ∃ hfits : operation.instruction.form.2.1.length ≤ 4,
    operation.command = Command.ofWords operation.instruction.form.1
      operation.instruction.form.2.1 (UInt32.ofNat operation.instruction.form.2.2) hfits := by
  cases operation <;> exact ⟨by simp [instruction, Instruction.form], rfl⟩

/-- The number of data bytes in its packet is that of its data. -/
theorem length_payload : operation.payload.length = operation.instruction.form.2.2 := by
  cases operation <;> rfl

end Operation

namespace Instruction

variable {operation : Operation} (h : operation.payload.length < UInt32.size) {token : UInt32}

include h

/-- **The packet of an operation is read** as the operation, if the number of its data bytes is a
word. -/
theorem read?_packet (token : UInt32) :
    read? (operation.command.packet token) = some (token, operation.instruction) := by
  obtain ⟨hfits, hcommand⟩ := operation.exists_command_eq
  have hform : Packet.instruction? ⟨token, operation.instruction.form.1,
      operation.instruction.form.2.1, UInt32.ofNat operation.instruction.form.2.2⟩ =
        some operation.instruction := by
    rw [operation.length_payload] at h
    rw [Packet.instruction?_eq_some_iff, UInt32.toNat_ofNat_of_lt' h]
  simp only [read?, hcommand, Picoboot.read?_packet _ _ _ _ hfits, Option.bind_eq_bind,
    Option.bind_some, hform, Option.pure_def]

/-- **No other bytes are read** as the operation under this token. -/
theorem read?_eq_some_iff {bytes : List UInt8} :
    read? bytes = some (token, operation.instruction) ↔
      bytes = operation.command.packet token := by
  constructor
  · intro hread
    simp only [read?, Option.bind_eq_bind, Option.bind_eq_some_iff, Option.pure_def,
      Option.some.injEq, Prod.mk.injEq] at hread
    obtain ⟨packet, hpacket, instruction, hinstruction, rfl, rfl⟩ := hread
    obtain ⟨hfits, rfl⟩ := eq_packet_of_read? hpacket
    -- What the two packets hold is what the form of the instruction says.
    obtain ⟨hfits', hcommand⟩ := operation.exists_command_eq
    have hform := Packet.instruction?_eq_some_iff.mp hinstruction
    simp only [hcommand, ← hform, UInt32.ofNat_toNat]
  · rintro rfl
    exact read?_packet h token

end Instruction

/-- The packet of an operation announces its data. -/
theorem field_packet_data (operation : Operation) (h : operation.payload.length < UInt32.size)
    (token : UInt32) :
    field (operation.command.packet token) 12 4 = operation.payload.length := by
  have hlt := LittleEndian.field_lt (operation.command.packet token) 12 4
  have hcommand : operation.command.transferLength = UInt32.ofNat operation.payload.length := by
    cases operation <;> rfl
  rw [← UInt32.toNat_ofNat_of_lt' hlt, field_packet_transferLength, hcommand,
    UInt32.toNat_ofNat_of_lt' h]

/-! ### The statement -/

/-- **What the packet of an operation says**, under a token. -/
structure Legible (operation : Operation) (token : UInt32) : Prop where
  /-- The packet is what a session puts out first. -/
  sent : ∀ session : Session, session.token = token →
    (bulkOuts (session.eventsOf (.carryOut operation))).head? =
      some (operation.command.packet token)
  /-- It has 32 bytes. -/
  length_packet : (operation.command.packet token).length = 32
  /-- It begins with the magic number. -/
  field_magic : field (operation.command.packet token) 0 4 = 0x431FD10B
  /-- It is read as the operation under the token, and no other bytes are. -/
  read?_eq_some_iff : ∀ bytes, Instruction.read? bytes = some (token, operation.instruction) ↔
    bytes = operation.command.packet token
  /-- Behind its arguments there are zeros. -/
  getElem?_padding : ∀ i, 16 + field (operation.command.packet token) 9 1 ≤ i → i < 32 →
    (operation.command.packet token)[i]? = some 0
  /-- It announces the data of the operation: as many bytes as follow. -/
  field_transferLength :
    field (operation.command.packet token) 12 4 = operation.payload.length
  /-- A write gives this number as its size, too. -/
  field_size : ∀ addr bytes, operation = .write addr bytes →
    field (operation.command.packet token) 20 4 = bytes.length
  /-- No other operation has this packet, under any token, but a write of other data of the same
  number of bytes. -/
  eq_of_packet_eq : ∀ (other : Operation) (otherToken : UInt32),
    other.payload.length < UInt32.size →
    other.command.packet otherToken = operation.command.packet token →
    otherToken = token ∧ other.instruction = operation.instruction

/-- **Every operation is legible**, if the number of its data bytes is a word. -/
theorem legible {operation : Operation} (h : operation.payload.length < UInt32.size)
    (token : UInt32) : Legible operation token := by
  refine ⟨?_, operation.command.length_packet token, field_packet_magic _ _,
    fun bytes => Instruction.read?_eq_some_iff h, ?_, ?_, ?_, ?_⟩
  · rintro session rfl
    obtain ⟨sent, hout, -⟩ := session.exists_bulkOuts_carryOut operation
    rw [hout, List.head?_cons]
  · intro i hlow hhigh
    obtain ⟨hlength, -, -, -, hzeros⟩ := wellFormed_packet operation.command token
    have hi : i < (operation.command.packet token).length := hlength ▸ hhigh
    have hmem : (operation.command.packet token)[i] ∈ (operation.command.packet token).drop
        (16 + field (operation.command.packet token) 9 1) := by
      rw [List.mem_drop_iff_getElem]
      exact ⟨i - (16 + field (operation.command.packet token) 9 1), by omega, by grind⟩
    rw [List.getElem?_eq_getElem hi, hzeros _ hmem]
  · exact field_packet_data operation h token
  · rintro addr bytes rfl
    exact field_packet_data (.write addr bytes) h token
  · intro other otherToken hother hpacket
    have hread := Instruction.read?_packet hother otherToken
    rw [hpacket, Instruction.read?_packet h token] at hread
    exact (Prod.mk.inj (Option.some.inj hread)).imp Eq.symm Eq.symm

/-- A write is legible, also under the greatest token. -/
theorem legible_write :
    (Operation.write 0x20000000 [0xA0, 0xA1, 0xA2]).payload.length < UInt32.size ∧
      Legible (.write 0x20000000 [0xA0, 0xA1, 0xA2]) 0xFFFFFFFF := by
  have h : (Operation.write 0x20000000 [0xA0, 0xA1, 0xA2]).payload.length < UInt32.size := by decide
  exact ⟨h, legible h 0xFFFFFFFF⟩

end PicoLoader.Picoboot
