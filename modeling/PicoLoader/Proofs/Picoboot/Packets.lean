import PicoLoader.Picoboot.Command
import PicoLoader.Proofs.LittleEndian

/-!
# Reading packets

The packet of a command is read back field by field, at the offsets of its layout and without the
code that writes it. `PicoLoader.Picoboot.Packet.read?` is the reader; it takes nothing that is not
laid out as it should be. `read?_packet` says that it gets back what was put into a packet, and
`read?_eq_some_iff` that it takes nothing else: there is one packet for what it reads.

`PicoLoader.Picoboot.readMessages` reads packets and data off what was put out over an endpoint,
where nothing but the packets says which is which.
-/

namespace PicoLoader.Picoboot

open LittleEndian (encode decode field ofNat_decode_encode)

/-! ### Words -/

/-- The words that bytes spell, four bytes each. -/
def words? : List UInt8 → Option (List UInt32)
  | [] => some []
  | a :: b :: c :: d :: bytes =>
    (words? bytes).map fun words => UInt32.ofNat (decode [a, b, c, d]) :: words
  | _ => none

/-- **Words are read back from their bytes.** -/
theorem words?_wordBytes (words : List UInt32) : words? (wordBytes words) = some words := by
  induction words with
  | nil => rfl
  | cons word words ih =>
    have hbytes : words? (wordBytes (word :: words)) =
        (words? (wordBytes words)).map
          fun words => UInt32.ofNat (decode (encode 4 word.toNat)) :: words := rfl
    rw [hbytes, ih, Option.map_some, ofNat_decode_encode]

/-- A word has the bytes of its number. -/
theorem encode_ofNat {n : Nat} (h : n < 256 ^ 4) : encode 4 (UInt32.ofNat n).toNat = encode 4 n :=
  congrArg (encode 4) (UInt32.toNat_ofNat_of_lt' h)

/-- **Nothing else is read as words** than the bytes of the words. -/
theorem eq_wordBytes_of_words? {bytes : List UInt8} {words : List UInt32}
    (h : words? bytes = some words) : bytes = wordBytes words := by
  fun_induction words? bytes generalizing words with
  | case1 =>
    obtain rfl := Option.some.inj h
    rfl
  | case2 a b c d bytes ih =>
    obtain ⟨rest, hrest, rfl⟩ := Option.map_eq_some_iff.mp h
    have hlt : decode [a, b, c, d] < 256 ^ 4 := LittleEndian.decode_lt _
    have hword : encode 4 (UInt32.ofNat (decode [a, b, c, d])).toNat = [a, b, c, d] :=
      (encode_ofNat hlt).trans (LittleEndian.encode_decode [a, b, c, d])
    have hbytes : wordBytes (UInt32.ofNat (decode [a, b, c, d]) :: rest) =
        encode 4 (UInt32.ofNat (decode [a, b, c, d])).toNat ++ wordBytes rest := rfl
    rw [hbytes, hword, ← ih hrest]
    rfl
  | case3 => cases h

/-! ### Packets -/

/-- What a packet says, if its arguments are words. -/
structure Packet where
  token : UInt32
  id : CommandId
  words : List UInt32
  transferLength : UInt32
deriving DecidableEq, Repr

namespace Packet

/-- A packet is *well-formed* if it has its 32 bytes, the magic number, zeros in the two bytes
that mean nothing, and zeros behind its arguments. -/
def WellFormed (bytes : List UInt8) : Prop :=
  bytes.length = 32 ∧ field bytes 0 4 = packetMagic.toNat ∧ field bytes 10 2 = 0 ∧
    field bytes 9 1 ≤ 16 ∧ ∀ byte ∈ bytes.drop (16 + field bytes 9 1), byte = 0

instance (bytes : List UInt8) : Decidable (WellFormed bytes) :=
  inferInstanceAs (Decidable (_ ∧ _ ∧ _ ∧ _ ∧ _))

/-- **Reads a packet.** -/
def read? (bytes : List UInt8) : Option Packet :=
  if WellFormed bytes then
    match CommandId.ofCode? (UInt8.ofNat (field bytes 8 1)),
      words? ((bytes.drop 16).take (field bytes 9 1)) with
    | some id, some words =>
      some ⟨UInt32.ofNat (field bytes 4 4), id, words, UInt32.ofNat (field bytes 12 4)⟩
    | _, _ => none
  else none

end Packet

section Fields

variable (command : Command) (token : UInt32)

theorem field_packet_magic : field (command.packet token) 0 4 = packetMagic.toNat := by
  have h : field (command.packet token) 0 4 = decode (encode 4 packetMagic.toNat) := rfl
  rw [h]
  decide

theorem field_packet_token : UInt32.ofNat (field (command.packet token) 4 4) = token :=
  ofNat_decode_encode token

theorem field_packet_id : UInt8.ofNat (field (command.packet token) 8 1) = command.id.code := by
  have h : field (command.packet token) 8 1 = decode [command.id.code] := rfl
  rw [h, decode, decode, Nat.mul_zero, Nat.add_zero, UInt8.ofNat_toNat]

theorem field_packet_size :
    field (command.packet token) 9 1 = command.arguments.length := by
  have h : field (command.packet token) 9 1 =
      decode [UInt8.ofNat command.arguments.length] := rfl
  have hfits := command.fits
  rw [argumentSize] at hfits
  rw [h, decode, decode, Nat.mul_zero, Nat.add_zero, UInt8.toNat_ofNat']
  omega

theorem field_packet_transferLength :
    UInt32.ofNat (field (command.packet token) 12 4) = command.transferLength :=
  ofNat_decode_encode command.transferLength

/-- The arguments begin at the sixteenth byte. -/
theorem drop_packet : (command.packet token).drop 16 =
    command.arguments ++ List.replicate (argumentSize - command.arguments.length) 0 := rfl

theorem wellFormed_packet : Packet.WellFormed (command.packet token) := by
  refine ⟨command.length_packet token, field_packet_magic command token, rfl, ?_, ?_⟩
  · rw [field_packet_size]
    exact command.fits
  · intro byte hbyte
    rw [field_packet_size, ← List.drop_drop, drop_packet, List.drop_left] at hbyte
    exact List.eq_of_mem_replicate hbyte

end Fields

/-- **What was put into a packet is read back.** -/
theorem read?_packet (id : CommandId) (words : List UInt32) (transferLength token : UInt32)
    (h : words.length ≤ 4 := by simp) :
    Packet.read? ((Command.ofWords id words transferLength h).packet token) =
      some ⟨token, id, words, transferLength⟩ := by
  rw [Packet.read?, if_pos (wellFormed_packet _ _), field_packet_id, field_packet_size,
    drop_packet, List.take_left, field_packet_token, field_packet_transferLength]
  simp [Command.ofWords, words?_wordBytes]

/-- A list of 32 bytes, field by field. -/
theorem eq_fields_of_length {bytes : List UInt8} (h : bytes.length = 32) :
    bytes = encode 4 (field bytes 0 4) ++ encode 4 (field bytes 4 4) ++
      (encode 1 (field bytes 8 1) ++ encode 1 (field bytes 9 1) ++ encode 2 (field bytes 10 2)) ++
      encode 4 (field bytes 12 4) ++ bytes.drop 16 := by
  have hfield : ∀ offset width, offset + width ≤ 32 →
      encode width (field bytes offset width) ++ bytes.drop (offset + width) =
        bytes.drop offset :=
    fun offset width hle => LittleEndian.encode_field_append_drop (h ▸ hle)
  simp only [List.append_assoc]
  rw [hfield 12 4 (by decide), hfield 10 2 (by decide), hfield 9 1 (by decide),
    hfield 8 1 (by decide), hfield 4 4 (by decide), hfield 0 4 (by decide), List.drop_zero]

/-- **Nothing else is read** than the packet of what is read. -/
theorem eq_packet_of_read? {bytes : List UInt8} {packet : Packet}
    (h : Packet.read? bytes = some packet) :
    ∃ hfits : packet.words.length ≤ 4,
      bytes = (Command.ofWords packet.id packet.words packet.transferLength hfits).packet
        packet.token := by
  rw [Packet.read?] at h
  split at h
  case isFalse => cases h
  case isTrue hwell =>
  obtain ⟨hlength, hmagic, hzero, hsize, hpadding⟩ := hwell
  split at h
  case h_2 => cases h
  case h_1 id words hid hwords =>
  obtain rfl := Option.some.inj h
  have hcode : id.code = UInt8.ofNat (field bytes 8 1) := CommandId.ofCode?_eq_some_iff.mp hid
  have hwords := eq_wordBytes_of_words? hwords
  have hcount : 4 * words.length = field bytes 9 1 := by
    rw [← length_wordBytes, ← hwords, List.length_take, List.length_drop]
    omega
  -- Behind the arguments there is nothing but zeros, up to the last byte.
  have hzeros : bytes.drop (16 + field bytes 9 1) =
      List.replicate (argumentSize - field bytes 9 1) 0 := by
    rw [List.eq_replicate_iff, List.length_drop, argumentSize]
    exact ⟨by omega, hpadding⟩
  have harguments : bytes.drop 16 =
      wordBytes words ++ List.replicate (argumentSize - field bytes 9 1) 0 := by
    rw [← hzeros, ← hwords, ← List.drop_drop, List.take_append_drop]
  have hfits : words.length ≤ 4 := by omega
  refine ⟨hfits, (eq_fields_of_length hlength).trans ?_⟩
  rw [harguments, hmagic, hzero]
  simp only [Command.packet, Command.ofWords, length_wordBytes, hcount, hcode,
    encode_ofNat (LittleEndian.field_lt bytes _ 4), List.append_assoc]
  rfl

/-- **Reading and writing packets undo each other.** -/
theorem read?_eq_some_iff {bytes : List UInt8} {packet : Packet} :
    Packet.read? bytes = some packet ↔ ∃ hfits : packet.words.length ≤ 4,
      bytes = (Command.ofWords packet.id packet.words packet.transferLength hfits).packet
        packet.token := by
  constructor
  · exact eq_packet_of_read?
  · rintro ⟨hfits, rfl⟩
    exact read?_packet _ _ _ _ hfits

/-! ### Messages -/

/-- What a command puts out: its packet, and its data if they followed. -/
structure Message where
  packet : Packet
  data : Option (List UInt8)
deriving DecidableEq, Repr

/-- **Reads messages** off what was put out, one transfer after the other. A packet that announces
data is followed by its data, if anything follows. -/
def readMessages : List (List UInt8) → Option (List Message)
  | [] => some []
  | bytes :: outs =>
    match Packet.read? bytes with
    | none => none
    | some packet =>
      if packet.transferLength = 0 then (readMessages outs).map (⟨packet, none⟩ :: ·)
      else
        match outs with
        | [] => some [⟨packet, none⟩]
        | data :: outs => (readMessages outs).map (⟨packet, some data⟩ :: ·)

section Messages

variable {bytes data : List UInt8} {outs : List (List UInt8)} {messages : List Message}
  {packet : Packet}

theorem readMessages_of_no_data (h : Packet.read? bytes = some packet)
    (hlength : packet.transferLength = 0) (hrest : readMessages outs = some messages) :
    readMessages (bytes :: outs) = some (⟨packet, none⟩ :: messages) := by
  simp [readMessages, h, hlength, hrest]

theorem readMessages_of_data (h : Packet.read? bytes = some packet)
    (hlength : packet.transferLength ≠ 0) (hrest : readMessages outs = some messages) :
    readMessages (bytes :: data :: outs) = some (⟨packet, some data⟩ :: messages) := by
  simp [readMessages, h, hlength, hrest]

/-- At the end, the data may be missing. -/
theorem readMessages_of_last (h : Packet.read? bytes = some packet) :
    readMessages [bytes] = some [⟨packet, none⟩] := by
  by_cases hlength : packet.transferLength = 0 <;> simp [readMessages, h, hlength]

/-- **A packet and what was sent of its data are read as one message.** The data may be missing
only if nothing follows. -/
theorem exists_readMessages_eq (h : Packet.read? bytes = some packet) {sent : List (List UInt8)}
    (hsent : sent <+: if packet.transferLength = 0 then [] else [data])
    (hwhole : outs ≠ [] → sent = if packet.transferLength = 0 then [] else [data])
    (hrest : readMessages outs = some messages) :
    ∃ message, readMessages (bytes :: (sent ++ outs)) = some (message :: messages) ∧
      message.packet = packet ∧
      ∀ found, message.data = some found → packet.transferLength ≠ 0 ∧ found = data := by
  by_cases hzero : packet.transferLength = 0
  · rw [if_pos hzero] at hsent
    rw [List.prefix_nil.mp hsent, List.nil_append]
    exact ⟨_, readMessages_of_no_data h hzero hrest, rfl, nofun⟩
  rw [if_neg hzero] at hsent hwhole
  rcases List.prefix_cons_iff.mp hsent with rfl | ⟨rest, rfl, hnil⟩
  · obtain rfl : outs = [] := by
      by_contra hne
      cases hwhole hne
    obtain rfl : [] = messages := Option.some.inj hrest
    exact ⟨_, readMessages_of_last h, rfl, nofun⟩
  · obtain rfl := List.prefix_nil.mp hnil
    exact ⟨_, readMessages_of_data h hzero hrest, rfl,
      fun found hfound => ⟨hzero, (Option.some.inj hfound).symm⟩⟩

end Messages

end PicoLoader.Picoboot
