import PicoLoader.Elf.Image
import PicoLoader.Proofs.LittleEndian

/-!
# What is written into an image file is read

The library reads image files and never writes one. This file has the writer, as the other side to
compare the reader with. A `PicoLoader.Elf.Draft` holds what a file is written from: the numbers and
the program headers that are meant to be read, and bytes for every place at which nothing is
prescribed. These are the rest of the identification, the numbers of the file header that no image
is made of, what lies between the header and the table, what fills a program header up to the next,
and what comes after the table.

The file of a draft is read as the image that was drafted (`PicoLoader.Elf.Draft.ofBytes_bytes`),
whatever the bytes in between are. The file header is read number by number, because each has its
place; the table goes by induction on the program headers, and all that is needed of what fills
them up is its length (`readEntries_slots`).
-/

namespace PicoLoader.Elf

open LittleEndian (encode decode field)

/-! ### Program headers -/

/-- The bytes of a program header: its eight numbers, in file order. -/
def ProgramHeader.toBytes (header : ProgramHeader) : List UInt8 :=
  [encode 4 header.kind.toNat, encode 4 header.offset.toNat, encode 4 header.virtualAddr.toNat,
    encode 4 header.physicalAddr.toNat, encode 4 header.fileSize.toNat,
    encode 4 header.memorySize.toNat, encode 4 header.flags.toNat,
    encode 4 header.align.toNat].flatten

theorem ProgramHeader.length_toBytes (header : ProgramHeader) :
    header.toBytes.length = programHeaderSize := rfl

/-- **A program header is read back from its bytes.** -/
theorem ProgramHeader.ofBytes_toBytes (header : ProgramHeader) :
    ofBytes header.toBytes = header := by
  have hkind : field header.toBytes 0 4 = decode (encode 4 header.kind.toNat) := rfl
  have hoffset : field header.toBytes 4 4 = decode (encode 4 header.offset.toNat) := rfl
  have hvirtual : field header.toBytes 8 4 = decode (encode 4 header.virtualAddr.toNat) := rfl
  have hphysical : field header.toBytes 12 4 = decode (encode 4 header.physicalAddr.toNat) := rfl
  have hfile : field header.toBytes 16 4 = decode (encode 4 header.fileSize.toNat) := rfl
  have hmemory : field header.toBytes 20 4 = decode (encode 4 header.memorySize.toNat) := rfl
  have hflags : field header.toBytes 24 4 = decode (encode 4 header.flags.toNat) := rfl
  have halign : field header.toBytes 28 4 = decode (encode 4 header.align.toNat) := rfl
  simp only [ofBytes, hkind, hoffset, hvirtual, hphysical, hfile, hmemory, hflags, halign,
    LittleEndian.ofNat_decode_encode]

/-- A program header with what fills it up to the next one. -/
structure Slot where
  header : ProgramHeader
  filler : List UInt8
deriving DecidableEq, Repr

/-- The bytes of a program header and of what fills it up. -/
def Slot.bytes (slot : Slot) : List UInt8 := slot.header.toBytes ++ slot.filler

/-! ### Drafts -/

/-- What an image file is written from. -/
structure Draft where
  machine : UInt16
  entry : UInt32
  /-- Where the table of program headers begins: behind the file header. -/
  tableOffset : UInt32
  /-- The distance from one program header to the next: no less than it has bytes. -/
  entrySize : UInt16
  /-- The program headers; the file header has to give their number. -/
  slots : List Slot
  /-- The identification, from the seventh byte on. -/
  identRest : List UInt8
  fileKind : UInt16
  version : UInt32
  sectionOffset : UInt32
  flags : UInt32
  headerLength : UInt16
  sectionEntrySize : UInt16
  sectionCount : UInt16
  sectionNames : UInt16
  /-- What lies between the file header and the table. -/
  gap : List UInt8
  /-- What comes after the table. -/
  trailer : List UInt8
  headerSize_le : headerSize ≤ tableOffset.toNat
  programHeaderSize_le : programHeaderSize ≤ entrySize.toNat
  length_slots : slots.length ≤ 65535
  length_identRest : identRest.length = 10
  length_gap : gap.length = tableOffset.toNat - headerSize
  length_filler : ∀ slot ∈ slots, slot.filler.length = entrySize.toNat - programHeaderSize

namespace Draft

variable (draft : Draft)

/-- The file header that is meant to be read. -/
def header : Header where
  fileKind := draft.fileKind
  machine := draft.machine
  version := draft.version
  entry := draft.entry
  tableOffset := draft.tableOffset
  sectionOffset := draft.sectionOffset
  flags := draft.flags
  entrySize := draft.entrySize
  entryCount := UInt16.ofNat draft.slots.length
  sectionCount := draft.sectionCount

@[simp] theorem tableOffset_header : draft.header.tableOffset = draft.tableOffset := rfl

@[simp] theorem entrySize_header : draft.header.entrySize = draft.entrySize := rfl

@[simp] theorem toNat_entryCount : draft.header.entryCount.toNat = draft.slots.length :=
  UInt16.toNat_ofNat_of_lt' (Nat.lt_succ_of_le draft.length_slots)

/-- The identification: the magic bytes, the class, the byte order, and ten bytes of any kind. -/
def identification : List UInt8 := magic ++ class32 :: littleEndian :: draft.identRest

/-- The numbers of the file header, from the kind of file on. -/
def numbers : List UInt8 :=
  [encode 2 draft.fileKind.toNat, encode 2 draft.machine.toNat, encode 4 draft.version.toNat,
    encode 4 draft.entry.toNat, encode 4 draft.tableOffset.toNat,
    encode 4 draft.sectionOffset.toNat, encode 4 draft.flags.toNat,
    encode 2 draft.headerLength.toNat, encode 2 draft.entrySize.toNat,
    encode 2 draft.header.entryCount.toNat, encode 2 draft.sectionEntrySize.toNat,
    encode 2 draft.sectionCount.toNat, encode 2 draft.sectionNames.toNat].flatten

/-- The table of program headers. -/
def table : List UInt8 := draft.slots.flatMap Slot.bytes

/-- **The file that is written.** -/
def bytes : List UInt8 :=
  draft.identification ++ (draft.numbers ++ (draft.gap ++ (draft.table ++ draft.trailer)))

/-- The image that is meant to be read. -/
def image : Image := ⟨draft.header, draft.slots.map Slot.header, draft.bytes⟩

/-! ### Where the parts of the file are -/

theorem length_identification : draft.identification.length = identSize := by
  have hrest := draft.length_identRest
  simp only [identification, List.length_append, List.length_cons, hrest]
  rfl

theorem length_numbers : draft.numbers.length = headerSize - identSize := rfl

theorem drop_identification : draft.bytes.drop identSize =
    draft.numbers ++ (draft.gap ++ (draft.table ++ draft.trailer)) :=
  List.drop_left' draft.length_identification

/-- The table begins where the file header says. -/
theorem drop_tableOffset :
    draft.bytes.drop draft.tableOffset.toNat = draft.table ++ draft.trailer := by
  have hfront : (draft.identification ++ draft.numbers ++ draft.gap).length =
      draft.tableOffset.toNat := by
    have hle := draft.headerSize_le
    rw [List.length_append, List.length_append, draft.length_identification, draft.length_numbers,
      draft.length_gap]
    simp only [headerSize, identSize] at hle ⊢
    omega
  rw [bytes, ← List.append_assoc, ← List.append_assoc]
  exact List.drop_left' hfront

theorem length_slot {slot : Slot} (h : slot ∈ draft.slots) :
    slot.bytes.length = draft.entrySize.toNat := by
  have hle := draft.programHeaderSize_le
  rw [Slot.bytes, List.length_append, slot.header.length_toBytes, draft.length_filler slot h]
  omega

/-- The table has room for the program headers at their distance. -/
theorem length_table : draft.table.length = draft.entrySize.toNat * draft.slots.length := by
  rw [table, List.length_flatMap, List.map_congr_left fun slot h => draft.length_slot h,
    List.map_const', List.sum_replicate_nat, Nat.mul_comm]

theorem length_bytes : draft.bytes.length = draft.tableOffset.toNat +
    draft.entrySize.toNat * draft.slots.length + draft.trailer.length := by
  have hle := draft.headerSize_le
  simp only [bytes, List.length_append, draft.length_identification, draft.length_numbers,
    draft.length_gap, draft.length_table]
  simp only [headerSize, identSize] at hle ⊢
  omega

/-! ### Reading the file -/

/-- **The numbers of the file header are read**, each at its offset. -/
theorem ofBytes_eq_header : Header.ofBytes draft.bytes = draft.header := by
  -- What is read behind the identification is read off the numbers.
  have hfield : ∀ offset width, field draft.bytes (16 + offset) width =
      field (draft.numbers ++ (draft.gap ++ (draft.table ++ draft.trailer))) offset width := by
    intro offset width
    rw [← drop_identification, field, field, List.drop_drop]
    rfl
  have hkind : field draft.bytes 16 2 = decode (encode 2 draft.fileKind.toNat) := hfield 0 2
  have hmachine : field draft.bytes 18 2 = decode (encode 2 draft.machine.toNat) := hfield 2 2
  have hversion : field draft.bytes 20 4 = decode (encode 4 draft.version.toNat) := hfield 4 4
  have hentry : field draft.bytes 24 4 = decode (encode 4 draft.entry.toNat) := hfield 8 4
  have htable : field draft.bytes 28 4 = decode (encode 4 draft.tableOffset.toNat) := hfield 12 4
  have hsections : field draft.bytes 32 4 = decode (encode 4 draft.sectionOffset.toNat) :=
    hfield 16 4
  have hflags : field draft.bytes 36 4 = decode (encode 4 draft.flags.toNat) := hfield 20 4
  have hsize : field draft.bytes 42 2 = decode (encode 2 draft.entrySize.toNat) := hfield 26 2
  have hcount : field draft.bytes 44 2 = decode (encode 2 draft.header.entryCount.toNat) :=
    hfield 28 2
  have hsectionCount : field draft.bytes 48 2 = decode (encode 2 draft.sectionCount.toNat) :=
    hfield 32 2
  simp only [Header.ofBytes, hkind, hmachine, hversion, hentry, htable, hsections, hflags, hsize,
    hcount, hsectionCount, LittleEndian.ofNat_decode_encode, LittleEndian.ofNat_decode_encode_half]
  rfl

/-- **The file header is accepted.** -/
theorem read_eq_ok : Header.read draft.bytes = .ok draft.header := by
  have hlength : headerSize ≤ draft.bytes.length := by
    have hle := draft.headerSize_le
    rw [draft.length_bytes]
    omega
  have hmagic : draft.bytes.take 4 = magic := rfl
  have hclass : draft.bytes.getD 4 0 = class32 := rfl
  have horder : draft.bytes.getD 5 0 = littleEndian := rfl
  have hnonempty : draft.bytes.length ≠ 0 := Nat.ne_of_gt (Nat.lt_of_lt_of_le (by decide) hlength)
  rw [Header.read, if_neg hnonempty, if_neg (Nat.not_lt_of_le hlength), if_neg (not_not.mpr hmagic),
    if_neg (not_not.mpr hclass), if_neg (not_not.mpr horder), draft.ofBytes_eq_header]

/-- **The program headers are read**, whatever fills them up. -/
theorem readEntries_slots {stride : Nat} {slots : List Slot}
    (h : ∀ slot ∈ slots, slot.bytes.length = stride) (index : Nat) (rest : List UInt8) :
    readEntries stride slots.length index (slots.flatMap Slot.bytes ++ rest) =
      .ok (slots.map Slot.header) := by
  induction slots generalizing index with
  | nil => rfl
  | cons slot slots ih =>
    obtain ⟨hslot, hslots⟩ := List.forall_mem_cons.mp h
    rw [List.flatMap_cons, List.append_assoc, List.length_cons, readEntries]
    have hfront : (slot.bytes ++ (slots.flatMap Slot.bytes ++ rest)).take programHeaderSize =
        slot.header.toBytes := by
      rw [Slot.bytes, List.append_assoc]
      exact List.take_left' slot.header.length_toBytes
    have hnext : (slot.bytes ++ (slots.flatMap Slot.bytes ++ rest)).drop stride =
        slots.flatMap Slot.bytes ++ rest := List.drop_left' hslot
    rw [hfront, hnext, ih hslots, slot.header.length_toBytes, if_neg (Nat.lt_irrefl _),
      slot.header.ofBytes_toBytes]
    rfl

/-- **The table is read.** -/
theorem readTable_eq_ok :
    draft.header.readTable draft.bytes = .ok (draft.slots.map Slot.header) := by
  have hoffset := draft.headerSize_le
  have hsize := draft.programHeaderSize_le
  simp only [headerSize, programHeaderSize] at hoffset hsize
  have hstart : ¬(draft.tableOffset.toNat < identSize ∨ draft.entrySize.toNat = 0) := by
    rw [identSize]
    omega
  have hinside : ¬draft.bytes.length <
      draft.tableOffset.toNat + draft.entrySize.toNat * draft.slots.length := by
    rw [draft.length_bytes]
    omega
  simp only [Header.readTable, tableOffset_header, entrySize_header, toNat_entryCount]
  rw [if_neg hstart, if_neg hinside, draft.drop_tableOffset]
  exact readEntries_slots (fun _ h => draft.length_slot h) 0 draft.trailer

/-- **The image is read that was drafted.** -/
theorem ofBytes_bytes : Image.ofBytes draft.bytes = .ok draft.image := by
  simp only [Image.ofBytes, draft.read_eq_ok, draft.readTable_eq_ok, bind, Except.bind, pure,
    Except.pure, image]

end Draft

/-! ### The bytes of segments -/

section Content

variable {image : Image} {segment : ProgramHeader}

/-- A segment without bytes may name any place. -/
theorem content_of_empty (h : segment.fileSize = 0) : image.content segment = .ok [] := by
  simp [Image.content, h]

/-- **The bytes of a segment** are those of the file from its offset on, if they are all there. -/
theorem exists_content_eq_ok
    (h : segment.offset.toNat + segment.fileSize.toNat ≤ image.bytes.length) :
    ∃ content, image.content segment = .ok content ∧ content.length = segment.fileSize.toNat ∧
      ∀ i < segment.fileSize.toNat, content[i]? = image.bytes[segment.offset.toNat + i]? := by
  have hlength : ((image.bytes.drop segment.offset.toNat).take segment.fileSize.toNat).length =
      segment.fileSize.toNat := by
    rw [List.length_take, List.length_drop]
    omega
  refine ⟨_, if_neg (Nat.not_lt_of_le (Nat.le_of_eq hlength.symm)), hlength, fun i hi => ?_⟩
  rw [List.getElem?_take_of_lt hi, List.getElem?_drop]

end Content

/-! ### The statement -/

/-- **The file of a draft is read back**, and so are the bytes of segments. -/
structure ReadsBack (draft : Draft) : Prop where
  /-- What is read is the header that was drafted, and the program headers, in order. -/
  ofBytes_eq : Image.ofBytes draft.bytes = .ok draft.image
  /-- The header gives the number of the program headers. -/
  toNat_entryCount : draft.image.header.entryCount.toNat = draft.slots.length
  /-- A segment without bytes has none, whatever place it names. -/
  content_of_empty : ∀ segment : ProgramHeader, segment.fileSize = 0 →
    draft.image.content segment = .ok []
  /-- A segment inside the file has the bytes from its offset on. -/
  content_of_inside : ∀ segment : ProgramHeader,
    segment.offset.toNat + segment.fileSize.toNat ≤ draft.bytes.length →
    ∃ content, draft.image.content segment = .ok content ∧
      content.length = segment.fileSize.toNat ∧
      ∀ i < segment.fileSize.toNat, content[i]? = draft.bytes[segment.offset.toNat + i]?
  /-- Any other segment is refused, with its place. -/
  content_of_outside : ∀ segment : ProgramHeader, segment.fileSize ≠ 0 →
    draft.bytes.length < segment.offset.toNat + segment.fileSize.toNat →
    draft.image.content segment = .error (.segmentOutside segment.offset segment.fileSize)

/-- **Every draft is read back.** -/
theorem readsBack (draft : Draft) : ReadsBack draft where
  ofBytes_eq := draft.ofBytes_bytes
  toNat_entryCount := draft.toNat_entryCount
  content_of_empty _ hempty := Elf.content_of_empty hempty
  content_of_inside _ hinside := exists_content_eq_ok hinside
  content_of_outside _ hne houtside := Image.content_eq_error_iff.mpr ⟨⟨hne, houtside⟩, rfl⟩

/-- A draft with two segments, whose table begins two bytes behind the header and leaves two bytes
between program headers. All that is not prescribed is `0xEE`. -/
def padded : Draft where
  machine := 40
  entry := 0x20000001
  tableOffset := 54
  entrySize := 34
  slots := [⟨⟨1, 122, 0x20000000, 0x20000000, 2, 2, 5, 4⟩, [0xEE, 0xEE]⟩,
    ⟨⟨1, 123, 0x20000100, 0, 2, 8, 6, 4⟩, [0xEE, 0xEE]⟩]
  identRest := List.replicate 10 0xEE
  fileKind := 0xEEEE
  version := 0xEEEEEEEE
  sectionOffset := 0xEEEEEEEE
  flags := 0xEEEEEEEE
  headerLength := 0xEEEE
  sectionEntrySize := 0xEEEE
  sectionCount := 0xEEEE
  sectionNames := 0xEEEE
  gap := [0xEE, 0xEE]
  trailer := [0xB0, 0xB1]
  headerSize_le := by decide
  programHeaderSize_le := by decide
  length_slots := by decide
  length_identRest := rfl
  length_gap := rfl
  length_filler := by decide

/-- It is read back: the entry point, both program headers, and the bytes of the first segment. The
file ends inside the second one. -/
theorem readsBack_padded :
    padded.bytes =
      [0x7f, 0x45, 0x4c, 0x46, 1, 1] ++ List.replicate 12 0xEE ++ [40, 0] ++
      List.replicate 4 0xEE ++ [1, 0, 0, 0x20, 54, 0, 0, 0] ++ List.replicate 10 0xEE ++
      [34, 0, 2, 0] ++ List.replicate 8 0xEE ++
      [1, 0, 0, 0, 122, 0, 0, 0, 0, 0, 0, 0x20, 0, 0, 0, 0x20, 2, 0, 0, 0, 2, 0, 0, 0,
        5, 0, 0, 0, 4, 0, 0, 0, 0xEE, 0xEE] ++
      [1, 0, 0, 0, 123, 0, 0, 0, 0, 1, 0, 0x20, 0, 0, 0, 0, 2, 0, 0, 0, 8, 0, 0, 0,
        6, 0, 0, 0, 4, 0, 0, 0, 0xEE, 0xEE] ++ [0xB0, 0xB1] ∧
    ∃ image, Image.ofBytes padded.bytes = .ok image ∧
      image.header.machine = 40 ∧ image.header.entry = 0x20000001 ∧
      image.segments = [⟨1, 122, 0x20000000, 0x20000000, 2, 2, 5, 4⟩,
        ⟨1, 123, 0x20000100, 0, 2, 8, 6, 4⟩] ∧
      image.segments.map image.content = [.ok [0xB0, 0xB1], .error (.segmentOutside 123 2)] :=
  ⟨rfl, _, (readsBack padded).ofBytes_eq, rfl, rfl, rfl, rfl⟩

end PicoLoader.Elf
