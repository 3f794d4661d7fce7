import PicoLoader.Elf.Header
import PicoLoader.Elf.ProgramHeader

/-!
# Images

An image is a file whose header and program headers could be read; its bytes are kept, because the
segments are slices of them.

* `PicoLoader.Elf.Image.ofBytes` – reads an image, or says what is wrong first;
* `PicoLoader.Elf.Image.content` – the bytes of one segment;
* `PicoLoader.Elf.Image.log` – what reading logs.

The table of program headers is a run of entries at a fixed distance. The distance may be less than
the 32 bytes of an entry, so that entries overlap; then the table can fit into the file while its
last entries do not, and each entry is checked on its own.
-/

namespace PicoLoader.Elf

/-- A file with its header and its program headers. -/
structure Image where
  header : Header
  segments : List ProgramHeader
  bytes : List UInt8
deriving DecidableEq, Repr

/-- Reads `count` program headers, numbered from `index`: the first from the front of `rest`, each
of the others `stride` bytes further on. -/
def readEntries (stride : Nat) : Nat → Nat → List UInt8 → Except Error (List ProgramHeader)
  | 0, _, _ => .ok []
  | count + 1, index, rest =>
    if (rest.take programHeaderSize).length < programHeaderSize then
      .error (.entryTruncated (UInt16.ofNat index))
    else
      (readEntries stride count (index + 1) (rest.drop stride)).map
        (ProgramHeader.ofBytes (rest.take programHeaderSize) :: ·)

/-- The program headers that a header points to. -/
def Header.readTable (header : Header) (bytes : List UInt8) : Except Error (List ProgramHeader) :=
  let start := header.tableOffset.toNat
  let stride := header.entrySize.toNat
  let count := header.entryCount.toNat
  if start < identSize ∨ stride = 0 then .error .tableMissing
  else if bytes.length < start + stride * count then .error .tableTruncated
  else readEntries stride count 0 (bytes.drop start)

namespace Image

/-- Reads an image. The first thing wrong, from the identification to the last program header, is
the one reported. -/
def ofBytes (bytes : List UInt8) : Except Error Image := do
  let header ← Header.read bytes
  let segments ← header.readTable bytes
  return ⟨header, segments, bytes⟩

/-- What reading logs: nothing until the identification is right, and then the header, whether or
not its program headers can be read. -/
def log (bytes : List UInt8) : List Log.Entry :=
  match Header.read bytes with
  | .ok header => header.log
  | .error _ => []

/-- The bytes that a segment has in the file. The zeros that fill it up in memory are not among
them, and a segment without bytes may name any place. -/
def content (image : Image) (segment : ProgramHeader) : Except Error (List UInt8) :=
  let slice := (image.bytes.drop segment.offset.toNat).take segment.fileSize.toNat
  if slice.length < segment.fileSize.toNat then
    .error (.segmentOutside segment.offset segment.fileSize)
  else .ok slice

/-- **The length of a segment's bytes** is the one its header gives. -/
theorem length_of_content {image : Image} {segment : ProgramHeader} {bytes : List UInt8}
    (h : image.content segment = .ok bytes) : bytes.length = segment.fileSize.toNat := by
  simp only [content] at h
  split at h
  case isTrue => cases h
  case isFalse hfits =>
    cases h
    rw [List.length_take] at hfits ⊢
    omega

/-- **A segment is outside the file** exactly if it has bytes and the file ends before the last of
them; the error gives its place. -/
theorem content_eq_error_iff {image : Image} {segment : ProgramHeader} {error : Error} :
    image.content segment = .error error ↔
      (segment.fileSize ≠ 0 ∧
        image.bytes.length < segment.offset.toNat + segment.fileSize.toNat) ∧
      error = .segmentOutside segment.offset segment.fileSize := by
  have hsize : segment.fileSize ≠ 0 ↔ segment.fileSize.toNat ≠ 0 := by
    rw [ne_eq, ne_eq, ← UInt32.toNat_inj]
    rfl
  simp only [content, List.length_take, List.length_drop, hsize]
  split
  case isTrue h =>
    simp only [Except.error.injEq, eq_comm (a := error)]
    constructor
    · exact fun he => ⟨by omega, he⟩
    · exact fun he => he.2
  case isFalse h =>
    simp only [reduceCtorEq, false_iff]
    rintro ⟨⟨h0, hlt⟩, -⟩
    omega

end Image

end PicoLoader.Elf
