import PicoLoader.Bytes.LittleEndian

/-!
# Program headers

A program header is eight 32-bit numbers that describe one segment: where its bytes are in the file
and where they belong in memory. `PicoLoader.Elf.ProgramHeader.ofBytes` reads the 32 bytes.
-/

namespace PicoLoader.Elf

open LittleEndian (field)

/-- The bytes of a program header. -/
def programHeaderSize : Nat := 32

/-- The description of one segment. -/
structure ProgramHeader where
  kind : UInt32
  /-- Where in the file the bytes are. -/
  offset : UInt32
  /-- The address at which the program sees the segment. -/
  virtualAddr : UInt32
  /-- The address at which the segment is stored. -/
  physicalAddr : UInt32
  /-- The number of bytes in the file. -/
  fileSize : UInt32
  /-- The number of bytes in memory. -/
  memorySize : UInt32
  flags : UInt32
  align : UInt32
deriving DecidableEq, Repr

namespace ProgramHeader

/-- The eight numbers, in file order. -/
def ofBytes (bytes : List UInt8) : ProgramHeader where
  kind := UInt32.ofNat (field bytes 0 4)
  offset := UInt32.ofNat (field bytes 4 4)
  virtualAddr := UInt32.ofNat (field bytes 8 4)
  physicalAddr := UInt32.ofNat (field bytes 12 4)
  fileSize := UInt32.ofNat (field bytes 16 4)
  memorySize := UInt32.ofNat (field bytes 20 4)
  flags := UInt32.ofNat (field bytes 24 4)
  align := UInt32.ofNat (field bytes 28 4)

/-- Whether the segment is to be loaded. -/
def isLoad (header : ProgramHeader) : Bool :=
  header.kind == 1

/-- Where the bytes go. A linker puts the place of storage into the physical address and the place
of use into the virtual one, so the physical address counts if it is set. -/
def loadAddress (header : ProgramHeader) : UInt32 :=
  if header.physicalAddr ≠ 0 then header.physicalAddr else header.virtualAddr

/-- Whether there are bytes to load. -/
def hasBytes (header : ProgramHeader) : Bool :=
  header.isLoad && header.fileSize != 0

end ProgramHeader

end PicoLoader.Elf
