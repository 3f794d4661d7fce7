import PicoLoader.Bytes.LittleEndian
import PicoLoader.Elf.Error
import PicoLoader.Log
import PicoLoader.Text.Hex

/-!
# The file header

The first 52 bytes of a 32-bit ELF file: sixteen bytes of identification, then numbers at fixed
offsets. `PicoLoader.Elf.Header.read` checks the identification, in the order length, magic bytes,
class, byte order, and then takes the numbers as they are; whether they make sense is for those who
use them.

| offset | bytes | field |
|---|---|---|
| 16 | 2 | kind of file |
| 18 | 2 | machine |
| 20 | 4 | version |
| 24 | 4 | entry point |
| 28 | 4 | offset of the program headers |
| 32 | 4 | offset of the section headers |
| 36 | 4 | flags |
| 42 | 2 | size of a program header |
| 44 | 2 | number of program headers |
| 48 | 2 | number of section headers |
-/

namespace PicoLoader.Elf

open LittleEndian (field)

/-- The bytes of the file header. -/
def headerSize : Nat := 52

/-- The bytes of the identification at the start of the file header. -/
def identSize : Nat := 16

/-- The bytes that every ELF file begins with. -/
def magic : List UInt8 := [0x7f, 0x45, 0x4c, 0x46]

/-- The class byte of a 32-bit file. -/
def class32 : UInt8 := 1

/-- The byte order byte of a little-endian file. -/
def littleEndian : UInt8 := 1

/-- The numbers of the file header. -/
structure Header where
  fileKind : UInt16
  machine : UInt16
  version : UInt32
  entry : UInt32
  /-- Where the table of program headers begins. -/
  tableOffset : UInt32
  sectionOffset : UInt32
  flags : UInt32
  /-- The distance from one program header to the next. -/
  entrySize : UInt16
  /-- The number of program headers. -/
  entryCount : UInt16
  sectionCount : UInt16
deriving DecidableEq, Repr

namespace Header

/-- The numbers at their offsets. -/
def ofBytes (bytes : List UInt8) : Header where
  fileKind := UInt16.ofNat (field bytes 16 2)
  machine := UInt16.ofNat (field bytes 18 2)
  version := UInt32.ofNat (field bytes 20 4)
  entry := UInt32.ofNat (field bytes 24 4)
  tableOffset := UInt32.ofNat (field bytes 28 4)
  sectionOffset := UInt32.ofNat (field bytes 32 4)
  flags := UInt32.ofNat (field bytes 36 4)
  entrySize := UInt16.ofNat (field bytes 42 2)
  entryCount := UInt16.ofNat (field bytes 44 2)
  sectionCount := UInt16.ofNat (field bytes 48 2)

/-- The header of a file with the right identification. -/
def read (bytes : List UInt8) : Except Error Header :=
  if bytes.length = 0 then .error .empty
  else if bytes.length < headerSize then .error .headerTruncated
  else if bytes.take 4 ≠ magic then .error .wrongMagic
  else if bytes.getD 4 0 ≠ class32 then .error (.wrongClass (bytes.getD 4 0))
  else if bytes.getD 5 0 ≠ littleEndian then .error (.wrongByteOrder (bytes.getD 5 0))
  else .ok (ofBytes bytes)

/-- The machines that the chips have: Arm and RISC-V cores. -/
def knownMachines : List UInt16 := [40, 243]

/-- What is logged about a header: a warning about a machine that no chip has, and the numbers. -/
def log (header : Header) : List Log.Entry :=
  let unexpected : List Log.Entry :=
    if header.machine ∈ knownMachines then []
    else [⟨.warn, .elf, s!"unexpected ELF machine type {header.machine.toNat}"⟩]
  unexpected ++ [⟨.debug, .elf,
    s!"ELF type {header.fileKind.toNat} version {header.version.toNat} flags " ++
      Hex.number header.flags.toNat ++ " entry " ++ Hex.number header.entry.toNat ++
      s!", {header.entryCount.toNat} program headers at " ++ Hex.number header.tableOffset.toNat ++
      s!", {header.sectionCount.toNat} section headers at " ++
      Hex.number header.sectionOffset.toNat⟩]

end Header

end PicoLoader.Elf
