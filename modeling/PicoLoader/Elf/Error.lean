/-!
# What can be wrong with an image file

One constructor per cause, in the order in which a reader meets them: the file cannot be read, its
identification is not that of a 32-bit little-endian ELF file, its table of program headers is
missing or cut short, or a segment lies outside the file. `PicoLoader.Elf.Error.message` is the text
shown to the user.
-/

namespace PicoLoader.Elf

/-- Why an image file is not usable. -/
inductive Error where
  /-- There is no readable file under this name. -/
  | unreadable (path : String)
  /-- The file has no bytes. -/
  | empty
  /-- The file ends inside the file header. -/
  | headerTruncated
  /-- The file does not begin with the four magic bytes. -/
  | wrongMagic
  /-- The class byte is not that of a 32-bit file. -/
  | wrongClass (byte : UInt8)
  /-- The byte order is not little-endian. -/
  | wrongByteOrder (byte : UInt8)
  /-- The header gives no usable table of program headers. -/
  | tableMissing
  /-- The table of program headers runs past the end of the file. -/
  | tableTruncated
  /-- The program header of this index runs past the end of the file. -/
  | entryTruncated (index : UInt16)
  /-- The bytes of a segment are not all in the file. -/
  | segmentOutside (offset size : UInt32)
  /-- A segment that has to be loaded names no address. -/
  | noLoadAddress
deriving DecidableEq, Repr

/-- Whether reading the file failed, or what was read is not a usable image. -/
inductive ErrorKind where
  | format
  | readFailed
deriving DecidableEq, Repr

namespace Error

/-- A file that cannot be read, or holds nothing to read, counts as a failed read. -/
def kind : Error → ErrorKind
  | unreadable _ | empty => .readFailed
  | _ => .format

/-- The text shown to the user. -/
def message : Error → String
  | unreadable path => "Failed to open file: " ++ path
  | empty => "ELF file is empty"
  | headerTruncated => "ELF header truncated"
  | wrongMagic => "Missing ELF magic"
  | wrongClass _ => "Unsupported ELF class"
  | wrongByteOrder _ => "Unsupported ELF endian"
  | tableMissing => "ELF program header table missing"
  | tableTruncated => "ELF program header table truncated"
  | entryTruncated _ => "ELF program header truncated"
  | segmentOutside _ _ => "ELF segment out of range"
  | noLoadAddress => "ELF segment has no load address"

end Error

end PicoLoader.Elf
