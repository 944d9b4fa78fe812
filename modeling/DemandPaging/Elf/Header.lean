import DemandPaging.Elf.Reader

/-!
# The header of an executable

The first 52 bytes of a 32-bit image. The byte order is itself a field, and every number behind it
is read in that order. Fields that the loader has no use for are passed over.

## Main definitions

* `ElfUsage`, `ElfMachine` — the values of two fields.
* `ElfHeader`, `ElfHeader.reader` — the header and how it is read.
-/

namespace DemandPaging

/-- What kind of image a file holds. -/
inductive ElfUsage
  | relocatable
  | executable
  | shared
  | core
  deriving DecidableEq, Repr

namespace ElfUsage

/-- The usage that a number stands for. -/
def ofCode : UInt16 → Option ElfUsage
  | 1 => some relocatable
  | 2 => some executable
  | 3 => some shared
  | 4 => some core
  | _ => none

/-- The number of a usage. -/
def code : ElfUsage → UInt16
  | relocatable => 1
  | executable => 2
  | shared => 3
  | core => 4

end ElfUsage

/-- The machine an image is made for. -/
inductive ElfMachine
  | generic
  | sparc
  | mips
  | powerPC
  | riscV
  | ia64
  | x86
  | x8664
  | arm
  | arm64
  | other (code : UInt16)
  deriving DecidableEq, Repr

namespace ElfMachine

/-- The machine that a number stands for; a number without a name stands for itself. -/
def ofCode (code : UInt16) : ElfMachine :=
  if code = 0x00 then generic
  else if code = 0x02 then sparc
  else if code = 0x03 then x86
  else if code = 0x08 then mips
  else if code = 0x14 then powerPC
  else if code = 0x28 then arm
  else if code = 0x32 then ia64
  else if code = 0x3E then x8664
  else if code = 0xB7 then arm64
  else if code = 0xF3 then riscV
  else other code

/-- The number of a machine. -/
def code : ElfMachine → UInt16
  | generic => 0x00
  | sparc => 0x02
  | x86 => 0x03
  | mips => 0x08
  | powerPC => 0x14
  | arm => 0x28
  | ia64 => 0x32
  | x8664 => 0x3E
  | arm64 => 0xB7
  | riscV => 0xF3
  | other code => code

end ElfMachine

/-- The header of a 32-bit image. -/
structure ElfHeader where
  endianness : Endianness
  headerVersion : UInt8
  usage : ElfUsage
  machine : ElfMachine
  elfVersion : UInt32
  programEntry : UInt32
  programHeadersOffset : UInt32
  programHeaderEntrySize : UInt16
  programHeaderCount : UInt16
  deriving DecidableEq, Repr

namespace ElfHeader

/-- The length of a header in bytes. -/
def size : Nat := 52

/-- The four bytes that every image starts with. -/
def magic : List UInt8 := [0x7F, 0x45, 0x4C, 0x46]

/-- The byte order that the byte behind the class stands for. -/
def endiannessOfCode : UInt8 → Option Endianness
  | 1 => some .little
  | 2 => some .big
  | _ => none

/-- Reads a header. -/
def reader : Reader ElfHeader := do
  Reader.literal magic
  -- The class of 32-bit images; no other class is read.
  Reader.literal [1]
  let endianness ← Reader.select Reader.u8 endiannessOfCode
  let headerVersion ← Reader.u8
  -- The binary interface and padding.
  Reader.skip 9
  let usage ← Reader.select (Reader.u16 endianness) ElfUsage.ofCode
  let machine ← Reader.u16 endianness
  let elfVersion ← Reader.u32 endianness
  let programEntry ← Reader.u32 endianness
  let programHeadersOffset ← Reader.u32 endianness
  -- The place of the section headers, flags and the length of this header.
  Reader.skip 10
  let programHeaderEntrySize ← Reader.u16 endianness
  let programHeaderCount ← Reader.u16 endianness
  -- Length and number of the section headers and the index of the string table.
  Reader.skip 6
  return { endianness, headerVersion, usage, machine := ElfMachine.ofCode machine, elfVersion,
           programEntry, programHeadersOffset, programHeaderEntrySize, programHeaderCount }

/-- The header at the front of `input`, and what follows it. -/
def parse (input : List UInt8) : Except ReadError (ElfHeader × List UInt8) := reader.run input

end ElfHeader

end DemandPaging
