import DemandPaging.Elf.Reader

/-!
# The program headers of an executable

A program header describes one segment in 32 bytes. The contents of the segment are not part of
it; they are read from the file page by page, when a page is first touched.

## Main definitions

* `SegmentKind` — what a segment is for.
* `ProgramHeader`, `ProgramHeader.reader` — the record and how it is read.
-/

namespace DemandPaging

/-- What a segment is for. -/
inductive SegmentKind
  | ignore
  | load
  | dynamic
  | interpret
  | note
  | shlib
  | programHeaders
  | stack
  | other (code : UInt32)
  deriving DecidableEq, Repr

namespace SegmentKind

/-- The kind that a number stands for; a number without a name stands for itself. -/
def ofCode (code : UInt32) : SegmentKind :=
  if code = 0 then ignore
  else if code = 1 then load
  else if code = 2 then dynamic
  else if code = 3 then interpret
  else if code = 4 then note
  else if code = 5 then shlib
  else if code = 6 then programHeaders
  else if code = 0x6474e551 then stack
  else other code

/-- The number of a kind. -/
def code : SegmentKind → UInt32
  | ignore => 0
  | load => 1
  | dynamic => 2
  | interpret => 3
  | note => 4
  | shlib => 5
  | programHeaders => 6
  | stack => 0x6474e551
  | other code => code

end SegmentKind

/-- The description of one segment. -/
structure ProgramHeader where
  kind : SegmentKind
  fileOffset : UInt32
  virtualAddress : UInt32
  fileSize : UInt32
  memorySize : UInt32
  executable : Bool
  writable : Bool
  readable : Bool
  alignment : UInt32
  deriving DecidableEq, Repr

namespace ProgramHeader

/-- The length of a program header in bytes. -/
def size : Nat := 32

/-- Reads a program header in the given byte order. -/
def reader (e : Endianness) : Reader ProgramHeader := do
  let kind ← Reader.u32 e
  let fileOffset ← Reader.u32 e
  let virtualAddress ← Reader.u32 e
  let _physicalAddress ← Reader.u32 e
  let fileSize ← Reader.u32 e
  let memorySize ← Reader.u32 e
  let flags ← Reader.u32 e
  let alignment ← Reader.u32 e
  return { kind := SegmentKind.ofCode kind, fileOffset, virtualAddress, fileSize, memorySize,
           executable := flags.toNat.testBit 0, writable := flags.toNat.testBit 1,
           readable := flags.toNat.testBit 2, alignment }

/-- The program header at the front of `input`, and what follows it. -/
def parse (input : List UInt8) (e : Endianness) :
    Except ReadError (ProgramHeader × List UInt8) := (reader e).run input

end ProgramHeader

end DemandPaging
