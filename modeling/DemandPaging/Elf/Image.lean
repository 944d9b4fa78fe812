import DemandPaging.Config
import DemandPaging.Elf.Error
import DemandPaging.Elf.Header
import DemandPaging.Elf.ProgramHeader

/-!
# Executable images

What the loader knows of an executable: its header and its program headers. Reading them touches
nothing else of the file. The header is checked before the table of program headers is read, and
the number of entries is bounded so that a corrupt count does not make the loader read the whole
file.

## Main definitions

* `ElfHeader.verify` — the checks on the header.
* `ElfImage.ofFile` — header and program headers of a file.
* `ProgramHeader.validate` — the checks on one loadable segment.
-/

namespace DemandPaging

/-- The largest number of program headers that is read. -/
def maxProgramHeaders : Nat := 1024

/-- Checks that a header is the header of an executable the pager can load. -/
def ElfHeader.verify (h : ElfHeader) : Except ElfError Unit := do
  if h.endianness ≠ .little then throw .unsupportedEndianness
  if h.headerVersion ≠ 1 || h.elfVersion ≠ 1 then throw .unsupportedVersion
  if h.usage ≠ .executable then throw .unsupportedType
  if h.machine ≠ .x86 then throw .unsupportedMachine
  if h.programHeaderEntrySize.toNat ≠ ProgramHeader.size then throw .badProgramHeaderSize
  if h.programHeaderCount.toNat > maxProgramHeaders then throw .malformed

/-- Checks that a loadable segment lies in a file of the given length and in user space. -/
def ProgramHeader.validate (h : ProgramHeader) (fileLength physBase : Nat) :
    Except SegmentError Unit := do
  let addr := h.virtualAddress.toNat
  if pageOffset h.fileOffset.toNat ≠ pageOffset addr then throw .differentPageOffset
  if h.fileOffset.toNat > fileLength then throw .offsetOutOfRange
  if h.memorySize < h.fileSize then throw .memSizeLesserThanFileSize
  if h.memorySize = 0 then throw .emptyMemSize
  match checkedEnd? addr h.memorySize.toNat with
  | none => throw .vmRegionWrapAround
  | some limit =>
    if addr ≥ physBase || limit > physBase then throw .vmRegionOutOfRange
    if addr < pageSize then throw .pageZeroMapping

/-- The header of an image and its program headers. -/
structure ElfImage where
  header : ElfHeader
  segments : List ProgramHeader

namespace ElfImage

/-- Reads exactly `count` bytes of a file; a file that ends before is malformed. -/
def readExact (f : File) (offset count : Nat) : Except LoadError (List UInt8) :=
  match f.readFull offset count with
  | .error e => .error (.read e)
  | .ok bytes => if bytes.size = count then .ok bytes.toList else .error (.elf .malformed)

/-- Reads `count` program headers that follow one another. -/
def readTable (e : Endianness) : (count : Nat) → List UInt8 → Except LoadError (List ProgramHeader)
  | 0, _ => .ok []
  | count + 1, input =>
    match ProgramHeader.parse input e with
    | .error _ => .error (.elf .malformed)
    | .ok (h, rest) => (readTable e count rest).map (h :: ·)

/-- Reads the header of an image. -/
def readHeader (f : File) : Except LoadError ElfHeader := do
  let bytes ← readExact f 0 ElfHeader.size
  match ElfHeader.parse bytes with
  | .error _ => throw (.elf .malformed)
  | .ok (header, _) =>
    match header.verify with
    | .error e => throw (.elf e)
    | .ok () => return header

/-- Reads the header and the program headers of an image. -/
def ofFile (f : File) : Except LoadError ElfImage := do
  let header ← readHeader f
  let count := header.programHeaderCount.toNat
  let bytes ← readExact f header.programHeadersOffset.toNat (count * ProgramHeader.size)
  return { header, segments := ← readTable header.endianness count bytes }

end ElfImage

end DemandPaging
