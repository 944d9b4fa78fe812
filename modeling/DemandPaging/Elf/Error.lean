import DemandPaging.File.Basic

/-!
# Why an executable is not loaded

## Main definitions

* `SegmentError`, `ElfError`, `LoadError` — the causes, from one segment to the whole load.
-/

namespace DemandPaging

/-- The reasons a loadable segment is not valid. -/
inductive SegmentError
  /-- Its place in the file and its address have different page offsets. -/
  | differentPageOffset
  /-- It starts past the end of the file. -/
  | offsetOutOfRange
  /-- It holds more bytes in the file than in memory. -/
  | memSizeLesserThanFileSize
  /-- It has no bytes in memory. -/
  | emptyMemSize
  /-- It reaches into kernel space. -/
  | vmRegionOutOfRange
  /-- Its end does not fit in an address. -/
  | vmRegionWrapAround
  /-- It starts on the page at address zero. -/
  | pageZeroMapping
  deriving DecidableEq, Repr

namespace SegmentError

/-- The name of a cause, as messages quote it. -/
def label : SegmentError → String
  | differentPageOffset => "DifferentPageOffset"
  | offsetOutOfRange => "OffsetOutOfRange"
  | memSizeLesserThanFileSize => "MemSizeLesserThanFileSize"
  | emptyMemSize => "EmptyMemSize"
  | vmRegionOutOfRange => "VMRegionOutOfRange"
  | vmRegionWrapAround => "VMRegionWrapAround"
  | pageZeroMapping => "PageZeroMapping"

/-- Every cause, in the order of the type. -/
def all : List SegmentError :=
  [differentPageOffset, offsetOutOfRange, memSizeLesserThanFileSize, emptyMemSize,
    vmRegionOutOfRange, vmRegionWrapAround, pageZeroMapping]

theorem mem_all (e : SegmentError) : e ∈ all := by cases e <;> decide

end SegmentError

/-- The reasons an image is not an executable the pager can load. -/
inductive ElfError
  /-- Not a 32-bit image, or cut short. -/
  | malformed
  | unsupportedEndianness
  | unsupportedVersion
  | unsupportedType
  | unsupportedMachine
  | badProgramHeaderSize
  /-- The image needs a dynamic loader. -/
  | dynamicSegment
  | segment (error : SegmentError)
  deriving DecidableEq, Repr

namespace ElfError

/-- The wording of a rejected image. -/
def message : ElfError → String
  | malformed => "not a 32-bit ELF executable"
  | unsupportedEndianness => "unsupported endianness"
  | unsupportedVersion => "unsupported ELF version"
  | unsupportedType => "not an executable"
  | unsupportedMachine => "not an x86 executable"
  | badProgramHeaderSize => "unexpected program header size"
  | dynamicSegment => "dynamically linked executable"
  | segment e => s!"invalid segment: {e.label}"

/-- Every cause, in the order of the type. -/
def all : List ElfError :=
  [malformed, unsupportedEndianness, unsupportedVersion, unsupportedType, unsupportedMachine,
    badProgramHeaderSize, dynamicSegment] ++ SegmentError.all.map segment

theorem mem_all (e : ElfError) : e ∈ all := by
  cases e with
  | segment e => exact List.mem_append_right _ (List.mem_map_of_mem e.mem_all)
  | _ => decide

/-- No two causes are worded alike, and two invalid segments are not either. -/
theorem message_inj {e e' : ElfError} (h : e.message = e'.message) : e = e' := by
  have hall : ∀ e ∈ all, ∀ e' ∈ all, e.message = e'.message → e = e' := by decide +kernel
  exact hall e (mem_all e) e' (mem_all e') h

end ElfError

/-- The reasons a load fails. -/
inductive LoadError
  | read (error : FileError)
  | elf (error : ElfError)
  /-- Two segments, or a segment and the stack, share the page at this address. -/
  | segmentOverlap (page : Nat)
  deriving DecidableEq, Repr

namespace LoadError

/-- The wording of a failed load. -/
def message : LoadError → String
  | read e => s!"reading executable: {e.message}"
  | elf e => e.message
  | segmentOverlap page => s!"segments overlap at {hex page}"

/-- The wording of the failure underneath, if there is one. -/
def causeMessage : LoadError → Option String
  | read e => e.message
  | elf e => e.message
  | segmentOverlap _ => none

end LoadError

end DemandPaging
