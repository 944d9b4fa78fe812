import DemandPaging.Elf.Image
import DemandPaging.Pager.Process

/-!
# Loading executables

Loading checks an image and declares its pages; nothing past the headers is read. Every page of a
loadable segment becomes an image page that reads its bytes when it is first touched, so a program
that never touches part of its image never reads it.

A load that fails may have declared some pages; the caller tears the process down.

## Main definitions

* `PagerM.declareSegment`, `PagerM.loadSegments` — the pages of the segments.
* `Program`, `Pager.loadElf` — a whole image and its first stack page.
-/

namespace DemandPaging

/-- Where a program that has just been loaded starts. -/
structure Program where
  entry : Nat
  stackPointer : Nat
  deriving DecidableEq, Repr

namespace PagerM

theorem left_after_page_lt {read zeros : Nat} (h : 0 < read ∨ 0 < zeros)
    (hz : pageSize - min read pageSize ≤ zeros) :
    read - min read pageSize + (zeros - (pageSize - min read pageSize)) < read + zeros := by
  rw [pageSize] at hz ⊢
  rcases h with h | h <;> omega

/-- Declares pages from `page` on while bytes of a segment are left: `read` bytes from the file at
`offset`, then `zeros` bytes that fill the last page. -/
def declareSegment (pid : Nat) (file : Handle) (writable : Bool) (page offset read zeros : Nat) :
    PagerM (Except LoadError Unit) :=
  if h : 0 < read ∨ 0 < zeros then do
    let share := min read pageSize
    unless ← Pager.tryDeclareImage pid page file offset share writable do
      return .error (.segmentOverlap page)
    if hz : pageSize - share ≤ zeros then
      have := left_after_page_lt h hz
      declareSegment pid file writable (page + pageSize) (offset + share) (read - share)
        (zeros - (pageSize - share))
    else throw .arithmetic
  else return .ok ()
  termination_by read + zeros

/-- Declares the pages of one loadable segment. -/
def loadSegment (pid : Nat) (file : Handle) (h : ProgramHeader) :
    PagerM (Except LoadError Unit) := do
  let addr := h.virtualAddress.toNat
  let lead := pageOffset addr
  let read := if 0 < h.fileSize.toNat then lead + h.fileSize.toNat else 0
  let zeros ← checkedSub (← pageCeil (lead + h.memorySize.toNat)) read
  let offset ← checkedSub h.fileOffset.toNat lead
  declareSegment pid file h.writable (pageFloor addr) offset read zeros

/-- Declares the pages of the loadable segments in turn. -/
def loadSegments (pid : Nat) (file : Handle) : List ProgramHeader → PagerM (Except LoadError Unit)
  | [] => return .ok ()
  | h :: rest => do
    match h.kind with
    | .load =>
      match h.validate file.file.length (← pager).config.physBase with
      | .error e => return .error (.elf (.segment e))
      | .ok () =>
        match ← loadSegment pid file h with
        | .error e => return .error e
        | .ok () =>
          emit (.segmentLoaded pid h.virtualAddress.toNat h.memorySize.toNat h.fileSize.toNat)
          loadSegments pid file rest
    | .dynamic | .interpret | .shlib => return .error (.elf .dynamicSegment)
    | _ => loadSegments pid file rest

end PagerM

namespace Pager

open PagerM

/-- Declares the image in `file` and a first stack page in the memory of `pid`. -/
def loadElf (pid : Nat) (file : Handle) : PagerM (Except LoadError Program) := do
  match ElfImage.ofFile ((← pager).view file) with
  | .error e => return .error e
  | .ok image =>
    match ← loadSegments pid file image.segments with
    | .error e => return .error e
    | .ok () =>
      let physBase := (← pager).config.physBase
      let stackPage ← checkedSub physBase pageSize
      if ← tryDeclareZero pid stackPage true then
        return .ok { entry := image.header.programEntry.toNat, stackPointer := physBase }
      else return .error (.segmentOverlap stackPage)

end Pager

end DemandPaging
