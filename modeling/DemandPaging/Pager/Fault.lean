import DemandPaging.Pager.Basic

/-!
# Resolving faults

A fault on a user address finds the page that covers it, or grows the stack if the access looks
like the stack growing; gets a frame, moving the oldest unpinned page to swap if none is free;
fills the frame from swap or from the page's source; and maps it.

A load that fails gives its frame back and leaves the page where it was.

## Main definitions

* `PagerM.evict`, `PagerM.acquireFrame` — getting a frame.
* `PagerM.findOrGrow` — the page to be accessed, which may be a new one of the stack.
* `PagerM.loadPage`, `PagerM.faultIn` — making a page resident.
* `Pager.pageFault`, `Pager.validAddress` — the requests that resolve or check an address.
-/

namespace DemandPaging

namespace PagerM

/-- Moves the page in `frame` to swap and unmaps it. The frame stays allocated. -/
def evict (frame : Nat) : PagerM Unit := do
  match ← (← pager).frames.owner frame with
  | none => throw (.evictingUnowned frame)
  | some owner =>
    let p ← process owner.pid
    match p.pages.lookup owner.page with
    | none => throw (.backsUndeclared owner.pid frame owner.page)
    | some entry =>
      unless entry.residency = .resident frame do throw .assertion
      let space ← p.space.clearPage owner.page
      let (slot, swap) ← (← pager).swap.allocate
      swap.checkWrite slot
      emit (.slotWritten slot)
      setSwap (← swap.store slot (← (← pager).memory.contents frame))
      setProcess owner.pid
        { p with space, pages := p.pages.set owner.page { entry with residency := .swapped slot } }
      emit (.evicted owner.pid owner.page frame slot)

/-- A frame for `owner`: a free one, or the frame of the oldest unpinned page after moving that
page to swap. -/
def acquireFrame (owner : FrameOwner) : PagerM Nat := do
  let (found, frames) ← (← pager).frames.tryAllocate owner
  setFrames frames
  match found with
  | some frame => return frame
  | none =>
    let (victim, frames) := frames.selectVictim
    setFrames frames
    match victim with
    | none => throw (.allFramesPinned owner.pid owner.page frames.size)
    | some frame =>
      evict frame
      setFrames (← (← pager).frames.reassign frame owner)
      return frame

/-- The contents that a page gets when it becomes resident in a frame that holds `old`. -/
def fetchContents (pid page : Nat) (entry : PageEntry) (old : Page) :
    PagerM (Except FileError Page) := do
  match entry.residency with
  | .swapped slot =>
    emit (.returning pid page slot)
    (← pager).swap.checkRead slot
    emit (.slotRead slot)
    let (contents, swap) ← (← pager).swap.fetch slot
    setSwap swap
    return .ok contents
  | .notPopulated =>
    emit (.populating pid page entry.source.describe)
    return entry.source.populate (← pager).view old
  | .resident _ => throw (.loadingResident pid page)

/-- Brings a declared page that is not resident into a frame and maps it. -/
def loadPage (pid page : Nat) : PagerM (Except FaultError Nat) := do
  let frame ← acquireFrame ⟨pid, page⟩
  let p ← process pid
  match p.pages.lookup page with
  | none => throw (.pageVanished pid page)
  | some entry =>
    match ← fetchContents pid page entry (← (← pager).memory.contents frame) with
    | .error e =>
      releaseFrame frame
      return .error (.io e)
    | .ok contents =>
      setContents frame contents
      let (installed, space) ← p.space.setPage page (← frameAddress frame) entry.writable
      if installed then
        match entry.slot? with
        | some slot => setSwap (← (← pager).swap.release slot)
        | none => pure ()
        setProcess pid
          { p with space, pages := p.pages.set page { entry with residency := .resident frame } }
        return .ok frame
      else
        setProcess pid { p with space }
        releaseFrame frame
        return .error .mapFailed

/-- What is declared for an address that no page covers: a stack page, if the access looks like the
stack growing. -/
def growStack (pid addr esp : Nat) : PagerM (Option (PageSource × Bool)) := do
  if ← (← pager).config.isStackAccess addr esp then
    emit (.stackGrows pid (pageFloor addr))
    return some (.zero, true)
  else return none

/-- The page that covers `addr`. If none does, one may be declared for the stack that grows. -/
def findOrGrow (pid addr esp : Nat) : PagerM (Option PageEntry) := do
  let p ← process pid
  let offer ← if (p.pages.lookup addr).isSome then pure none else growStack pid addr esp
  let (entry, pages) := p.pages.lookupOrDeclare addr offer
  setProcess pid { p with pages }
  return entry

/-- Makes the page that covers `addr` resident and answers its frame. -/
def faultIn (pid addr esp : Nat) (forWrite : Bool) : PagerM (Except FaultError Nat) := do
  unless (← pager).config.isUser addr do return .error .kernelAddress
  match ← findOrGrow pid addr esp with
  | none => return .error .badAddress
  | some entry =>
    if forWrite && !entry.writable then return .error .readOnly
    match entry.frame? with
    | some frame => return .ok frame
    | none => loadPage pid (pageFloor addr)

end PagerM

namespace Pager

open PagerM

/-- Resolves a fault of `pid` on a page that is not present. A fault on a page that is resident
succeeds without doing anything. -/
def pageFault (pid addr esp : Nat) : PagerM (Except FaultError Unit) := do
  emit (.faulting pid addr esp)
  return (← faultIn pid addr esp false).map fun _ => ()

/-- Whether `pid` may access `addr`. An address that is not declared but looks like the stack
growing is declared as a new stack page. -/
def validAddress (pid addr esp : Nat) (forWrite : Bool) : PagerM Bool := do
  if addr = 0 || !(← pager).config.isUser addr then return false
  match ← findOrGrow pid addr esp with
  | none => return false
  | some entry => return !forWrite || entry.writable

end Pager

end DemandPaging
