import DemandPaging.Pager.Basic

/-!
# What the pager tells about itself

Questions do not change the pager. Most of them are about a registered process; asking about one
that is not registered is a bug in the caller.

## Main definitions

* `PageState`, `Pager.pageState` — where a page is, as seen from outside.
* `Pager.translate`, `Pager.isMappedWritable` — the hardware's view of an address.
* `Pager.isPinned`, `Pager.freeFrames`, `Pager.freeSlots` — frames and slots.
* `Pager.declaredPages`, `Pager.liveMappings`, `Pager.openHandles` — what processes hold.
-/

namespace DemandPaging

/-- Where a declared page is, as seen from outside the pager. -/
inductive PageState
  | notPopulated
  | resident (addr : Nat)
  | swapped (slot : Nat)
  deriving DecidableEq, Repr

/-- The handles that a process reads through: one per mapping, and one per page with a file. -/
def Process.handles (p : Process) : List Handle :=
  p.mappings.live.values.map Mapping.file ++
    p.pages.toList.filterMap fun entry => entry.2.source.handle?

namespace Pager

/-- A registered process. -/
def process (p : Pager) (pid : Nat) : Except Panic Process :=
  match p.processes[pid]? with
  | some process => .ok process
  | none => .error (.noAddressSpace pid)

/-- Where the page that covers `addr` is, if one does. -/
def pageState (p : Pager) (pid addr : Nat) : Except Panic (Option PageState) := do
  match (← p.process pid).pages.lookup addr with
  | none => return none
  | some entry =>
    match entry.residency with
    | .notPopulated => return some .notPopulated
    | .resident frame => return some (.resident (← frameAddress frame))
    | .swapped slot => return some (.swapped slot)

/-- The physical address that `addr` is mapped to. -/
def translate (p : Pager) (pid addr : Nat) : Except Panic (Option Nat) := do
  (← p.process pid).space.getPage addr

/-- Whether the mapping of `addr` lets the user write. -/
def isMappedWritable (p : Pager) (pid addr : Nat) : Except Panic Bool := do
  (← p.process pid).space.isWritable addr

/-- Whether the frame at a physical address is pinned. -/
def isPinned (p : Pager) (phys : Nat) : Except Panic Bool :=
  match p.memory.frameAt? phys with
  | none => .ok false
  | some frame => p.frames.isPinned frame

/-- The number of declared pages of `pid`. -/
def declaredPages (p : Pager) (pid : Nat) : Except Panic Nat := do
  return (← p.process pid).pages.size

/-- The number of live mappings of `pid`. -/
def liveMappings (p : Pager) (pid : Nat) : Except Panic Nat := do
  return (← p.process pid).mappings.size

/-- The number of frames not allocated. -/
def freeFrames (p : Pager) : Except Panic Nat := p.frames.free

/-- The number of swap slots not taken. -/
def freeSlots (p : Pager) : Nat := p.swap.free

/-- The handles through which the processes can still read, one for each use. -/
def handles (p : Pager) : List Handle := p.processes.values.flatMap Process.handles

/-- The number of live handles to file `id`: the one held outside the pager, and every other
opening that a mapping or a page still reads through. -/
def openHandles (p : Pager) (id : Nat) : Nat :=
  let reopened := p.handles.filter fun h => h.id == id && h.serial != 0
  1 + (reopened.map Handle.serial).eraseDups.length

end Pager

end DemandPaging
