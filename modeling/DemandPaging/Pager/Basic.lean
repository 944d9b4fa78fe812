import DemandPaging.AddressSpace
import DemandPaging.Config
import DemandPaging.Frame.Memory
import DemandPaging.Frame.Pool
import DemandPaging.Mapping
import DemandPaging.Page.Map
import DemandPaging.Pager.Event
import DemandPaging.Swap.Basic

/-!
# The pager and its operations' monad

The pager owns the frames, the swap area and, for every registered process, its page map, its
mappings and its address space. Every operation runs under one lock, so an operation is a function
from pager to pager.

An operation is a `PagerM` action. It can panic, which stops the run; it can report events, which
stay reported even if it panics later; and where it can fail in an ordinary way it answers an
`Except` whose error leaves the pager usable. The events are kept beside the pager and not in it,
so that "nothing changes" can be said of the pager alone.

## Main definitions

* `Process`, `Pager` — the state.
* `Traced`, `PagerM` — a pager with the events so far, and the actions on it.
* `Traced.start`, `Traced.boot` — the pager at boot, and the check on its number of frames.
-/

namespace DemandPaging

/-- What the pager tracks for one process. -/
structure Process where
  pages : PageMap
  mappings : MappingTable
  space : AddressSpace

/-- A process that has just been registered. -/
def Process.fresh : Process := ⟨.empty, .empty, .empty⟩

/-- The state of the pager. -/
structure Pager where
  config : Config
  memory : FrameMemory
  frames : FramePool
  swap : Swap
  processes : Std.ExtTreeMap Nat Process
  /-- The files whose medium fails at the moment, by file number. -/
  failing : Nat → Bool
  /-- The number that the next opening of a file gets. -/
  nextSerial : Nat

namespace Pager

/-- A pager without processes that swaps to `device`. -/
def ofConfig (config : Config) (device : Block) : Pager where
  config := config
  memory := .ofSize config.userFrames
  frames := .ofSize config.userFrames
  swap := .ofBlock device config.swapSlots
  processes := ∅
  failing := fun _ => false
  nextSerial := 1

/-- What a read through a handle sees at the moment. -/
def view (p : Pager) (h : Handle) : File := if p.failing h.id then h.file.broken else h.file

end Pager

/-- A pager together with the events of its run so far. -/
structure Traced where
  pager : Pager
  log : Array PagerEvent

/-- The pager at boot, after its swap device was found. -/
def Traced.start (config : Config) (device : Block) : Traced :=
  let pager := Pager.ofConfig config device
  { pager
    log := #[.deviceAttached device.name device.usage.label device.size,
      .started config.userFrames pager.swap.slots device.name] }

/-- The pager at boot, as long as its frames fit in one buffer. -/
def Traced.boot (config : Config) (device : Block) : Except Panic Traced := do
  checkBuffer config.userFrames pageSize
  return .start config device

/-- An operation of the pager. -/
abbrev PagerM := EStateM Panic Traced

namespace PagerM

instance : MonadLift (Except Panic) PagerM where
  monadLift
    | .ok a => pure a
    | .error e => throw e

/-- The pager as it is. -/
def pager : PagerM Pager := return (← get).pager

/-- Changes the pager. -/
def update (f : Pager → Pager) : PagerM Unit := modify fun t => { t with pager := f t.pager }

/-- Reports an event. -/
def emit (e : PagerEvent) : PagerM Unit := modify fun t => { t with log := t.log.push e }

/-- Replaces the frame pool. -/
def setFrames (frames : FramePool) : PagerM Unit := update ({ · with frames })

/-- Replaces the swap area. -/
def setSwap (swap : Swap) : PagerM Unit := update ({ · with swap })

/-- Replaces the bytes of a frame. -/
def setContents (frame : Nat) (page : Page) : PagerM Unit := do
  let memory ← (← pager).memory.setContents frame page
  update ({ · with memory })

/-- The process `pid`, which has to be registered. -/
def process (pid : Nat) : PagerM Process := do
  match (← pager).processes[pid]? with
  | some p => return p
  | none => throw (.noAddressSpace pid)

/-- Records the state of process `pid`. -/
def setProcess (pid : Nat) (p : Process) : PagerM Unit :=
  update fun s => { s with processes := s.processes.insert pid p }

/-- Gives a frame back to the pool. -/
def releaseFrame (frame : Nat) : PagerM Unit := do
  setFrames (← (← pager).frames.release frame)

/-- Adds a pin to a frame. -/
def pinFrame (frame : Nat) : PagerM Unit := do
  setFrames (← (← pager).frames.pin frame)

/-- Takes a pin off a frame. -/
def unpinFrame (frame : Nat) : PagerM Unit := do
  setFrames (← (← pager).frames.unpin frame)

end PagerM

end DemandPaging
