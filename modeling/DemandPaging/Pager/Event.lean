import DemandPaging.Log.Event
import DemandPaging.Pager.Error
import DemandPaging.Pager.FaultCode
import DemandPaging.Text.Numeral

/-!
# What the pager logs

The pager records what happens as typed events; their level, target and wording are given here
and nowhere else.

## Main definitions

* `PagerEvent` — the events.
* `PagerEvent.record` — an event as a log record.
-/

namespace DemandPaging

/-- The things the pager reports. -/
inductive PagerEvent
  | deviceAttached (name usage : String) (sectors : Nat)
  | started (frames slots : Nat) (device : String)
  | faulting (pid addr esp : Nat)
  | stackGrows (pid page : Nat)
  | populating (pid page : Nat) (source : String)
  | returning (pid page slot : Nat)
  | slotWritten (slot : Nat)
  | slotRead (slot : Nat)
  | evicted (pid page frame slot : Nat)
  | mappingOverlaps (pid addr page : Nat)
  | fileMapped (pid id addr length : Nat)
  | fileUnmapped (pid id addr : Nat)
  | released (pid pages : Nat)
  | trapped (pid addr : Nat) (code : FaultCode)
  | protectionViolation (pid addr : Nat)
  | unresolved (pid addr : Nat) (error : FaultError)
  | segmentLoaded (pid addr memorySize fileSize : Nat)
  deriving DecidableEq, Repr

namespace PagerEvent

/-- The level of an event. -/
def level : PagerEvent → LogLevel
  | started .. => .info
  | faulting .. | populating .. | returning .. | slotWritten .. | slotRead .. | trapped .. =>
    .trace
  | protectionViolation .. | unresolved .. => .warn
  | deviceAttached .. | stackGrows .. | evicted .. | mappingOverlaps .. | fileMapped ..
  | fileUnmapped .. | released .. | segmentLoaded .. => .debug

/-- The part of the system that an event is logged under. -/
def target : PagerEvent → String
  | deviceAttached .. => "kidneyos_vm::block::block_core"
  | started .. | evicted .. | released .. => "kidneyos_vm::mem"
  | faulting .. | stackGrows .. | populating .. | returning .. => "kidneyos_vm::mem::fault"
  | slotWritten .. | slotRead .. => "kidneyos_vm::swapping"
  | mappingOverlaps .. | fileMapped .. | fileUnmapped .. => "kidneyos_vm::mem::mmap"
  | trapped .. | protectionViolation .. | unresolved .. => "kidneyos_vm::interrupts::page_fault"
  | segmentLoaded .. => "kidneyos_vm::user_program::elf_loader"

/-- The wording of an event. -/
def text : PagerEvent → String
  | deviceAttached name usage sectors =>
    s!"Registered block device \"{name}\" ({usage} type) with {sectors} sectors"
  | started frames slots device => s!"VM: {frames} user frames, {slots} swap slots on {device}"
  | faulting pid addr esp => s!"pid {pid}: page fault at {hex addr}, esp {hex esp}"
  | stackGrows pid page => s!"pid {pid}: stack grows to {hex page}"
  | populating pid page source => s!"pid {pid}: populating {hex page} from {source}"
  | returning pid page slot => s!"pid {pid}: {hex page} in from swap slot {slot}"
  | slotWritten slot => s!"swap out to slot {slot}"
  | slotRead slot => s!"swap in from slot {slot}"
  | evicted pid page frame slot =>
    s!"pid {pid}: evicted {hex page} from frame {frame} to swap slot {slot}"
  | mappingOverlaps pid addr page => s!"pid {pid}: mmap at {hex addr} overlaps {hex page}"
  | fileMapped pid id addr length => s!"pid {pid}: mapping {id} at {hex addr}, {length} bytes"
  | fileUnmapped pid id addr => s!"pid {pid}: unmapped mapping {id} at {hex addr}"
  | released pid pages => s!"pid {pid}: released {pages} pages"
  | trapped pid addr code => s!"pid {pid}: #PF at {hex addr} ({code.describe})"
  | protectionViolation pid addr =>
    s!"pid {pid}: protection violation at {hex addr}, killing process"
  | unresolved pid addr error =>
    s!"pid {pid}: page fault at {hex addr}: {error.message}, killing process"
  | segmentLoaded pid addr memorySize fileSize =>
    s!"pid {pid}: segment at {hex addr}, {hex memorySize} bytes ({hex fileSize} from file)"

/-- An event as a log record. -/
def record (e : PagerEvent) : LogEvent := ⟨e.level, e.target, e.text⟩

end PagerEvent

end DemandPaging
