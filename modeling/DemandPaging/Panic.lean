import DemandPaging.Block.Error
import DemandPaging.Text.Numeral

/-!
# Fatal conditions

An operation of the pager has three outcomes. It answers, it refuses with an error of its own
domain and the system carries on, or it meets a condition that is a bug in the caller or leaves
nothing sensible to do. The last kind is a `Panic`: it stops the run.

Addresses, process identifiers, frame and slot numbers, mapping and sector numbers are all plain
natural numbers here; an address is below `2 ^ 64` and the operations that could leave that range
say so.

Some causes carry a text of the pager; the others are caught by the machine arithmetic, by a
bounds check or by an unnamed assertion and have none. `Panic.message` keeps the two apart.

## Main definitions

* `Panic` — the causes.
* `Panic.message` — the pager's own text for a cause, if it has one.
* `checkedAdd`, `checkedSub`, `checkedMul` — arithmetic in a word of given width.
* `checkBuffer` — the bound on the size of one buffer.
-/

namespace DemandPaging

/-- The causes that stop a run. -/
inductive Panic
  /-- A sum, difference or product left its machine word. -/
  | arithmetic
  /-- An index or a range lies outside its sequence. -/
  | bounds
  /-- A copy between buffers of different lengths. -/
  | lengthMismatch
  /-- A buffer of half the address space or more was asked for. -/
  | capacity
  /-- An internal condition without a text of its own does not hold. -/
  | assertion
  | virtualTooWide (addr : Nat)
  | physicalTooWide (addr : Nat)
  | absentDeviceRead (sector : Nat)
  | absentDeviceWrite (sector : Nat)
  | outOfSwap (slots : Nat)
  | freeingUnusedSlot (slot : Nat)
  | writingUnusedSlot (slot : Nat)
  | readingUnusedSlot (slot : Nat)
  | swapWriteFailed (sector : Nat) (error : BlockError)
  | swapReadFailed (sector : Nat) (error : BlockError)
  | reassigningFreeFrame
  | releasingFreeFrame (frame : Nat)
  | pinningFreeFrame (frame : Nat)
  | pinnedTooOften (frame : Nat)
  | unpinningUnpinned (frame : Nat)
  | evictingUnowned (frame : Nat)
  | backsUndeclared (pid : Nat) (frame : Nat) (page : Nat)
  | allFramesPinned (pid : Nat) (page : Nat) (frames : Nat)
  | pageVanished (pid : Nat) (page : Nat)
  | loadingResident (pid : Nat) (page : Nat)
  | noAddressSpace (pid : Nat)
  | registeredTwice (pid : Nat)
  | declaringKernelPage (pid : Nat) (page : Nat)
  | declaringUnaligned (page : Nat)
  | pageDeclaredTwice (page : Nat)
  | processPageDeclaredTwice (pid : Nat) (page : Nat)
  | unknownMapping (pid : Nat) (id : Nat)
  | startedTwice
  | notStarted
  deriving DecidableEq, Repr

/-- The text of a cause, for the causes the pager words itself. -/
def Panic.message : Panic → Option String
  | arithmetic | bounds | lengthMismatch | capacity | assertion => none
  | virtualTooWide addr => s!"virtual address {hexUpper addr} does not fit in 32 bits"
  | physicalTooWide addr => s!"physical address {hexUpper addr} does not fit in 32 bits"
  | absentDeviceRead sector => s!"Reading dummy device at sector {sector}"
  | absentDeviceWrite sector => s!"Writing dummy device at sector {sector}"
  | outOfSwap slots => s!"out of swap slots ({slots} in use)"
  | freeingUnusedSlot slot => s!"freeing unused swap slot {slot}"
  | writingUnusedSlot slot => s!"writing unallocated swap slot {slot}"
  | readingUnusedSlot slot => s!"reading unallocated swap slot {slot}"
  | swapWriteFailed sector error => s!"swap write to sector {sector} failed: {error.message}"
  | swapReadFailed sector error => s!"swap read from sector {sector} failed: {error.message}"
  | reassigningFreeFrame => some "reassigning a free frame"
  | releasingFreeFrame frame => s!"releasing free frame {frame}"
  | pinningFreeFrame frame => s!"pinning free frame {frame}"
  | pinnedTooOften frame => s!"frame {frame} pinned too often"
  | unpinningUnpinned frame => s!"unpinning frame {frame} which is not pinned"
  | evictingUnowned frame => s!"evicting frame {frame} which has no owner"
  | backsUndeclared pid frame page =>
    s!"pid {pid}: frame {frame} backs undeclared page {hex page}"
  | allFramesPinned pid page frames =>
    s!"pid {pid}: no frame for {hex page}, all {frames} user frames are pinned"
  | pageVanished pid page => s!"pid {pid}: page {hex page} vanished while acquiring a frame"
  | loadingResident pid page => s!"pid {pid}: loading resident page {hex page}"
  | noAddressSpace pid => s!"pid {pid} has no address space"
  | registeredTwice pid => s!"pid {pid} registered twice"
  | declaringKernelPage pid page => s!"pid {pid}: declaring kernel page {hex page}"
  | declaringUnaligned page => s!"declaring unaligned page {hex page}"
  | pageDeclaredTwice page => s!"page {hex page} declared twice"
  | processPageDeclaredTwice pid page => s!"pid {pid}: page {hex page} declared twice"
  | unknownMapping pid id => s!"pid {pid}: munmap of unknown mapping {id}"
  | startedTwice => some "VM initialized twice."
  | notStarted => some "VM not initialized."

/-! ### Arithmetic in a machine word -/

/-- The sum of two numbers, as long as it fits in `width` bits. -/
def checkedAdd (width a b : Nat) : Except Panic Nat :=
  if a + b < Nat.pow 2 width then .ok (a + b) else .error .arithmetic

/-- The product of two numbers, as long as it fits in `width` bits. -/
def checkedMul (width a b : Nat) : Except Panic Nat :=
  if a * b < Nat.pow 2 width then .ok (a * b) else .error .arithmetic

/-- The difference of two numbers, as long as it is not negative. -/
def checkedSub (a b : Nat) : Except Panic Nat :=
  if b ≤ a then .ok (a - b) else .error .arithmetic

theorem checkedAdd_of_lt {width a b : Nat} (h : a + b < Nat.pow 2 width) :
    checkedAdd width a b = .ok (a + b) := if_pos h

theorem checkedMul_of_lt {width a b : Nat} (h : a * b < Nat.pow 2 width) :
    checkedMul width a b = .ok (a * b) := if_pos h

theorem checkedSub_of_le {a b : Nat} (h : b ≤ a) : checkedSub a b = .ok (a - b) := if_pos h

/-! ### The size of a buffer -/

/-- Fails unless `count` items of `size` bytes take less than half the 64-bit address space, which
is what one buffer may hold. -/
def checkBuffer (count size : Nat) : Except Panic Unit :=
  if count * size < Nat.pow 2 63 then .ok () else .error .capacity

theorem checkBuffer_of_lt {count size : Nat} (h : count * size < Nat.pow 2 63) :
    checkBuffer count size = .ok () := if_pos h

end DemandPaging
