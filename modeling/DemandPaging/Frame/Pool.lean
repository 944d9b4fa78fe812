import DemandPaging.Frame.CoreMap
import DemandPaging.Frame.Fifo

/-!
# The frame pool

The bookkeeping for the user frames: the core map, the owner of each frame, the replacement order,
the number of allocated frames and the place where the next search starts. Frames are handed out
next fit, so the search begins behind the last frame handed out and wraps around once.

A victim leaves the replacement order but stays allocated; its new owner is recorded by
`reassign`, which puts it at the end of the order again.

## Main definitions

* `FramePool`, `FramePool.reserve` — the bookkeeping.
* `FramePool.tryAllocate`, `FramePool.selectVictim`, `FramePool.reassign`, `FramePool.release` —
  the life of a frame.
* `FramePool.pin`, `FramePool.unpin` — nested pins.
-/

namespace DemandPaging

/-- The bookkeeping for the user frames. -/
structure FramePool where
  coreMap : Array CoreMapEntry
  owners : Array (Option FrameOwner)
  order : Fifo
  /-- The number of allocated frames. -/
  allocated : Nat
  /-- The frame at which the next search for a free frame starts. -/
  cursor : Nat

namespace FramePool

/-- A pool of `frames` free frames. -/
def ofSize (frames : Nat) : FramePool where
  coreMap := Array.replicate frames CoreMapEntry.free
  owners := Array.replicate frames none
  order := Fifo.empty
  allocated := 0
  cursor := 0

/-- A pool of `frames` free frames, as long as its core map fits in one buffer. -/
def reserve (frames : Nat) : Except Panic FramePool := do
  checkBuffer frames CoreMapEntry.size
  return ofSize frames

/-- The number of frames. -/
def size (p : FramePool) : Nat := p.coreMap.size

/-- The number of frames not allocated. -/
def free (p : FramePool) : Except Panic Nat := checkedSub p.size p.allocated

/-- The core map's word for a frame. -/
def entry (p : FramePool) (frame : Nat) : Except Panic CoreMapEntry :=
  match p.coreMap[frame]? with
  | some e => .ok e
  | none => .error .bounds

/-- Replaces the core map's word for a frame. -/
def setEntry (p : FramePool) (frame : Nat) (e : CoreMapEntry) : FramePool :=
  { p with coreMap := p.coreMap.setIfInBounds frame e }

/-- Records the owner of a frame. -/
def setOwner (p : FramePool) (frame : Nat) (owner : Option FrameOwner) : FramePool :=
  { p with owners := p.owners.setIfInBounds frame owner }

/-- Whether a frame is allocated; a frame the pool does not have is not. -/
def isAllocated (p : FramePool) (frame : Nat) : Bool := p.coreMap[frame]?.any CoreMapEntry.allocated

/-- The frames in the order of the search: from the cursor to the end, then from the start. -/
def searchOrder (p : FramePool) : List Nat :=
  (List.range p.size).map fun i => (p.cursor + i) % p.size

/-- The frame that the next allocation takes, if one is free. -/
def nextFree? (p : FramePool) : Option Nat :=
  if p.allocated = p.size then none else p.searchOrder.find? (! p.isAllocated ·)

/-- Takes a free frame for `owner`; `none` if every frame is in use. -/
def tryAllocate (p : FramePool) (owner : FrameOwner) : Except Panic (Option Nat × FramePool) :=
  match p.nextFree? with
  | none => .ok (none, p)
  | some frame => do
    let e ← p.entry frame
    let p := (p.setEntry frame (e.withAllocated true)).setOwner frame owner
    let order ← p.order.assign frame
    return (some frame,
      { p with order, allocated := p.allocated + 1, cursor := (frame + 1) % p.size })

/-- Takes the oldest unpinned frame out of the replacement order. The frame stays allocated. -/
def selectVictim (p : FramePool) : Option Nat × FramePool :=
  let (victim, order) := p.order.selectVictim fun frame =>
    ! p.coreMap[frame]?.any CoreMapEntry.pinned
  (victim, { p with order })

/-- Hands an evicted frame to its new owner. -/
def reassign (p : FramePool) (frame : Nat) (owner : FrameOwner) : Except Panic FramePool := do
  let e ← p.entry frame
  unless e.allocated do throw .reassigningFreeFrame
  if e.pinned then throw .assertion
  let order ← p.order.assign frame
  return { p.setOwner frame owner with order }

/-- Gives a frame back. Any pins on it are dropped. -/
def release (p : FramePool) (frame : Nat) : Except Panic FramePool := do
  let e ← p.entry frame
  unless e.allocated do throw (.releasingFreeFrame frame)
  let allocated ← checkedSub p.allocated 1
  let p := (p.setEntry frame CoreMapEntry.free).setOwner frame none
  return { p with allocated, order := p.order.release frame }

/-- The page a frame backs. -/
def owner (p : FramePool) (frame : Nat) : Except Panic (Option FrameOwner) :=
  match p.owners[frame]? with
  | some owner => .ok owner
  | none => .error .bounds

/-- Whether any pin holds a frame. -/
def isPinned (p : FramePool) (frame : Nat) : Except Panic Bool := do
  return (← p.entry frame).pinned

/-- Adds a pin. A frame stays pinned until every pin has been taken off. -/
def pin (p : FramePool) (frame : Nat) : Except Panic FramePool := do
  let e ← p.entry frame
  unless e.allocated do throw (.pinningFreeFrame frame)
  unless e.pins.toNat < CoreMapEntry.maxPins do throw (.pinnedTooOften frame)
  return p.setEntry frame (e.withPins (e.pins + 1))

/-- Takes a pin off. -/
def unpin (p : FramePool) (frame : Nat) : Except Panic FramePool := do
  let e ← p.entry frame
  unless 0 < e.pins.toNat do throw (.unpinningUnpinned frame)
  return p.setEntry frame (e.withPins (e.pins - 1))

end FramePool

end DemandPaging
