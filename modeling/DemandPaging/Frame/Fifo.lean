import DemandPaging.Panic

/-!
# First in, first out

The order in which frames give up their pages: the frame assigned longest ago goes first. A frame
that may not be evicted is passed over and keeps its place.

## Main definitions

* `Fifo` — the frames that back pages, oldest assignment first.
* `Fifo.assign`, `Fifo.release`, `Fifo.selectVictim` — its operations.
-/

namespace DemandPaging

/-- The replacement order. -/
structure Fifo where
  /-- The assigned frames, the oldest assignment in front. -/
  queue : List Nat
  deriving DecidableEq, Repr

namespace Fifo

/-- No frame is assigned. -/
def empty : Fifo := ⟨[]⟩

/-- A frame now backs a page. A frame that is in the order already must not be assigned again. -/
def assign (q : Fifo) (frame : Nat) : Except Panic Fifo :=
  if q.queue.contains frame then .error .assertion else .ok ⟨q.queue ++ [frame]⟩

/-- A frame was freed and is no longer a candidate. -/
def release (q : Fifo) (frame : Nat) : Fifo := ⟨q.queue.filter (· ≠ frame)⟩

/-- Takes the oldest frame that may be evicted out of the order. -/
def selectVictim (q : Fifo) (evictable : Nat → Bool) : Option Nat × Fifo :=
  match q.queue.find? evictable with
  | none => (none, q)
  | some frame => (some frame, ⟨q.queue.erase frame⟩)

end Fifo

end DemandPaging
