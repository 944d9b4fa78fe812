import DemandPaging.Frame.Pool

/-!
# Requests to the frame pool

The pool is used through six calls: a frame is taken or given back, a victim is picked and handed
on, and pins are put on a frame and taken off. Here each call is a value, and a run of them leaves a
*history*, the calls with what they answered, so that statements can speak of what became of a frame
since it was handed out without looking at the core map.

## Main definitions

* `FramePool.Request`, `FramePool.Answer`, `FramePool.Event` — the calls, their answers, and both
  together.
* `FramePool.serve` — one call.
* `FramePool.run` — a list of calls, up to the first panic.
-/

namespace DemandPaging

namespace FramePool

/-- The calls to the pool. -/
inductive Request
  /-- Takes a free frame for `owner`. -/
  | allocate (owner : FrameOwner)
  /-- Picks a frame to evict. -/
  | victim
  /-- Hands a frame to its new owner. -/
  | reassign (frame : Nat) (owner : FrameOwner)
  | release (frame : Nat)
  | pin (frame : Nat)
  | unpin (frame : Nat)
  deriving DecidableEq, Repr

/-- What a call answers. -/
inductive Answer
  /-- The call has nothing to say. -/
  | done
  /-- The frame that was looked for, if there is one. -/
  | frame (found : Option Nat)
  deriving DecidableEq, Repr

/-- A call that was made. -/
structure Event where
  request : Request
  answer : Answer
  deriving DecidableEq, Repr

/-- Carries out one call. -/
def serve (p : FramePool) : Request → Except Panic (Answer × FramePool)
  | .allocate owner => do
    let (found, p) ← p.tryAllocate owner
    return (.frame found, p)
  | .victim =>
    let (found, p) := p.selectVictim
    return (.frame found, p)
  | .reassign frame owner => return (.done, ← p.reassign frame owner)
  | .release frame => return (.done, ← p.release frame)
  | .pin frame => return (.done, ← p.pin frame)
  | .unpin frame => return (.done, ← p.unpin frame)

/-- Carries out the calls in turn and keeps what happened. A panic ends the run. -/
def run : List Request → FramePool → Except Panic (List Event × FramePool)
  | [], p => .ok ([], p)
  | request :: rest, p => do
    let (answer, p) ← p.serve request
    let (history, p) ← run rest p
    return (⟨request, answer⟩ :: history, p)

end FramePool

end DemandPaging
