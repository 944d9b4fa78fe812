import DemandPaging.Swap.Basic

/-!
# Requests to the swap area

The area is used through four calls: a slot is taken or given back, and the page of a slot is
written or read. Here each call is a value, and a run of them leaves a *history*, the calls with
what they answered, so that statements can speak of what was written last and of who holds what
without looking at the device.

## Main definitions

* `Swap.Request`, `Swap.Answer`, `Swap.Event` — the calls, their answers, and both together.
* `Swap.serve` — one call.
* `Swap.run` — a list of calls, up to the first panic.
-/

namespace DemandPaging

namespace Swap

/-- The calls to the area. A buffer that is handed over has the length of a page. -/
inductive Request
  | allocate
  | release (slot : Nat)
  | write (slot : Nat) (page : Page)
  | read (slot : Nat)

/-- What a call answers. -/
inductive Answer
  /-- The call has nothing to say. -/
  | done
  | slot (slot : Nat)
  | page (page : Page)

/-- A call that was made. -/
structure Event where
  request : Request
  answer : Answer

/-- Carries out one call. -/
def serve (s : Swap) : Request → Except Panic (Answer × Swap)
  | .allocate => do
    let (slot, s) ← s.allocate
    return (.slot slot, s)
  | .release slot => return (.done, ← s.release slot)
  | .write slot page => return (.done, ← s.write slot page.toArray)
  | .read slot => do
    let (page, s) ← s.read slot pageSize
    return (.page page, s)

/-- Carries out the calls in turn and keeps what happened. A panic ends the run. -/
def run : List Request → Swap → Except Panic (List Event × Swap)
  | [], s => .ok ([], s)
  | request :: rest, s => do
    let (answer, s) ← s.serve request
    let (history, s) ← run rest s
    return (⟨request, answer⟩ :: history, s)

end Swap

end DemandPaging
