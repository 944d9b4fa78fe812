import DemandPaging.Block.Basic

/-!
# Runs of transfers

A run of transfers on one device leaves a *history*, the transfers with their replies, so that
statements can speak of what was written last and of how many transfers went through without looking
at the device.

## Main definitions

* `Block.Event` — a transfer that was answered.
* `Block.run` — a list of transfers, up to the first panic.
-/

namespace DemandPaging

namespace Block

/-- A transfer that was answered. -/
structure Event where
  request : Request
  reply : Reply

/-- Carries out the transfers in turn and keeps what happened. A panic ends the run. -/
def run : List Request → Block → Except Panic (List Event × Block)
  | [], b => .ok ([], b)
  | request :: rest, b => do
    let (reply, b) ← b.serve request
    let (history, b) ← run rest b
    return (⟨request, reply⟩ :: history, b)

end Block

end DemandPaging
