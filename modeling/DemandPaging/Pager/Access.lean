import DemandPaging.Pager.Interrupt
import DemandPaging.Pager.Query

/-!
# A user access and its retries

What the processor does with an access of a user program: it succeeds if the page is mapped with
the rights it needs, and otherwise traps; when the handler returns, the access is tried again
unless the process was killed.

## Main definitions

* `Pager.permits` — whether the tables let an access through.
* `Pager.trapCode` — the error code of the trap.
* `AccessEnd`, `Pager.access` — the access with its retries.
-/

namespace DemandPaging

/-- How an access ends. -/
inductive AccessEnd
  | completed
  | killed (status : Int)
  /-- The access has not ended within the retries it was given. -/
  | unfinished
  deriving DecidableEq, Repr

namespace Pager

open PagerM

/-- Whether the tables of `pid` let an access to `addr` through. -/
def permits (p : Pager) (pid addr : Nat) (write : Bool) : Except Panic Bool := do
  let translated ← p.translate pid addr
  let writable ← p.isMappedWritable pid addr
  return translated.isSome && (!write || writable)

/-- The error code of a user access that traps: the present bit is set exactly when the page is
mapped. -/
def trapCode (p : Pager) (pid addr : Nat) (write : Bool) : Except Panic FaultCode := do
  let translated ← p.translate pid addr
  return ⟨BitVec.ofNat 32 (translated.isSome.toNat + 2 * write.toNat + 4)⟩

/-- An access of a user program, with at most `retries` traps. Answers how it ended and how often
the handler ran. -/
def access (pid addr esp : Nat) (write : Bool) : (retries : Nat) → PagerM (AccessEnd × Nat)
  | 0 => do
    if ← (← pager).permits pid addr write then return (.completed, 0)
    return (.unfinished, 0)
  | retries + 1 => do
    if ← (← pager).permits pid addr write then return (.completed, 0)
    let outcome ← handlePageFault pid addr esp (← (← pager).trapCode pid addr write)
    match outcome.killed with
    | some status => return (.killed status, 1)
    | none =>
      let (ending, calls) ← access pid addr esp write retries
      return (ending, calls + 1)

end Pager

end DemandPaging
