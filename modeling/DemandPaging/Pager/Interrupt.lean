import DemandPaging.Pager.Fault

/-!
# The page-fault interrupt

The interrupt handler either resolves the fault, and the access is tried again, or kills the
process. A protection violation is never resolved. Faults that the kernel takes on user memory
during a system call arrive here too, which is why the stack pointer is the saved user one.

## Main definitions

* `killedStatus` — the exit status of a process the handler kills.
* `Pager.handlePageFault` — the handler.
-/

namespace DemandPaging

/-- The exit status of a process that the kernel terminates. -/
def killedStatus : Int := -1

/-- What the handler did: whether the access can be tried again, and the exit status if the
process was killed. -/
structure FaultOutcome where
  handled : Bool
  killed : Option Int
  deriving DecidableEq, Repr

namespace FaultOutcome

/-- The access can be tried again. -/
def retry : FaultOutcome := ⟨true, none⟩

/-- The process was killed. -/
def kill : FaultOutcome := ⟨false, some killedStatus⟩

end FaultOutcome

open PagerM in
/-- Handles a page fault of `pid` at `addr` with the given error code. -/
def Pager.handlePageFault (pid addr esp : Nat) (code : FaultCode) : PagerM FaultOutcome := do
  emit (.trapped pid addr code)
  if code.present then
    emit (.protectionViolation pid addr)
    return .kill
  match ← pageFault pid addr esp with
  | .ok () => return .retry
  | .error e =>
    emit (.unresolved pid addr e)
    return .kill

end DemandPaging
