import DemandPaging.Word.Field

/-!
# The error code of a page fault

The processor pushes a word that says what kind of access faulted and why.

## Main definitions

* `FaultCode` — the word, with the three bits the pager reads.
-/

namespace DemandPaging

/-- The error code that the processor pushes for a page fault. -/
structure FaultCode where
  raw : BitVec 32
  deriving DecidableEq, Repr

namespace FaultCode

/-- A protection violation rather than a page that is not present. -/
def present (c : FaultCode) : Bool := Word.flag c.raw 0

/-- A write rather than a read. -/
def write (c : FaultCode) : Bool := Word.flag c.raw 1

/-- An access from user mode rather than from the kernel. -/
def user (c : FaultCode) : Bool := Word.flag c.raw 2

/-- The code in words. -/
def describe (c : FaultCode) : String :=
  let kind := if c.present then "rights violation" else "not present"
  let access := if c.write then "writing" else "reading"
  let mode := if c.user then "user" else "kernel"
  s!"{kind} {access} from {mode} mode"

end FaultCode

end DemandPaging
