import DemandPaging.Pager.Basic

/-!
# Bringing the pager up

There is one pager in the system. It is started once during boot and is there from then on:
starting it again is a bug, and so is asking for it before it has been started.

## Main definitions

* `Boot`, `Boot.start`, `Boot.pager` — the place of the one pager.
-/

namespace DemandPaging

/-- The one pager, once it has been started. -/
structure Boot where
  started : Option Traced

namespace Boot

/-- The system before boot. -/
def off : Boot := ⟨none⟩

/-- Starts the pager on a swap device. A pager that cannot be built is noticed before one that is
there already. -/
def start (s : Boot) (config : Config) (device : Block) : Except Panic Boot := do
  let traced ← Traced.boot config device
  match s.started with
  | some _ => .error .startedTwice
  | none => .ok ⟨some traced⟩

/-- The pager. -/
def pager (s : Boot) : Except Panic Traced :=
  match s.started with
  | some p => .ok p
  | none => .error .notStarted

end Boot

end DemandPaging
