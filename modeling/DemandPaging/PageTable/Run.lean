import DemandPaging.PageTable.Flat

/-!
# Requests to a page table

The requests to a page table as values, answered once by the page table and once by the flat page
map. The page table may panic; the flat map never does.

## Main definitions

* `PageTable.Request`, `PageTable.Answer` — the requests and what they answer.
* `PageTable.serve`, `PageTable.run` — one request and a list of requests to a page table.
* `FlatPages.serve`, `FlatPages.run` — the same requests to a flat page map.
-/

namespace DemandPaging

namespace PageTable

/-- The requests to a page table. -/
inductive Request
  | map (phys addr : Nat) (writable user : Bool)
  | unmap (addr : Nat)
  | translate (addr : Nat)
  | isWritable (addr : Nat)
  | mappedPages
  deriving DecidableEq, Repr

/-- What a request answers. -/
inductive Answer
  /-- The request has nothing to say. -/
  | done
  | yesNo (b : Bool)
  | address (phys : Option Nat)
  | count (pages : Nat)
  deriving DecidableEq, Repr

/-- Carries out one request. -/
def serve (t : PageTable) : Request → Except Panic (Answer × PageTable)
  | .map phys addr writable user => do
    let (mapped, t) ← t.map phys addr writable user
    return (.yesNo mapped, t)
  | .unmap addr => return (.done, ← t.unmap addr)
  | .translate addr => return (.address (← t.translate addr), t)
  | .isWritable addr => return (.yesNo (← t.isWritable addr), t)
  | .mappedPages => return (.count t.mapped, t)

/-- Carries out the requests in turn and collects the answers. A panic ends the run. -/
def run : List Request → PageTable → Except Panic (List Answer × PageTable)
  | [], t => .ok ([], t)
  | request :: rest, t => do
    let (answer, t) ← t.serve request
    let (answers, t) ← run rest t
    return (answer :: answers, t)

end PageTable

namespace FlatPages

open PageTable (Request Answer)

/-- Carries out one request. -/
def serve (m : FlatPages) : Request → Answer × FlatPages
  | .map phys addr writable _ =>
    let (mapped, m) := m.map phys addr writable
    (.yesNo mapped, m)
  | .unmap addr => (.done, m.unmap addr)
  | .translate addr => (.address (m.translate addr), m)
  | .isWritable addr => (.yesNo (m.isWritable addr), m)
  | .mappedPages => (.count m.mapped, m)

/-- Carries out the requests in turn and collects the answers. -/
def run : List Request → FlatPages → List Answer × FlatPages
  | [], m => ([], m)
  | request :: rest, m =>
    let (answer, m) := m.serve request
    let (answers, m) := run rest m
    (answer :: answers, m)

end FlatPages

end DemandPaging
