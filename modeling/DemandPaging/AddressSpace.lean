import DemandPaging.PageTable.Basic

/-!
# The address space of a process

What the pager needs from the hardware side of a process: installing, querying and removing the
translation of single user pages. The tables may refuse to install a page at any time, which the
pager has to take as an ordinary failure. Which requests are refused is not for the pager to
foresee, so an address space carries a plan that answers each of its coming requests.

## Main definitions

* `AddressSpace` — page table and the plan of refusals.
* `AddressSpace.plan` — a new plan of refusals.
* `AddressSpace.setPage`, `AddressSpace.clearPage` — install and remove a user page.
* `AddressSpace.getPage`, `AddressSpace.isWritable` — what is installed.
-/

namespace DemandPaging

/-- The hardware side of a process. -/
structure AddressSpace where
  table : PageTable
  /-- Which requests to install a page are refused, by their number under this plan. -/
  refuses : Nat → Bool
  /-- The number of requests to install a page under this plan so far. -/
  requests : Nat

namespace AddressSpace

/-- An address space without pages. -/
def empty : AddressSpace := ⟨PageTable.empty, fun _ => false, 0⟩

/-- Starts a new plan of refusals. -/
def plan (s : AddressSpace) (refuses : Nat → Bool) : AddressSpace :=
  { s with refuses, requests := 0 }

/-- Maps the user page at `page` to the frame at `phys`, and answers whether it did. -/
def setPage (s : AddressSpace) (page phys : Nat) (writable : Bool) :
    Except Panic (Bool × AddressSpace) := do
  let requests := s.requests + 1
  if s.refuses s.requests then return (false, { s with requests })
  unless pageFloor page = page do throw .assertion
  let (mapped, table) ← s.table.map phys page writable true
  return (mapped, { s with table, requests })

/-- The physical address that `addr` translates to. -/
def getPage (s : AddressSpace) (addr : Nat) : Except Panic (Option Nat) := s.table.translate addr

/-- Whether the mapping of `addr` lets the user write. -/
def isWritable (s : AddressSpace) (addr : Nat) : Except Panic Bool := s.table.isWritable addr

/-- Removes the translation of the page of `addr`. -/
def clearPage (s : AddressSpace) (addr : Nat) : Except Panic AddressSpace := do
  return { s with table := ← s.table.unmap addr }

end AddressSpace

end DemandPaging
