import DemandPaging.Address.Run
import DemandPaging.File.Handle
import Std.Data.ExtTreeMap

/-!
# File mappings of a process

A mapping covers a whole file from a page boundary on, through a handle of its own. Mappings are
numbered from zero as they are made and no number is used again. The number is a 32-bit word, and
a process that exhausts it has met a panic.

## Main definitions

* `Mapping`, `Mapping.pages` — one mapping and the pages it covers.
* `MappingTable` — the live mappings of a process.
-/

namespace DemandPaging

/-- A mapping of a file. -/
structure Mapping where
  id : Nat
  /-- The mapping's own opening of the file. -/
  file : Handle
  /-- The first address. -/
  base : Nat
  /-- The length of the file when it was mapped. -/
  length : Nat

/-- The pages a mapping covers. -/
def Mapping.pages (m : Mapping) : PageRun := .spanning m.base m.length

/-- The live mappings of a process, by number. -/
structure MappingTable where
  live : Std.ExtTreeMap Nat Mapping
  /-- The number of the next mapping. -/
  nextId : Nat

namespace MappingTable

/-- No mapping has been made. -/
def empty : MappingTable := ⟨∅, 0⟩

/-- The number of live mappings. -/
def size (t : MappingTable) : Nat := t.live.size

/-- Adds the mapping that was given the next number. -/
def insert (t : MappingTable) (m : Mapping) : Except Panic MappingTable := do
  unless m.id = t.nextId do throw .assertion
  let nextId ← checkedAdd 32 t.nextId 1
  return { live := t.live.insert m.id m, nextId }

/-- Detaches a mapping. -/
def remove (t : MappingTable) (id : Nat) : Option Mapping × MappingTable :=
  (t.live[id]?, { t with live := t.live.erase id })

/-- Detaches every mapping, in the order of their numbers. -/
def takeAll (t : MappingTable) : List Mapping × MappingTable :=
  (t.live.values, { t with live := ∅ })

end MappingTable

end DemandPaging
