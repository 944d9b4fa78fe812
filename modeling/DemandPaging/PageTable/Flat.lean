import DemandPaging.PageTable.Basic
import Std.Data.ExtTreeMap

/-!
# The flat page map

What a page table amounts to when its two levels are forgotten: a finite map from page numbers to
a physical page number and a right to write. The operations are the ones of the page table with
the panics left out, and the number of mapped pages is the size of the map.

## Main definitions

* `FlatPages` — page number to physical page number and writability.
* `FlatPages.map`, `FlatPages.unmap`, `FlatPages.translate`, `FlatPages.isWritable` — the same
  operations as on `PageTable`.
-/

namespace DemandPaging

/-- A finite map from page numbers to physical page numbers with a right to write. -/
structure FlatPages where
  pages : Std.ExtTreeMap Nat (Nat × Bool)

namespace FlatPages

/-- The map without pages. -/
def empty : FlatPages := ⟨∅⟩

/-- Maps the page of `addr` unless it is mapped, and answers whether it did. -/
def map (m : FlatPages) (phys addr : Nat) (writable : Bool) : Bool × FlatPages :=
  if m.pages.contains (addr / pageSize) then (false, m)
  else (true, ⟨m.pages.insert (addr / pageSize) (phys / pageSize, writable)⟩)

/-- Forgets the page of `addr`. -/
def unmap (m : FlatPages) (addr : Nat) : FlatPages := ⟨m.pages.erase (addr / pageSize)⟩

/-- The physical address that `addr` translates to. -/
def translate (m : FlatPages) (addr : Nat) : Option Nat :=
  m.pages[addr / pageSize]?.map fun page => page.1 * pageSize + pageOffset addr

/-- Whether `addr` is mapped for writing. -/
def isWritable (m : FlatPages) (addr : Nat) : Bool :=
  m.pages[addr / pageSize]?.any Prod.snd

/-- The number of pages mapped. -/
def mapped (m : FlatPages) : Nat := m.pages.size

end FlatPages

end DemandPaging
