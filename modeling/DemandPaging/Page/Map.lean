import DemandPaging.Page.Source
import Std.Data.ExtTreeMap

/-!
# The page map of a process

The page map records every declared page of a process: its source, whether it may be written, and
where its contents are right now. It is keyed by page address, and its order by address is the
order in which the pages are listed.

A page is declared once. Declaring a page at an address that is not a page boundary, or an image
page that reads more than a page, is a bug in the caller.

## Main definitions

* `Residency`, `PageEntry`, `PageMap` — the records.
* `PageMap.tryDeclare`, `PageMap.declare`, `PageMap.lookupOrDeclare` — adding a page.
* `PageMap.lookup`, `PageMap.remove`, `PageMap.takeAll` — finding and detaching pages.
-/

namespace DemandPaging

/-- Where the contents of a page are. -/
inductive Residency
  /-- Never faulted in; the contents are still only in the source. -/
  | notPopulated
  /-- In a frame. -/
  | resident (frame : Nat)
  /-- In a swap slot. -/
  | swapped (slot : Nat)
  deriving DecidableEq, Repr

/-- A declared page. -/
structure PageEntry where
  source : PageSource
  writable : Bool
  residency : Residency

namespace PageEntry

/-- A page that has just been declared. -/
def fresh (source : PageSource) (writable : Bool) : PageEntry := ⟨source, writable, .notPopulated⟩

/-- Whether the page has been faulted in at some time. -/
def populated (e : PageEntry) : Bool := e.residency ≠ .notPopulated

/-- The frame of a resident page. -/
def frame? (e : PageEntry) : Option Nat :=
  match e.residency with
  | .resident frame => some frame
  | _ => none

/-- The slot of a page in swap. -/
def slot? (e : PageEntry) : Option Nat :=
  match e.residency with
  | .swapped slot => some slot
  | _ => none

end PageEntry

/-- The declared pages of one process, by page address. -/
structure PageMap where
  entries : Std.ExtTreeMap Nat PageEntry

namespace PageMap

/-- No page is declared. -/
def empty : PageMap := ⟨∅⟩

/-- The number of declared pages. -/
def size (m : PageMap) : Nat := m.entries.size

/-- The page that covers `addr`. -/
def lookup (m : PageMap) (addr : Nat) : Option PageEntry := m.entries[pageFloor addr]?

/-- Records what is known of the page that covers `addr`. Every key is a page address. -/
def set (m : PageMap) (addr : Nat) (e : PageEntry) : PageMap :=
  ⟨m.entries.insert (pageFloor addr) e⟩

/-- Fails unless a page with this source may be declared at `page`. -/
def checkDeclaration (page : Nat) (source : PageSource) : Except Panic Unit :=
  if pageOffset page ≠ 0 then .error (.declaringUnaligned page)
  else match source with
    | .image _ _ read => if read ≤ pageSize then .ok () else .error .assertion
    | _ => .ok ()

/-- Adds a page unless its address is covered already, and answers whether it did. -/
def tryDeclare (m : PageMap) (page : Nat) (source : PageSource) (writable : Bool) :
    Except Panic (Bool × PageMap) := do
  checkDeclaration page source
  if m.entries.contains page then return (false, m)
  return (true, m.set page (.fresh source writable))

/-- Adds a page. Declaring a page twice is a bug in the caller. -/
def declare (m : PageMap) (page : Nat) (source : PageSource) (writable : Bool) :
    Except Panic PageMap := do
  let (added, m) ← m.tryDeclare page source writable
  unless added do throw (.pageDeclaredTwice page)
  return m

/-- The page that covers `addr`. If there is none, `offer` may supply one. -/
def lookupOrDeclare (m : PageMap) (addr : Nat) (offer : Option (PageSource × Bool)) :
    Option PageEntry × PageMap :=
  match m.lookup addr, offer with
  | some e, _ => (some e, m)
  | none, none => (none, m)
  | none, some (source, writable) =>
    let e := PageEntry.fresh source writable
    (some e, m.set addr e)

/-- Detaches the page that covers `addr`. What it holds is the caller's to give back. -/
def remove (m : PageMap) (addr : Nat) : Option PageEntry × PageMap :=
  (m.lookup addr, ⟨m.entries.erase (pageFloor addr)⟩)

/-- Every page with its address, in address order. -/
def toList (m : PageMap) : List (Nat × PageEntry) := m.entries.toList

/-- Detaches every page, in address order. -/
def takeAll (m : PageMap) : List (Nat × PageEntry) × PageMap := (m.toList, empty)

end PageMap

end DemandPaging
