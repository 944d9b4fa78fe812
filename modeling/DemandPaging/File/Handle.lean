import DemandPaging.File.Basic

/-!
# Handles

Every opening of a file is a handle, and the handles of one file share its contents and its
faults. Two views of this are needed. A `Handle` names one opening, so that the pager can carry it
about and tell two openings apart; an `OpenFile` is one file together with its live handles, which
can be read, reopened and closed.

## Main definitions

* `Handle` — one opening of one file.
* `OpenFile` — a file and its live handles.
-/

namespace DemandPaging

/-- One opening of a file. -/
structure Handle where
  /-- The number of the file, shared by all its handles. -/
  id : Nat
  /-- Which opening this is: zero for the one its owner holds outside the pager. -/
  serial : Nat
  /-- What the file holds. -/
  file : File

namespace Handle

/-- Whether two handles are the same opening of the same file. -/
def sameOpening (a b : Handle) : Bool := a.id == b.id && a.serial == b.serial

end Handle

/-- A file and its live handles. The owner keeps handle number zero for as long as the file is in
use; the others are numbered in the order in which they were opened. -/
structure OpenFile where
  file : File
  /-- Whether reads through any handle fail. -/
  failing : Bool
  /-- The live handles besides the owner's. -/
  reopened : List Nat
  /-- The number that the next handle gets. -/
  next : Nat

namespace OpenFile

/-- A file that only its owner has open. -/
def ofFile (file : File) : OpenFile := ⟨file, false, [], 1⟩

/-- What a read through a handle sees now. -/
def view (f : OpenFile) : File := if f.failing then f.file.broken else f.file

/-- The number of live handles. -/
def openHandles (f : OpenFile) : Nat := 1 + f.reopened.length

/-- Makes every later read fail, or work again. -/
def failReads (f : OpenFile) (failing : Bool) : OpenFile := { f with failing }

/-- Opens the file once more. -/
def reopen (f : OpenFile) : Except FileError (Nat × OpenFile) :=
  if f.file.reopens then
    .ok (f.next, { f with reopened := f.reopened ++ [f.next], next := f.next + 1 })
  else .error .reopen

/-- Closes a handle. -/
def close (f : OpenFile) (handle : Nat) : OpenFile :=
  { f with reopened := f.reopened.filter (· ≠ handle) }

end OpenFile

end DemandPaging
