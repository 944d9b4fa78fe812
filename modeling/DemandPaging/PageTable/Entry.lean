import DemandPaging.Address.Basic
import DemandPaging.Word.Field

/-!
# Entries of the two-level page table

A directory entry names a table, a table entry names a frame, and both carry flags in their low
bits. They are kept as the 32-bit words the hardware defines: bits that have no name here survive
every write. A virtual address is split into two ten-bit indices and a twelve-bit offset.

## Main definitions

* `DirectoryEntry`, `TableEntry` — the two kinds of words, with a reader and a writer per field.
* `VirtualAddress`, `VirtualAddress.ofNat` — an address that fits the tables.
-/

namespace DemandPaging

open Word

/-- A word of the page directory. -/
structure DirectoryEntry where
  raw : BitVec 32
  deriving DecidableEq, Repr

namespace DirectoryEntry

/-- The entry without flags and without a table. -/
def empty : DirectoryEntry := ⟨0⟩

def present (e : DirectoryEntry) : Bool := flag e.raw 0
def writable (e : DirectoryEntry) : Bool := flag e.raw 1
def user (e : DirectoryEntry) : Bool := flag e.raw 2
def writeThrough (e : DirectoryEntry) : Bool := flag e.raw 3
def cacheDisabled (e : DirectoryEntry) : Bool := flag e.raw 4
def accessed (e : DirectoryEntry) : Bool := flag e.raw 5
def largePage (e : DirectoryEntry) : Bool := flag e.raw 7

/-- The twenty bits that name the table. -/
def table (e : DirectoryEntry) : BitVec 20 := field e.raw 12 20

def withPresent (e : DirectoryEntry) (b : Bool) : DirectoryEntry := ⟨setFlag e.raw 0 b⟩
def withWritable (e : DirectoryEntry) (b : Bool) : DirectoryEntry := ⟨setFlag e.raw 1 b⟩
def withUser (e : DirectoryEntry) (b : Bool) : DirectoryEntry := ⟨setFlag e.raw 2 b⟩
def withWriteThrough (e : DirectoryEntry) (b : Bool) : DirectoryEntry := ⟨setFlag e.raw 3 b⟩
def withCacheDisabled (e : DirectoryEntry) (b : Bool) : DirectoryEntry := ⟨setFlag e.raw 4 b⟩
def withAccessed (e : DirectoryEntry) (b : Bool) : DirectoryEntry := ⟨setFlag e.raw 5 b⟩
def withLargePage (e : DirectoryEntry) (b : Bool) : DirectoryEntry := ⟨setFlag e.raw 7 b⟩
def withTable (e : DirectoryEntry) (t : BitVec 20) : DirectoryEntry := ⟨setField e.raw 12 t⟩

/-- The entry for a user table with the given index; access rights are left to the table's own
entries. -/
def toTable (t : BitVec 20) : DirectoryEntry :=
  (((empty.withPresent true).withWritable true).withUser true).withTable t

@[simp] theorem present_empty : empty.present = false := rfl

@[simp] theorem present_toTable (t : BitVec 20) : (toTable t).present = true := by
  unfold toTable withTable present
  rw [flag_setField_of_lt (by decide)]
  rfl

@[simp] theorem table_toTable (t : BitVec 20) : (toTable t).table = t :=
  field_setField_self (by decide)

end DirectoryEntry

/-- A word of a page table. -/
structure TableEntry where
  raw : BitVec 32
  deriving DecidableEq, Repr

namespace TableEntry

/-- The entry without flags and without a frame. -/
def empty : TableEntry := ⟨0⟩

def present (e : TableEntry) : Bool := flag e.raw 0
def writable (e : TableEntry) : Bool := flag e.raw 1
def user (e : TableEntry) : Bool := flag e.raw 2
def writeThrough (e : TableEntry) : Bool := flag e.raw 3
def cacheDisabled (e : TableEntry) : Bool := flag e.raw 4
def accessed (e : TableEntry) : Bool := flag e.raw 5
def dirty (e : TableEntry) : Bool := flag e.raw 6
def attributeTable (e : TableEntry) : Bool := flag e.raw 7
def isGlobal (e : TableEntry) : Bool := flag e.raw 8

/-- The twenty bits that name the physical page. -/
def frame (e : TableEntry) : BitVec 20 := field e.raw 12 20

def withPresent (e : TableEntry) (b : Bool) : TableEntry := ⟨setFlag e.raw 0 b⟩
def withWritable (e : TableEntry) (b : Bool) : TableEntry := ⟨setFlag e.raw 1 b⟩
def withUser (e : TableEntry) (b : Bool) : TableEntry := ⟨setFlag e.raw 2 b⟩
def withWriteThrough (e : TableEntry) (b : Bool) : TableEntry := ⟨setFlag e.raw 3 b⟩
def withCacheDisabled (e : TableEntry) (b : Bool) : TableEntry := ⟨setFlag e.raw 4 b⟩
def withAccessed (e : TableEntry) (b : Bool) : TableEntry := ⟨setFlag e.raw 5 b⟩
def withDirty (e : TableEntry) (b : Bool) : TableEntry := ⟨setFlag e.raw 6 b⟩
def withAttributeTable (e : TableEntry) (b : Bool) : TableEntry := ⟨setFlag e.raw 7 b⟩
def withGlobal (e : TableEntry) (b : Bool) : TableEntry := ⟨setFlag e.raw 8 b⟩
def withFrame (e : TableEntry) (f : BitVec 20) : TableEntry := ⟨setField e.raw 12 f⟩

/-- The entry that maps to physical page number `f` with the given rights. -/
def toFrame (f : BitVec 20) (writable user : Bool) : TableEntry :=
  (((empty.withPresent true).withWritable writable).withUser user).withFrame f

@[simp] theorem present_empty : empty.present = false := rfl

@[simp] theorem present_toFrame (f : BitVec 20) (w u : Bool) : (toFrame f w u).present = true := by
  unfold toFrame withFrame present
  rw [flag_setField_of_lt (by decide)]
  cases w <;> cases u <;> rfl

@[simp] theorem writable_toFrame (f : BitVec 20) (w u : Bool) : (toFrame f w u).writable = w := by
  unfold toFrame withFrame writable
  rw [flag_setField_of_lt (by decide)]
  cases w <;> cases u <;> rfl

@[simp] theorem frame_toFrame (f : BitVec 20) (w u : Bool) : (toFrame f w u).frame = f :=
  field_setField_self (by decide)

end TableEntry

/-- A virtual address as the tables index it. -/
structure VirtualAddress where
  raw : BitVec 32
  deriving DecidableEq, Repr

namespace VirtualAddress

/-- The tables cover the first four gigabytes; an address past them is a bug in the caller. -/
def ofNat (addr : Nat) : Except Panic VirtualAddress :=
  if addr < Nat.pow 2 32 then .ok ⟨BitVec.ofNat 32 addr⟩ else .error (.virtualTooWide addr)

/-- The index into the directory: the upper ten bits. -/
def directoryIndex (v : VirtualAddress) : BitVec 10 := field v.raw 22 10

/-- The index into the table: the middle ten bits. -/
def tableIndex (v : VirtualAddress) : BitVec 10 := field v.raw 12 10

/-- The offset within the page: the lower twelve bits. -/
def offset (v : VirtualAddress) : BitVec 12 := field v.raw 0 12

end VirtualAddress

end DemandPaging
