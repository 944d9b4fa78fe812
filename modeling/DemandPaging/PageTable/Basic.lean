import DemandPaging.PageTable.Entry

/-!
# The two-level page table of an address space

The directory has 1024 entries, each of which may name one of the tables the page table owns; a
table has 1024 entries, each of which may name a physical page. A table is made the first time a
page of its four megabytes is mapped and is kept from then on.

The number of mapped pages is counted along, so reading it does not walk the tables.

## Main definitions

* `PageTable` — directory, tables and count.
* `PageTable.map`, `PageTable.unmap` — install and remove the translation of one page.
* `PageTable.translate`, `PageTable.isWritable` — what an address translates to.
-/

namespace DemandPaging

/-- One table: 1024 entries. -/
abbrev EntryTable := Vector TableEntry 1024

/-- The translations of one address space. -/
structure PageTable where
  directory : Vector DirectoryEntry 1024
  /-- The tables made so far; a directory entry names a table by its place here. -/
  tables : Array EntryTable
  /-- The number of pages mapped. -/
  mapped : Nat

namespace PageTable

/-- The page table without translations. -/
def empty : PageTable where
  directory := Vector.replicate 1024 DirectoryEntry.empty
  tables := #[]
  mapped := 0

/-- The place of an address in the tables: its table and its index there, if its table exists. -/
def locate (t : PageTable) (v : VirtualAddress) : Except Panic (Option (EntryTable × Nat)) :=
  let e := t.directory.get v.directoryIndex.toFin
  if e.present then
    match t.tables[e.table.toNat]? with
    | some table => .ok (some (table, e.table.toNat))
    | none => .error .bounds
  else .ok none

/-- The present entry that covers `addr`, if there is one. -/
def entry? (t : PageTable) (addr : Nat) : Except Panic (Option TableEntry) := do
  let v ← VirtualAddress.ofNat addr
  match ← t.locate v with
  | none => return none
  | some (table, _) =>
    let e := table.get v.tableIndex.toFin
    return if e.present then some e else none

/-- The page table with a fresh table for the directory slot of `v`, unless it has one. -/
def extend (t : PageTable) (v : VirtualAddress) : Except Panic PageTable :=
  if (t.directory.get v.directoryIndex.toFin).present then .ok t
  else if t.tables.size < Nat.pow 2 20 then
    .ok { t with
      directory := t.directory.set v.directoryIndex.toNat
        (.toTable (BitVec.ofNat 20 t.tables.size)) v.directoryIndex.isLt
      tables := t.tables.push (Vector.replicate 1024 TableEntry.empty) }
  else .error .assertion

/-- Writes entry `i` of table `index`. -/
def setEntry (t : PageTable) (index : Nat) (i : Fin 1024) (e : TableEntry) : PageTable :=
  { t with tables := t.tables.modify index fun table => table.set i e }

/-- Maps the page of `addr` to the physical page at `phys`. Answers whether it did: a page that
is mapped already keeps its translation. -/
def map (t : PageTable) (phys addr : Nat) (writable user : Bool) :
    Except Panic (Bool × PageTable) := do
  unless pageOffset phys = 0 do throw .assertion
  unless phys < Nat.pow 2 32 do throw (.physicalTooWide phys)
  let v ← VirtualAddress.ofNat addr
  let t ← t.extend v
  match ← t.locate v with
  | none => throw .bounds
  | some (table, index) =>
    if (table.get v.tableIndex.toFin).present then return (false, t)
    let e := TableEntry.toFrame (BitVec.ofNat 20 (phys / pageSize)) writable user
    return (true, { t.setEntry index v.tableIndex.toFin e with mapped := t.mapped + 1 })

/-- Removes the translation of the page of `addr`, if it has one. -/
def unmap (t : PageTable) (addr : Nat) : Except Panic PageTable := do
  let v ← VirtualAddress.ofNat addr
  match ← t.locate v with
  | none => return t
  | some (table, index) =>
    if (table.get v.tableIndex.toFin).present then
      let mapped ← checkedSub t.mapped 1
      return { t.setEntry index v.tableIndex.toFin TableEntry.empty with mapped }
    else return t

/-- The physical address that `addr` translates to. -/
def translate (t : PageTable) (addr : Nat) : Except Panic (Option Nat) := do
  let e ← t.entry? addr
  return e.map fun e => e.frame.toNat * pageSize + pageOffset addr

/-- Whether `addr` is mapped for writing. -/
def isWritable (t : PageTable) (addr : Nat) : Except Panic Bool := do
  let e ← t.entry? addr
  return e.any TableEntry.writable

end PageTable

end DemandPaging
