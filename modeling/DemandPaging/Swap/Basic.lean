import DemandPaging.Block.Basic

/-!
# The swap area

The swap area carves a block device into page-sized slots of eight consecutive sectors. Slots are
handed out first fit. Running out of them is fatal, since the page being evicted has nowhere else
to go, and so is any error of the device.

## Main definitions

* `Swap`, `Swap.ofBlock` — the area on a device, with at most a given number of slots.
* `Swap.allocate`, `Swap.release` — the slot table.
* `Swap.store`, `Swap.fetch` — transfer of a page whose slot is known to be in use.
* `Swap.write`, `Swap.read` — the same from a buffer of any length, with every check.
-/

namespace DemandPaging

/-- The swap area. -/
structure Swap where
  device : Block
  /-- The number of slots. -/
  slots : Nat
  /-- Which slots are taken. The table reaches as far as the last slot that was ever taken; the
  slots behind it are free. -/
  taken : Array Bool
  /-- The number of slots not taken. -/
  free : Nat

namespace Swap

/-- A fresh area on `device`, with at most `maxSlots` slots. -/
def ofBlock (device : Block) (maxSlots : Nat) : Swap :=
  let slots := min (device.size / sectorsPerPage) maxSlots
  { device, slots, taken := #[], free := slots }

/-- Whether a slot is taken; a slot the area does not have is not. -/
def isInUse (s : Swap) (slot : Nat) : Bool := s.taken[slot]?.getD false

/-- The first free slot. -/
def firstFree? (s : Swap) : Option Nat :=
  match s.taken.findIdx? (! ·) with
  | some slot => some slot
  | none => if s.taken.size < s.slots then some s.taken.size else none

/-- The table with `slot` taken, which is in the table or next behind it. -/
def take (s : Swap) (slot : Nat) : Array Bool :=
  if slot < s.taken.size then s.taken.setIfInBounds slot true else s.taken.push true

/-- Takes the first free slot. -/
def allocate (s : Swap) : Except Panic (Nat × Swap) :=
  match s.firstFree? with
  | none => .error (.outOfSwap s.slots)
  | some slot => do
    return (slot, { s with taken := s.take slot, free := ← checkedSub s.free 1 })

/-- Gives a slot back. -/
def release (s : Swap) (slot : Nat) : Except Panic Swap :=
  if s.isInUse slot then
    .ok { s with taken := s.taken.setIfInBounds slot false, free := s.free + 1 }
  else .error (.freeingUnusedSlot slot)

/-- The first sector of a slot, as a 32-bit sector number. -/
def firstSector (slot : Nat) : Nat := slot * sectorsPerPage % Nat.pow 2 32

/-- Writes `count` sectors of a page from sector `k` of it on. -/
def storeSectors (device : Block) (slot : Nat) (page : Page) :
    (k count : Nat) → Except Panic Block
  | _, 0 => .ok device
  | k, count + 1 => do
    let sector ← checkedAdd 32 (firstSector slot) k
    match ← device.write sector (page.sector k).toArray with
    | .error e => throw (.swapWriteFailed sector e)
    | .ok device => storeSectors device slot page (k + 1) count

/-- Reads `count` sectors of a slot from its sector `k` on. -/
def fetchSectors (device : Block) (slot : Nat) :
    (k count : Nat) → Except Panic (List Sector × Block)
  | _, 0 => .ok ([], device)
  | k, count + 1 => do
    let sector ← checkedAdd 32 (firstSector slot) k
    match ← device.read sector sectorSize with
    | .error e => throw (.swapReadFailed sector e)
    | .ok (s, device) =>
      let (rest, device) ← fetchSectors device slot (k + 1) count
      return (s :: rest, device)

/-- Writes a page into a slot, one sector at a time. -/
def store (s : Swap) (slot : Nat) (page : Page) : Except Panic Swap := do
  return { s with device := ← storeSectors s.device slot page 0 sectorsPerPage }

/-- Reads the page stored in a slot, one sector at a time. -/
def fetch (s : Swap) (slot : Nat) : Except Panic (Page × Swap) := do
  let (sectors, device) ← fetchSectors s.device slot 0 sectorsPerPage
  return (Page.ofSectors sectors, { s with device })

/-- Fails unless `slot` may be written. -/
def checkWrite (s : Swap) (slot : Nat) : Except Panic Unit :=
  if s.isInUse slot then .ok () else .error (.writingUnusedSlot slot)

/-- Fails unless `slot` may be read. -/
def checkRead (s : Swap) (slot : Nat) : Except Panic Unit :=
  if s.isInUse slot then .ok () else .error (.readingUnusedSlot slot)

/-- Writes a buffer into a slot. The slot is checked before the buffer's length. -/
def write (s : Swap) (slot : Nat) (data : Bytes) : Except Panic Swap := do
  s.checkWrite slot
  match Page.ofBytes? data with
  | none => throw .assertion
  | some page => s.store slot page

/-- Reads a slot into a buffer of `length` bytes. The slot is checked before the length. -/
def read (s : Swap) (slot length : Nat) : Except Panic (Page × Swap) := do
  s.checkRead slot
  unless length = pageSize do throw .assertion
  s.fetch slot

end Swap

end DemandPaging
