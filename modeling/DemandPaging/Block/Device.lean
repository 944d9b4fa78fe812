import DemandPaging.Bytes.Basic
import Std.Data.ExtTreeMap

/-!
# Sector devices

The drivers below a block device. A RAM disk stores sectors; an absent device stands in for a
missing disk and must never be reached; a defective disk is a RAM disk that lies about its size or
fails on listed sectors.

A transfer has three outcomes: it is done, it fails with a `BlockError`, or it is a bug in the
caller and panics.

## Main definitions

* `RamDisk` — sectors that are zero until first written.
* `Device`, `Device.sectors`, `Device.read`, `Device.write` — a device and its transfers.
-/

namespace DemandPaging

/-- A disk held in memory. Sectors that were never written are zero and take no room. -/
structure RamDisk where
  /-- The number of sectors. -/
  sectors : Nat
  /-- The sectors written so far. -/
  written : Std.ExtTreeMap Nat Sector

namespace RamDisk

/-- A fresh disk, all zeros. -/
def blank (sectors : Nat) : RamDisk := ⟨sectors, ∅⟩

/-- The contents of a sector. -/
def contents (d : RamDisk) (sector : Nat) : Sector := d.written[sector]?.getD Sector.zero

/-- Reads a sector into a buffer of `length` bytes. A sector past the end is an error; a buffer of
the wrong length is a bug, found after the sector's range. -/
def read (d : RamDisk) (sector length : Nat) : Except Panic (Except BlockError Sector) :=
  if d.sectors ≤ sector then .ok (.error .sectorOutOfBounds)
  else if length = sectorSize then .ok (.ok (d.contents sector))
  else .error .lengthMismatch

/-- Writes a sector, with the same checks as reading one. -/
def write (d : RamDisk) (sector : Nat) (data : Bytes) :
    Except Panic (Except BlockError RamDisk) :=
  if d.sectors ≤ sector then .ok (.error .sectorOutOfBounds)
  else match Sector.ofBytes? data with
    | some s => .ok (.ok { d with written := d.written.insert sector s })
    | none => .error .lengthMismatch

@[simp] theorem contents_blank (sectors sector : Nat) :
    (blank sectors).contents sector = Sector.zero := by
  simp [blank, contents]

theorem contents_insert (d : RamDisk) (s : Sector) (i j : Nat) :
    ({ d with written := d.written.insert i s } : RamDisk).contents j =
      if i = j then s else d.contents j := by
  by_cases h : i = j <;> simp [contents, Std.ExtTreeMap.getElem?_insert, h]

end RamDisk

/-- What a block device drives. -/
inductive Device
  | ram (disk : RamDisk)
  /-- No disk: no sectors, and any transfer is a bug. -/
  | absent
  /-- A disk that reports a size of its own and fails on the listed sectors. -/
  | defective (disk : RamDisk) (reported : Nat) (badReads badWrites : List Nat)

namespace Device

/-- The capacity the device reports. -/
def sectors : Device → Nat
  | ram disk => disk.sectors
  | absent => 0
  | defective _ reported _ _ => reported

/-- Reads a sector into a buffer of `length` bytes. -/
def read (d : Device) (sector length : Nat) : Except Panic (Except BlockError Sector) :=
  match d with
  | ram disk => disk.read sector length
  | absent => .error (.absentDeviceRead sector)
  | defective disk _ badReads _ =>
    if badReads.contains sector then .ok (.error .readError) else disk.read sector length

/-- Writes a sector. -/
def write (d : Device) (sector : Nat) (data : Bytes) : Except Panic (Except BlockError Device) :=
  match d with
  | ram disk => return (← disk.write sector data).map ram
  | absent => .error (.absentDeviceWrite sector)
  | defective disk reported badReads badWrites =>
    if badWrites.contains sector then .ok (.error .writeError)
    else return (← disk.write sector data).map fun disk =>
      defective disk reported badReads badWrites

end Device

end DemandPaging
