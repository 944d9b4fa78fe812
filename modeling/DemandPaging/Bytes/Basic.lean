import DemandPaging.Address.Basic

/-!
# Bytes, sectors and page contents

Buffers whose length is part of a request are arrays; a sector and the contents of a page have
their length in the type. The one operation on both is the *overlay*: bytes laid over a stretch of
a fixed-size buffer, everything else kept.

## Main definitions

* `Bytes`, `Sector`, `Page` — a buffer, one sector, the contents of one page.
* `overlay`, `zeroFrom`, `slice` — write a stretch, clear the tail, read a stretch.
* `Page.sector`, `Page.ofSectors` — a page as eight sectors.
-/

namespace DemandPaging

/-- A buffer of any length. -/
abbrev Bytes := Array UInt8

/-- The size of a device sector in bytes. -/
def sectorSize : Nat := 512

/-- The number of sectors that hold a page. -/
def sectorsPerPage : Nat := pageSize / sectorSize

/-- The contents of one sector. -/
abbrev Sector := Vector UInt8 sectorSize

/-- The contents of one page or frame. -/
abbrev Page := Vector UInt8 pageSize

/-- The buffer with `bytes` laid over it from `start` on; what would pass the end is dropped. -/
def overlay {n : Nat} (buffer : Vector UInt8 n) (start : Nat) (bytes : Bytes) : Vector UInt8 n :=
  Vector.ofFn fun i =>
    if h : start ≤ i.val ∧ i.val - start < bytes.size then bytes[i.val - start] else buffer[i]

/-- The buffer with zeros from `start` on. -/
def zeroFrom {n : Nat} (buffer : Vector UInt8 n) (start : Nat) : Vector UInt8 n :=
  Vector.ofFn fun i => if start ≤ i.val then 0 else buffer[i]

/-- The `length` bytes of a buffer from `start` on, as far as the buffer reaches. -/
def slice {n : Nat} (buffer : Vector UInt8 n) (start length : Nat) : Bytes :=
  buffer.toArray.extract start (start + length)

theorem getElem_overlay {n : Nat} (buffer : Vector UInt8 n) (start : Nat) (bytes : Bytes)
    (i : Nat) (hi : i < n) :
    (overlay buffer start bytes)[i] =
      if h : start ≤ i ∧ i - start < bytes.size then bytes[i - start] else buffer[i] := by
  simp [overlay]

theorem getElem_zeroFrom {n : Nat} (buffer : Vector UInt8 n) (start i : Nat) (hi : i < n) :
    (zeroFrom buffer start)[i] = if start ≤ i then 0 else buffer[i] := by
  simp [zeroFrom]

theorem size_slice {n : Nat} (buffer : Vector UInt8 n) {start length : Nat}
    (h : start + length ≤ n) : (slice buffer start length).size = length := by
  simp [slice]
  omega

namespace Sector

/-- A sector of zeros. -/
def zero : Sector := Vector.replicate sectorSize 0

/-- A buffer as a sector, if it has a sector's length. -/
def ofBytes? (bytes : Bytes) : Option Sector :=
  if h : bytes.size = sectorSize then some ⟨bytes, h⟩ else none

end Sector

namespace Page

/-- A page that holds `b` everywhere. -/
def filled (b : UInt8) : Page := Vector.replicate pageSize b

/-- A page of zeros. -/
def zero : Page := filled 0

/-- A buffer as a page, if it has a page's length. -/
def ofBytes? (bytes : Bytes) : Option Page :=
  if h : bytes.size = pageSize then some ⟨bytes, h⟩ else none

/-- Sector `k` of a page. -/
def sector (page : Page) (k : Nat) : Sector :=
  Vector.ofFn fun i => page.getD (k * sectorSize + i.val) 0

/-- The page that eight sectors make up; a sector that is missing counts as zeros. -/
def ofSectors (sectors : List Sector) : Page :=
  let sectors := sectors.toArray
  Vector.ofFn fun i => (sectors.getD (i.val / sectorSize) Sector.zero).getD (i.val % sectorSize) 0

end Page

end DemandPaging
