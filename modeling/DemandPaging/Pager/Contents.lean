import DemandPaging.Pager.Query

/-!
# What memory holds

The contents of a page do not depend on where it is: they are in a frame, in a swap slot, or still
in the page's source. Here they are named without going through the operations that move them, for
files that hold a fixed string of bytes.

## Main definitions

* `File.Holds` — a file whose reads deliver a given string, in portions of any size.
* `PageSource.initial` — what a page holds before it is first written.
* `Device.contents`, `Swap.contents` — what a sector and what a slot hold.
-/

namespace DemandPaging

/-- The file holds `data`: a read delivers the bytes at its offset, at least one as long as there
are any, and it never fails. -/
def File.Holds (f : File) (data : Bytes) : Prop :=
  ∀ offset count, ∃ size ≤ count, f.readAt offset count = .ok (File.window data offset size) ∧
    (0 < count → offset < data.size → 0 < size)

/-- What a device stores in a sector, whether or not it delivers it. -/
def Device.contents : Device → Nat → Sector
  | .ram disk, sector => disk.contents sector
  | .absent, _ => Sector.zero
  | .defective disk _ _ _, sector => disk.contents sector

/-- The page a slot stores. -/
def Swap.contents (s : Swap) (slot : Nat) : Page :=
  Page.ofSectors ((List.range sectorsPerPage).map fun k =>
    s.device.device.contents (slot * sectorsPerPage + k))

/-- What a page holds before it is first written, where `data` says what the files hold. -/
def PageSource.initial (source : PageSource) (data : Handle → Bytes) : Page :=
  match source with
  | .zero => Page.zero
  | .image file offset read =>
    Vector.ofFn fun i => if i.val < read then (data file).getD (offset + i.val) 0 else 0
  | .mapped _ file offset => Vector.ofFn fun i => (data file).getD (offset + i.val) 0

end DemandPaging
