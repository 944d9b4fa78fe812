import DemandPaging.File.Basic

/-!
# Why the pager refuses a request

A process whose fault cannot be resolved is killed and the rest of the system carries on; a
request to map a file that is refused has no effect beyond the failed call.

## Main definitions

* `FaultError` — why a fault or an access to user memory fails.
* `MmapError` — why a file is not mapped.
-/

namespace DemandPaging

/-- The reasons a fault or an access to user memory fails. -/
inductive FaultError
  /-- No page covers the address and it is not a plausible stack access. -/
  | badAddress
  /-- The address belongs to the kernel. -/
  | kernelAddress
  /-- A write to a read-only page. -/
  | readOnly
  /-- Reading the contents of the page from its file failed. -/
  | io (error : FileError)
  /-- The hardware mapping could not be installed. -/
  | mapFailed
  deriving DecidableEq, Repr

namespace FaultError

/-- The wording of a failed fault. -/
def message : FaultError → String
  | badAddress => "address is not mapped"
  | kernelAddress => "address belongs to the kernel"
  | readOnly => "page is read-only"
  | io e => s!"cannot load page: {e.message}"
  | mapFailed => "cannot install page mapping"

/-- The failure underneath, if there is one. -/
def cause : FaultError → Option FileError
  | io e => some e
  | _ => none

end FaultError

/-- The reasons a file is not mapped. -/
inductive MmapError
  | nullAddress
  | unaligned
  | emptyFile
  /-- Some page of the range is in use already. -/
  | overlap
  /-- The range reaches into kernel space. -/
  | kernelAddress
  /-- The file could not be opened again for the mapping. -/
  | reopen
  deriving DecidableEq, Repr

/-- The wording of a refused mapping. -/
def MmapError.message : MmapError → String
  | nullAddress => "cannot map at address 0"
  | unaligned => "address is not page aligned"
  | emptyFile => "file is empty"
  | overlap => "range overlaps existing pages"
  | kernelAddress => "range reaches kernel space"
  | reopen => "cannot reopen file"

end DemandPaging
