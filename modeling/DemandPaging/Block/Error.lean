/-!
# Why a block transfer fails

## Main definitions

* `BlockError` — the causes, in the order in which a transfer checks for them, save that a
  read-only device is noticed after a wrong buffer and before the medium is touched.
* `BlockError.message` — the wording of each cause.
-/

namespace DemandPaging

/-- The reasons a block device gives for refusing or failing a transfer. -/
inductive BlockError
  /-- The sector lies past the end of the device. -/
  | sectorOutOfBounds
  /-- The buffer is not exactly one sector long. -/
  | bufferInvalid
  /-- The medium failed to deliver the sector. -/
  | readError
  /-- The medium failed to store the sector. -/
  | writeError
  /-- The device refuses writes. -/
  | readOnly
  deriving DecidableEq, Repr

namespace BlockError

/-- The wording of a failed transfer. -/
def message : BlockError → String
  | sectorOutOfBounds => "sector out of bounds"
  | bufferInvalid => "buffer is not one sector long"
  | readError => "error reading from the block device"
  | writeError => "error writing to the block device"
  | readOnly => "block device is read-only"

/-- Every cause, in the order of the type. -/
def all : List BlockError := [sectorOutOfBounds, bufferInvalid, readError, writeError, readOnly]

theorem mem_all (e : BlockError) : e ∈ all := by cases e <;> decide

/-- No two causes are worded alike. -/
theorem message_inj {e e' : BlockError} (h : e.message = e'.message) : e = e' := by
  have hall : ∀ e ∈ all, ∀ e' ∈ all, e.message = e'.message → e = e' := by decide
  exact hall e (mem_all e) e' (mem_all e') h

end BlockError

end DemandPaging
