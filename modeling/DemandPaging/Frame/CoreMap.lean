import DemandPaging.Panic
import DemandPaging.Word.Field

/-!
# The core map

One 16-bit word per frame says whether the frame is allocated and how many pins hold it. Pins of
every thread of a process may stack on one frame, so there is a count and not a flag.

## Main definitions

* `CoreMapEntry` — the word of one frame, with a reader and a writer per field.
* `FrameOwner` — the user page a frame backs.
-/

namespace DemandPaging

open Word

/-- The core map's word for one frame. -/
structure CoreMapEntry where
  raw : BitVec 16
  deriving DecidableEq, Repr

namespace CoreMapEntry

/-- A free frame. -/
def free : CoreMapEntry := ⟨0⟩

def allocated (e : CoreMapEntry) : Bool := flag e.raw 0

/-- The number of pins on the frame. -/
def pins (e : CoreMapEntry) : BitVec 15 := field e.raw 1 15

/-- Whether any pin holds the frame. -/
def pinned (e : CoreMapEntry) : Bool := e.pins.toNat ≠ 0

def withAllocated (e : CoreMapEntry) (b : Bool) : CoreMapEntry := ⟨setFlag e.raw 0 b⟩
def withPins (e : CoreMapEntry) (count : BitVec 15) : CoreMapEntry := ⟨setField e.raw 1 count⟩

/-- The number of bytes of a word. -/
def size : Nat := 2

/-- The largest number of pins a frame can hold. -/
def maxPins : Nat := Nat.pow 2 15 - 1

@[simp] theorem allocated_free : free.allocated = false := rfl

@[simp] theorem allocated_withAllocated (e : CoreMapEntry) (b : Bool) :
    (e.withAllocated b).allocated = b := flag_setFlag_self (by decide)

@[simp] theorem pins_withAllocated (e : CoreMapEntry) (b : Bool) :
    (e.withAllocated b).pins = e.pins := field_setFlag_of_lt (by decide)

@[simp] theorem allocated_withPins (e : CoreMapEntry) (count : BitVec 15) :
    (e.withPins count).allocated = e.allocated := flag_setField_of_lt (by decide)

@[simp] theorem pins_withPins (e : CoreMapEntry) (count : BitVec 15) :
    (e.withPins count).pins = count := field_setField_self (by decide)

end CoreMapEntry

/-- The user page a frame backs. -/
structure FrameOwner where
  pid : Nat
  page : Nat
  deriving DecidableEq, Repr

end DemandPaging
