/-!
# Reading binary records

A reader takes bytes off the front of its input. It fails with the kind of element that was wrong
and with the number of bytes that were left where that element began, so a failure says both what
and where.

## Main definitions

* `Endianness` — the two byte orders.
* `ReadErrorKind`, `ReadError`, `Reader` — readers and their failures.
* `Reader.literal`, `Reader.skip`, `Reader.u8`, `Reader.u16`, `Reader.u32`, `Reader.select` — the
  readers of single elements.
-/

namespace DemandPaging

/-- The order of the bytes of a number. -/
inductive Endianness
  | little
  | big
  deriving DecidableEq, Repr

namespace Endianness

/-- The number whose bytes, in this order, are `bytes`. -/
def decode (e : Endianness) (bytes : List UInt8) : Nat :=
  let leastFirst := match e with
    | little => bytes
    | big => bytes.reverse
  leastFirst.foldr (fun b n => b.toNat + 256 * n) 0

/-- The `size` bytes of a number in this order. -/
def encode (e : Endianness) (size n : Nat) : List UInt8 :=
  let leastFirst := (List.range size).map fun i => UInt8.ofNat (n / Nat.pow 256 i)
  match e with
  | little => leastFirst
  | big => leastFirst.reverse

end Endianness

/-- The kinds of elements that can be wrong. -/
inductive ReadErrorKind
  /-- Bytes that have to be there literally are not. -/
  | literal
  /-- A value that does not stand for anything. -/
  | value
  /-- The input ends too early. -/
  | missing
  deriving DecidableEq, Repr

/-- A failed read. -/
structure ReadError where
  kind : ReadErrorKind
  /-- How many bytes were left where the element began. -/
  left : Nat
  deriving DecidableEq, Repr

/-- A reader of values of type `α` off the front of the input. -/
abbrev Reader (α : Type) := StateT (List UInt8) (Except ReadError) α

namespace Reader

/-- Fails with the given kind at the given input. -/
def fail {α : Type} (kind : ReadErrorKind) (input : List UInt8) : Reader α :=
  throw ⟨kind, input.length⟩

/-- Takes off exactly the given bytes. -/
def literal (expected : List UInt8) : Reader Unit := do
  let input ← get
  if input.take expected.length = expected then set (input.drop expected.length)
  else fail .literal input

/-- Takes off `count` bytes. -/
def take (count : Nat) : Reader (List UInt8) := do
  let input ← get
  if count ≤ input.length then
    set (input.drop count)
    return input.take count
  else fail .missing input

/-- Passes over `count` bytes. -/
def skip (count : Nat) : Reader Unit := do
  let _ ← take count

/-- Takes off one byte. -/
def u8 : Reader UInt8 := do
  return UInt8.ofNat (Endianness.little.decode (← take 1))

/-- Takes off a 16-bit number. -/
def u16 (e : Endianness) : Reader UInt16 := do
  return UInt16.ofNat (e.decode (← take 2))

/-- Takes off a 32-bit number. -/
def u32 (e : Endianness) : Reader UInt32 := do
  return UInt32.ofNat (e.decode (← take 4))

/-- Takes off an element and says what its value stands for; a value that stands for nothing is
an error at the start of the element. -/
def select {α β : Type} (element : Reader α) (meaning : α → Option β) : Reader β := do
  let input ← get
  match meaning (← element) with
  | some b => return b
  | none => fail .value input

end Reader

end DemandPaging
