import DemandPaging.Bytes.Basic

/-!
# Files

The pager only ever reads files. A file has a length, answers reads at an offset and may be opened
again. A read may deliver fewer bytes than were asked for, but never more; `readFull` reads on
until the buffer is full or the file has nothing more to give.

## Main definitions

* `FileError` — why a file operation fails.
* `File` — length, reading and reopening.
* `File.ofBytes`, `File.unreliable`, `File.broken` — files in memory, files with faults, and a
  file whose medium fails.
* `File.readFull` — reading to the end of the buffer or of the file.
-/

namespace DemandPaging

/-- The reasons a file operation fails. -/
inductive FileError
  /-- The underlying device reported an error. -/
  | io
  /-- The file ended before the bytes a page needs. -/
  | shortRead
  /-- The file could not be opened a second time. -/
  | reopen
  deriving DecidableEq, Repr

namespace FileError

/-- The wording of a failed file operation. -/
def message : FileError → String
  | io => "i/o error"
  | shortRead => "unexpected end of file"
  | reopen => "cannot reopen file"

/-- Every cause, in the order of the type. -/
def all : List FileError := [io, shortRead, reopen]

theorem mem_all (e : FileError) : e ∈ all := by cases e <;> decide

/-- No two causes are worded alike. -/
theorem message_inj {e e' : FileError} (h : e.message = e'.message) : e = e' := by
  have hall : ∀ e ∈ all, ∀ e' ∈ all, e.message = e'.message → e = e' := by decide
  exact hall e (mem_all e) e' (mem_all e') h

end FileError

/-- A regular file as its readers see it. -/
structure File where
  /-- The size in bytes that the file reports. -/
  length : Nat
  /-- Reads at most so many bytes from an offset on. -/
  readAt : (offset count : Nat) → Except FileError Bytes
  /-- Whether the file can be opened a second time. -/
  reopens : Bool
  /-- A read delivers no more than was asked for. -/
  size_readAt : ∀ {offset count bytes}, readAt offset count = .ok bytes → bytes.size ≤ count

namespace File

/-- The bytes of `data` from `offset` on, `count` at most. -/
def window (data : Bytes) (offset count : Nat) : Bytes := data.extract offset (offset + count)

theorem size_window_le (data : Bytes) (offset count : Nat) :
    (window data offset count).size ≤ count := by
  simp [window]
  omega

/-- A file held in memory: a read is short only at the end of the file. -/
def ofBytes (data : Bytes) : File where
  length := data.size
  readAt offset count := .ok (window data offset count)
  reopens := true
  size_readAt h := by
    cases h
    exact size_window_le _ _ _

/-- A file with faults: it reports a length of its own, delivers at most `chunk` bytes at a time,
fails from offset `failFrom` on, and may refuse to be reopened. -/
def unreliable (data : Bytes) (length chunk failFrom : Nat) (reopens : Bool) : File where
  length := length
  readAt offset count :=
    if failFrom ≤ offset then .error .io else .ok (window data offset (min count chunk))
  reopens := reopens
  size_readAt h := by
    split at h
    · cases h
    · cases h
      exact Nat.le_trans (size_window_le _ _ _) (Nat.min_le_left _ _)

/-- The same file with every read failing. -/
def broken (f : File) : File where
  length := f.length
  readAt _ _ := .error .io
  reopens := f.reopens
  size_readAt h := by cases h

/-- Reads on from `offset` until `count` more bytes are there or a read delivers nothing, and
puts them behind `done`. -/
def readOnto (f : File) (offset count : Nat) (done : Bytes) : Except FileError Bytes :=
  if count = 0 then .ok done
  else match f.readAt offset count with
    | .error e => .error e
    | .ok bytes =>
      if bytes.size = 0 then .ok done
      else readOnto f (offset + bytes.size) (count - bytes.size) (done ++ bytes)
  termination_by count

/-- As much of `count` bytes as the file holds from `offset` on. -/
def readFull (f : File) (offset count : Nat) : Except FileError Bytes := f.readOnto offset count #[]

end File

end DemandPaging
