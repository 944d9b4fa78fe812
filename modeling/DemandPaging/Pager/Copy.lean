import DemandPaging.Pager.Pin

/-!
# Copies between kernel buffers and user memory

A copy goes one piece at a time: the page is faulted in and pinned, the bytes are copied, and the
pin is taken off before the next piece. So a copy holds one pin at most, however long it is, and a
copy to user memory that fails has written the pages before the failure.

## Main definitions

* `Pager.copyFromUser`, `Pager.copyToUser` — the two directions.
* `PagerM.copyOut`, `PagerM.copyIn` — the copy of one piece, between its pin and its unpin.
-/

namespace DemandPaging

namespace PagerM

/-- The bytes of a piece that lies in `frame`. -/
def copyOut (frame : Nat) (piece : Piece) : PagerM Bytes := do
  return slice (← (← pager).memory.contents frame) (pageOffset piece.addr) piece.size

/-- Stores a piece's share of `data` in `frame`. -/
def copyIn (frame : Nat) (piece : Piece) (data : Bytes) : PagerM Unit := do
  let page ← (← pager).memory.contents frame
  setContents frame (overlay page (pageOffset piece.addr)
    (data.extract piece.start (piece.start + piece.size)))

/-- Reads the pieces of a range that follow the first `done` bytes, which are in `bytes`. -/
def readPieces (pid start length esp done : Nat) (bytes : Bytes) :
    PagerM (Except FaultError Bytes) :=
  if h : done < length then do
    let piece := Piece.next start length done
    match ← pinPage pid piece.addr esp false with
    | .error e => return .error e
    | .ok frame =>
      let found ← copyOut frame piece
      unpinFrame frame
      have := Piece.next_size_pos start h
      readPieces pid start length esp (done + piece.size) (bytes ++ found)
  else return .ok bytes
  termination_by length - done

/-- Writes the pieces of `data` that follow its first `done` bytes. -/
def writePieces (pid start : Nat) (data : Bytes) (esp done : Nat) :
    PagerM (Except FaultError Unit) :=
  if h : done < data.size then do
    let piece := Piece.next start data.size done
    match ← pinPage pid piece.addr esp true with
    | .error e => return .error e
    | .ok frame =>
      copyIn frame piece data
      unpinFrame frame
      have := Piece.next_size_pos start h
      writePieces pid start data esp (done + piece.size)
  else return .ok ()
  termination_by data.size - done

end PagerM

namespace Pager

open PagerM

/-- Reads `length` bytes at `start` from the memory of `pid`, faulting pages in as needed. The
buffer has to be smaller than half the address space. -/
def copyFromUser (pid start length esp : Nat) : PagerM (Except FaultError Bytes) := do
  unless (← pager).config.isUserRange start length do return .error .kernelAddress
  checkBuffer length 1
  readPieces pid start length esp 0 #[]

/-- Writes `data` at `start` in the memory of `pid`. If a page of the range fails, the pages
before it have been written. -/
def copyToUser (pid start : Nat) (data : Bytes) (esp : Nat) : PagerM (Except FaultError Unit) := do
  unless (← pager).config.isUserRange start data.size do return .error .kernelAddress
  writePieces pid start data esp 0

end Pager

end DemandPaging
