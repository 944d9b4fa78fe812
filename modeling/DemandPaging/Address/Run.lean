import DemandPaging.Address.Basic

/-!
# Runs of pages and pieces of a byte range

A byte range is walked in two ways. A *run* lists the pages it touches; pinning and mapping walk
runs. A *piece* is the part of the range that lies on one page; copies walk pieces. Both walks
are lazy: a run is a first page and a count, and the next piece is computed from what is done, so
a range that is refused on its first page costs one step however long it is.

## Main definitions

* `PageRun`, `PageRun.spanning`, `PageRun.toList` — the pages a byte range touches.
* `Piece`, `Piece.next`, `pieces` — a byte range cut at page boundaries.
-/

namespace DemandPaging

/-- Consecutive pages: the first one's address and how many there are. -/
structure PageRun where
  first : Nat
  count : Nat
  deriving DecidableEq, Repr

namespace PageRun

/-- The pages touched by `length` bytes at `start`. The end of the range stops at the largest
64-bit number. -/
def spanning (start : Nat) (length : Nat) : PageRun where
  first := pageFloor start
  count := (saturatingAdd start length - pageFloor start + (pageSize - 1)) / pageSize

/-- The page addresses of a run, in order. -/
def toList (run : PageRun) : List Nat :=
  (List.range run.count).map fun i => run.first + i * pageSize

end PageRun

/-- The part of a byte range that lies on one page. -/
structure Piece where
  /-- The user address of the piece. -/
  addr : Nat
  /-- Where the piece begins in the range. -/
  start : Nat
  /-- How many bytes the piece has. -/
  size : Nat
  deriving DecidableEq, Repr

namespace Piece

/-- The piece that follows the first `done` of `length` bytes at `start`: up to the end of the
page or of the range, whichever is nearer. -/
def next (start length done : Nat) : Piece where
  addr := start + done
  start := done
  size := min (pageSize - pageOffset (start + done)) (length - done)

theorem next_size_pos (start : Nat) {length done : Nat} (h : done < length) :
    0 < (next start length done).size := by
  have := pageOffset_lt (start + done)
  simp only [next]
  omega

theorem next_size_le (start : Nat) {length done : Nat} (h : done < length) :
    done + (next start length done).size ≤ length := by
  simp only [next]
  omega

end Piece

/-- The pieces of `length` bytes at `start` that follow the first `done` bytes. -/
def piecesFrom (start length done : Nat) : List Piece :=
  if h : done < length then
    have := Piece.next_size_pos start h
    let piece := Piece.next start length done
    piece :: piecesFrom start length (done + piece.size)
  else []
  termination_by length - done

/-- A byte range cut at page boundaries, in address order. -/
def pieces (start length : Nat) : List Piece := piecesFrom start length 0

end DemandPaging
