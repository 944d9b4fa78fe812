import DemandPaging.Proofs.PinAndCopy
import DemandPaging.Proofs.PinRanges
import DemandPaging.Proofs.StoredBytes

/-!
# Cutting a range into pieces

A copy cuts its range at the page boundaries and moves the bytes of a piece to or from one frame, so
it relies on a piece not passing the end of its page, wherever the range begins and however long it
is. A pin walks the same range page by page. The two walks are written independently of each other,
and still they come by the same pages in the same order: the address of each piece is the address of
its page, or the start of the range if the range begins in the middle of that page.

The walk over the pieces knows how many bytes are done, and it ends when they are exactly as many as
the range has. So it has to be shown that it ends at all: `Piece.Yields` is the walk step by step,
and the list of pieces is what it has yielded when it ends.

## Main definitions

* `Piece.Yields` — the walk over the pieces, step by step.
* `Piece.Tile` — pieces that follow one another without a gap.
* `Piece.Partition` — what a copy relies on.
* `PagerM.readEach`, `PagerM.writeEach` — copies that are given their pieces.

## Main results

* `Piece.yields_iff` — the walk ends, and it yields the list of pieces.
* `Piece.StandsAt.map_addr` — the pieces begin where a pin faults its pages in.
* `Piece.pieces_partition` — the pieces are a partition of the range along its pages.
* `PagerM.readPieces_eq`, `PagerM.writePieces_eq` — copies go through the pieces in turn.
-/

namespace DemandPaging

namespace Piece

variable {start length done page : Nat} {piece : Piece} {ps : List Piece}

/-! ### The walk -/

/-- The walk over the pieces of `length` bytes at `start`, with `done` bytes behind it, yields `ps`
and ends. It ends when `length` bytes are done. -/
inductive Yields (start length : Nat) : (done : Nat) → (ps : List Piece) → Prop
  | ended : Yields start length length []
  | next {done : Nat} {later : List Piece} (unfinished : done ≠ length)
      (rest : Yields start length (done + (next start length done).size) later) :
      Yields start length done (next start length done :: later)

/-- The walk ends, since every piece brings it nearer to the end of the range and none passes it. -/
theorem yields_piecesFrom (h : done ≤ length) :
    Yields start length done (piecesFrom start length done) := by
  fun_induction piecesFrom start length done with
  | case1 done hlt hpos piece ih =>
    exact .next (Nat.ne_of_lt hlt) (ih (next_size_le start hlt))
  | case2 done hge =>
    obtain rfl := Nat.le_antisymm h (Nat.le_of_not_lt hge)
    exact .ended

theorem Yields.eq_piecesFrom (h : Yields start length done ps) (hle : done ≤ length) :
    ps = piecesFrom start length done := by
  induction h with
  | ended => rw [piecesFrom, dif_neg (Nat.lt_irrefl _)]
  | next unfinished rest ih =>
    have hlt := Nat.lt_of_le_of_ne hle unfinished
    rw [piecesFrom, dif_pos hlt]
    exact congrArg (Piece.next start length _ :: ·) (ih (next_size_le start hlt))

/-- The walk over a range ends, and it yields the pieces of the range. -/
theorem yields_iff : Yields start length 0 ps ↔ ps = pieces start length :=
  ⟨fun h => h.eq_piecesFrom (Nat.zero_le _), fun h => h ▸ yields_piecesFrom (Nat.zero_le _)⟩

/-! ### What the walk yields -/

/-- The pieces begin at byte `lo`, follow one another without a gap and end at byte `hi`, and none
of them is empty. -/
def Tile : (lo hi : Nat) → List Piece → Prop
  | lo, hi, [] => lo = hi
  | lo, hi, piece :: rest => piece.start = lo ∧ 0 < piece.size ∧ Tile (lo + piece.size) hi rest

theorem tile_piecesFrom (h : done ≤ length) : Tile done length (piecesFrom start length done) := by
  fun_induction piecesFrom start length done with
  | case1 done hlt hpos piece ih => exact ⟨rfl, hpos, ih (next_size_le start hlt)⟩
  | case2 done hge => exact Nat.le_antisymm h (Nat.le_of_not_lt hge)

/-- Each piece is the one that follows the bytes before it. -/
theorem eq_next_of_mem (h : piece ∈ piecesFrom start length done) :
    ∃ n < length, piece = next start length n := by
  fun_induction piecesFrom start length done with
  | case1 done hlt hpos first ih =>
    rcases List.mem_cons.1 h with rfl | h
    · exact ⟨done, hlt, rfl⟩
    · exact ih h
  | case2 => cases h

/-- Where the walk stands at a page boundary or at the end, the pieces to come begin at page
boundaries. -/
theorem aligned_of_mem (hdone : done = length ∨ pageOffset (start + done) = 0)
    (h : piece ∈ piecesFrom start length done) : pageOffset piece.addr = 0 := by
  fun_induction piecesFrom start length done with
  | case1 done hlt hpos first ih =>
    rcases List.mem_cons.1 h with rfl | h
    · exact hdone.resolve_left (Nat.ne_of_lt hlt)
    · exact ih (next_boundary start hlt) h
  | case2 => cases h

theorem aligned_of_mem_tail (h : piece ∈ (pieces start length).tail) :
    pageOffset piece.addr = 0 := by
  rw [pieces, piecesFrom] at h
  split at h
  next hlt => exact aligned_of_mem (next_boundary start hlt) h
  next => cases h

/-- A walk over the pieces and a walk over the pages come by the same addresses. -/
theorem StandsAt.map_addr (h : StandsAt start length done page) :
    (piecesFrom start length done).map addr =
      (PageRun.toList ⟨page, pagesUpTo (start + length) page⟩).map (max · start) := by
  fun_induction piecesFrom start length done generalizing page with
  | case1 done hlt hpos first =>
    rename_i ih
    rw [h.pagesUpTo_eq hlt, PageRun.toList_succ, List.map_cons, List.map_cons, h.max_eq hlt,
      ih (h.next hlt)]
    rfl
  | case2 done hge =>
    rw [h.pagesUpTo_eq_zero (Nat.le_of_not_lt hge)]
    rfl

/-- `ps` cuts the `length` bytes at `start` along the pages. -/
structure Partition (start length : Nat) (ps : List Piece) : Prop where
  tile : Tile 0 length ps
  addr_eq : ∀ piece ∈ ps, piece.addr = start + piece.start
  end_le : ∀ piece ∈ ps, piece.start + piece.size ≤ length
  /-- All bytes of a piece lie on one page. -/
  one_page : ∀ piece ∈ ps, ∀ a, piece.addr ≤ a → a < piece.addr + piece.size →
    pageFloor a = pageFloor piece.addr
  /-- Every piece but the first begins where a page begins. -/
  aligned : ∀ piece ∈ ps.tail, pageOffset piece.addr = 0
  /-- The pieces lie on the pages of the range, in their order. -/
  addresses : 0 < length →
    ps.map addr = (PageRun.spanning start length).toList.map (max · start)

/-- The walk over the pieces of a range ends, and the pieces are a partition of the range along its
pages. An empty range has none. -/
theorem pieces_partition (start length : Nat) (hfits : start + length < 2 ^ 64) :
    (∀ ps, Yields start length 0 ps ↔ ps = pieces start length) ∧
      Partition start length (pieces start length) ∧ (length = 0 → pieces start length = []) := by
  refine ⟨fun ps => yields_iff, ?_, fun h => ?_⟩
  case refine_2 =>
    rw [h, pieces, piecesFrom, dif_neg (Nat.lt_irrefl 0)]
  constructor
  case tile => exact tile_piecesFrom (Nat.zero_le _)
  case addr_eq =>
    intro piece h
    obtain ⟨n, -, rfl⟩ := eq_next_of_mem h
    rfl
  case end_le =>
    intro piece h
    obtain ⟨n, hn, rfl⟩ := eq_next_of_mem h
    exact next_size_le start hn
  case one_page =>
    intro piece h a hle hlt
    obtain ⟨n, -, rfl⟩ := eq_next_of_mem h
    obtain ⟨i, rfl⟩ := Nat.exists_eq_add_of_le hle
    rw [addr_next] at hlt
    have hend : n + i < n + (next start length n).size := by omega
    rw [addr_next, Nat.add_assoc]
    exact (next_page (Nat.le_add_right n i) hend).1
  case aligned => exact fun piece => aligned_of_mem_tail
  case addresses =>
    intro hpos
    have hrun : PageRun.spanning start length
        = ⟨pageFloor start, pagesUpTo (start + length) (pageFloor start)⟩ :=
      congrArg (PageRun.mk (pageFloor start)) (PageRun.count_spanning hfits)
    rw [hrun]
    exact (standsAt_zero start hpos).map_addr

/-- A range over three pages that begins 16 bytes before the first boundary and ends 16 bytes behind
the last one. -/
theorem pieces_partition_across :
    0x1ff0 + 0x1020 < 2 ^ 64 ∧ pieces 0x1ff0 0x1020 =
        [⟨0x1ff0, 0, 0x10⟩, ⟨0x2000, 0x10, 0x1000⟩, ⟨0x3000, 0x1010, 0x10⟩] ∧
      (∀ ps, Yields 0x1ff0 0x1020 0 ps ↔ ps = pieces 0x1ff0 0x1020) ∧
      Partition 0x1ff0 0x1020 (pieces 0x1ff0 0x1020) ∧
      (0x1020 = 0 → pieces 0x1ff0 0x1020 = []) :=
  have hfits : 0x1ff0 + 0x1020 < 2 ^ 64 := by decide
  ⟨hfits, by simp [pieces, piecesFrom, next, pageOffset, pageSize],
    pieces_partition 0x1ff0 0x1020 hfits⟩

end Piece

/-! ### Copies -/

namespace PagerM

/-- Reads the pieces one by one and puts their bytes behind `bytes`. -/
def readEach (pid esp : Nat) : List Piece → Bytes → PagerM (Except FaultError Bytes)
  | [], bytes => return .ok bytes
  | piece :: rest, bytes => do
    match ← readPiece pid piece esp with
    | .error e => return .error e
    | .ok found => readEach pid esp rest (bytes ++ found)

/-- Writes each piece's share of `data`. -/
def writeEach (pid esp : Nat) (data : Bytes) : List Piece → PagerM (Except FaultError Unit)
  | [] => return .ok ()
  | piece :: rest => do
    match ← writePiece pid piece data esp with
    | .error e => return .error e
    | .ok () => writeEach pid esp data rest

/-- A copy from user memory goes through the pieces of its range in turn, up to the first that
fails. -/
theorem readPieces_eq (pid start length esp done : Nat) (bytes : Bytes) :
    readPieces pid start length esp done bytes =
      readEach pid esp (piecesFrom start length done) bytes := by
  revert bytes
  fun_induction piecesFrom start length done with
  | case1 done hlt hpos piece ih =>
    intro bytes
    rw [readPieces_of_lt hlt, readEach]
    refine bind_congr fun r => ?_
    cases r with
    | error e => rfl
    | ok found => exact ih _
  | case2 done hge =>
    intro bytes
    rw [readPieces_of_le (Nat.le_of_not_lt hge), readEach]

/-- So does a copy to user memory. -/
theorem writePieces_eq (pid start : Nat) (data : Bytes) (esp done : Nat) :
    writePieces pid start data esp done =
      writeEach pid esp data (piecesFrom start data.size done) := by
  fun_induction piecesFrom start data.size done with
  | case1 done hlt hpos piece ih =>
    rw [writePieces_of_lt hlt, writeEach]
    refine bind_congr fun r => ?_
    cases r with
    | error e => rfl
    | ok _ => exact ih
  | case2 done hge => rw [writePieces_of_le (Nat.le_of_not_lt hge), writeEach]

end PagerM

end DemandPaging
