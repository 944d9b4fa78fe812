import DemandPaging.Proofs.Images

/-!
# Filling a buffer or a frame depends on the bytes of the file only

A file is free to answer a read with fewer bytes than it was asked for, and with another number each
time. A frame is full of what the last page left in it. Neither shows: a buffer that is filled from
a file, and a frame that is filled from a source, hold what the bytes of the file make of them.

That files may cut their bytes up as they like is part of `File.Holds`, which leaves the size of
every answer open. A file answers the same question in the same way, but reading on never asks the
same question twice, so nothing is lost: every way of cutting the bytes up is that of some file.

## Main definitions

* `File.portions` — the answers that reading on gets.
* `File.cut` — a file that cuts its bytes up as it is told.
* `File.FillsBuffers`, `PageSource.FillsFrames` — what comes of filling.

## Main results

* `File.map_size_portions_cut` — the bytes can be cut up in any way.
* `PageSource.populate_of_holds` — what comes of filling depends on the bytes of the file only.
-/

namespace DemandPaging

/-! ### Portions -/

namespace File

/-- The portions in which reading on for `count` bytes from `offset` gets them. -/
def portions (f : File) (offset count : Nat) : List Bytes :=
  if count = 0 then []
  else match f.readAt offset count with
    | .error _ => []
    | .ok bytes =>
      if bytes.size = 0 then []
      else bytes :: portions f (offset + bytes.size) (count - bytes.size)
  termination_by count

/-- What reading on delivers is the portions, one behind the other. -/
theorem readOnto_eq_portions {f : File} {offset count : Nat} {done bytes : Bytes}
    (h : f.readOnto offset count done = .ok bytes) :
    bytes = (f.portions offset count).foldl (· ++ ·) done := by
  rw [readOnto] at h
  rw [portions]
  by_cases hcount : count = 0
  · rw [if_pos hcount] at h ⊢
    exact (Except.ok.inj h).symm
  rw [if_neg hcount] at h ⊢
  cases hread : f.readAt offset count with
  | error e =>
    rw [hread] at h
    cases h
  | ok portion =>
    simp only [hread] at h ⊢
    by_cases hempty : portion.size = 0
    · rw [if_pos hempty] at h ⊢
      exact (Except.ok.inj h).symm
    · rw [if_neg hempty] at h ⊢
      exact readOnto_eq_portions h
  termination_by count

/-- The bytes that are left of the portion that begins, or has begun, `distance` bytes behind the
beginning of the first one. Behind the last one bytes come one at a time. -/
def portionAt : (sizes : List Nat) → (distance : Nat) → Nat
  | [], _ => 1
  | n :: rest, distance => if distance < n then n - distance else portionAt rest (distance - n)

theorem portionAt_pos (sizes : List Nat) (distance : Nat) : 0 < portionAt sizes distance := by
  induction sizes generalizing distance with
  | nil => exact Nat.one_pos
  | cons n rest ih =>
    rw [portionAt]
    split
    · exact Nat.sub_pos_of_lt ‹_›
    · exact ih _

/-- A file that holds `data` and delivers what lies behind `start` in portions of the given
sizes. -/
def cut (data : Bytes) (start : Nat) (sizes : List Nat) : File where
  length := data.size
  readAt offset count := .ok (window data offset (min count (portionAt sizes (offset - start))))
  reopens := true
  size_readAt h := by
    cases h
    exact Nat.le_trans (size_window_le _ _ _) (Nat.min_le_left _ _)

theorem holds_cut (data : Bytes) (start : Nat) (sizes : List Nat) :
    (cut data start sizes).Holds data := fun offset count =>
  ⟨min count (portionAt sizes (offset - start)), Nat.min_le_left _ _, rfl,
    fun hcount _ => Nat.lt_min.2 ⟨hcount, portionAt_pos _ _⟩⟩

theorem size_window (data : Bytes) (offset count : Nat) :
    (window data offset count).size = min count (data.size - offset) := by
  rw [window, Array.size_extract]
  omega

/-- A file that delivers the given portions from `offset` on, all of them, delivers no others. -/
theorem map_size_portions {f : File} {data : Bytes} {offset count : Nat} {sizes : List Nat}
    (hpos : ∀ n ∈ sizes, 0 < n) (hsum : sizes.sum = min count (data.size - offset))
    (hread : ∀ distance count', f.readAt (offset + distance) count'
      = .ok (window data (offset + distance) (min count' (portionAt sizes distance)))) :
    (f.portions offset count).map Array.size = sizes := by
  induction sizes generalizing offset count with
  | nil =>
    rw [List.sum_nil] at hsum
    rw [portions]
    split
    · rfl
    · have hsize : (window data offset (min count (portionAt [] 0))).size = 0 := by
        rw [size_window]
        omega
      have hread := hread 0 count
      rw [Nat.add_zero] at hread
      simp only [hread, hsize, if_true, List.map_nil]
  | cons n rest ih =>
    rw [List.sum_cons] at hsum
    have hn := hpos n List.mem_cons_self
    have hread₀ := hread 0 count
    have hportion : portionAt (n :: rest) 0 = n := by
      rw [portionAt, if_pos hn, Nat.sub_zero]
    rw [Nat.add_zero, hportion, Nat.min_eq_right (by omega)] at hread₀
    have hsize : (window data offset n).size = n := by
      rw [size_window]
      omega
    have hrest : ∀ distance count', f.readAt (offset + n + distance) count'
        = .ok (window data (offset + n + distance) (min count' (portionAt rest distance))) := by
      intro distance count'
      have hnext := hread (n + distance) count'
      rwa [portionAt, if_neg (by omega), Nat.add_sub_cancel_left, ← Nat.add_assoc] at hnext
    rw [portions, if_neg (by omega)]
    simp only [hread₀, hsize, if_neg (Nat.ne_of_gt hn), List.map_cons, List.cons.injEq, true_and]
    exact ih (fun m hm => hpos m (List.mem_cons_of_mem n hm)) (by omega) hrest

/-- The bytes that reading on gets can be cut up in any way. -/
theorem map_size_portions_cut {data : Bytes} {offset count : Nat} {sizes : List Nat}
    (hpos : ∀ n ∈ sizes, 0 < n) (hsum : sizes.sum = min count (data.size - offset)) :
    ((cut data offset sizes).portions offset count).map Array.size = sizes := by
  refine map_size_portions hpos hsum fun distance count' => ?_
  simp only [cut, Nat.add_sub_cancel_left]

/-! ### Buffers -/

/-- What filling a buffer from a file that holds `data` comes to. -/
structure FillsBuffers (f : File) (data : Bytes) : Prop where
  /-- Filling ends, with as many bytes as fit and are there. They are those of the file, and what is
  behind them is as it was. -/
  fills : ∀ {n : Nat} (offset : Nat) (buffer : Vector UInt8 n), ∃ bytes,
    f.readFull offset n = .ok bytes ∧ bytes.size = min n (data.size - offset) ∧
      ∀ (i : Nat) (hi : i < n), (overlay buffer 0 bytes)[i]
        = if hbyte : offset + i < data.size then data[offset + i] else buffer[i]

theorem Holds.fillsBuffers {f : File} {data : Bytes} (h : f.Holds data) : f.FillsBuffers data := by
  constructor
  intro n offset buffer
  refine ⟨window data offset n, h.readFull offset n, size_window data offset n, fun i hi => ?_⟩
  rw [getElem_overlay]
  by_cases hbyte : offset + i < data.size
  · have hsize : i < (window data offset n).size := by
      rw [size_window]
      omega
    rw [dif_pos ⟨Nat.zero_le i, hsize⟩, dif_pos hbyte]
    exact (getElem_window hsize).trans (by simp [Array.getD_eq_getD_getElem?, hbyte])
  · have hsize : ¬ i < (window data offset n).size := by
      rw [size_window]
      omega
    rw [dif_neg fun hin => hsize hin.2, dif_neg hbyte]

end File

/-! ### Frames -/

namespace PageSource

variable {source : PageSource} {view : Handle → File} {data : Handle → Bytes}

/-- The source is a stretch of an executable, and the file ends before it does. -/
def EndsEarly (source : PageSource) (data : Handle → Bytes) : Prop :=
  ∃ file offset read, source = .image file offset read ∧ 0 < read ∧
    (data file).size < offset + read

/-- What filling a frame from a source comes to if the files hold `data`. -/
structure FillsFrames (source : PageSource) (view : Handle → File) (data : Handle → Bytes) :
    Prop where
  /-- Only a file that ends early stands in the way. -/
  short : source.EndsEarly data → ∀ old, source.populate view old = .error .shortRead
  /-- Otherwise the frame holds what the source and the bytes make of it, whatever it held
  before. -/
  fills : ¬ source.EndsEarly data → ∀ old, source.populate view old = .ok (source.initial data)

/-- A stretch of an executable is there or is not. -/
theorem populate_image {file : Handle} {offset read : Nat} (h : (view file).Holds (data file))
    (old : Page) : (image file offset read).populate view old =
      if (File.window (data file) offset read).size = read then
        .ok ((image file offset read).initial data)
      else .error .shortRead := by
  simp only [populate, h.readFull]
  split
  · rename_i hsize
    rw [← initial_image hsize old]
    exact if_neg (not_not.2 hsize)
  · rename_i hsize
    exact if_pos hsize

/-- A page of a mapped file is always there. -/
theorem populate_mapped {id offset : Nat} {file : Handle} (h : (view file).Holds (data file))
    (old : Page) :
    (mapped id file offset).populate view old = .ok ((mapped id file offset).initial data) := by
  simp only [populate, h.readFull]
  exact congrArg Except.ok (initial_mapped old)

theorem endsEarly_image_iff {file : Handle} {offset read : Nat} :
    (image file offset read).EndsEarly data ↔
      (File.window (data file) offset read).size ≠ read := by
  rw [ne_eq, File.size_window_eq_iff]
  constructor
  · rintro ⟨_, _, _, ⟨⟩, hpos, hend⟩
    omega
  · intro h
    exact ⟨file, offset, read, rfl, by omega, by omega⟩

/-- A frame that is filled from a file holds what the source and the bytes of the file make of it.
It does not matter in which portions the file delivers them, nor what the frame held before. -/
theorem populate_of_holds
    (hholds : ∀ file, source.handle? = some file → (view file).Holds (data file)) :
    (∀ file, source.handle? = some file → (view file).FillsBuffers (data file)) ∧
      source.FillsFrames view data := by
  refine ⟨fun file hfile => (hholds file hfile).fillsBuffers, ?_⟩
  cases source with
  | zero =>
    constructor
    · rintro ⟨_, _, _, ⟨⟩, _⟩
    · exact fun _ _ => rfl
  | image file offset read =>
    have hfill := @populate_image view data file offset read (hholds file rfl)
    constructor
    · intro hshort old
      rw [hfill, if_neg (endsEarly_image_iff.1 hshort)]
    · intro hall old
      rw [hfill, if_pos (not_not.1 (mt endsEarly_image_iff.2 hall))]
  | mapped id file offset =>
    constructor
    · rintro ⟨_, _, _, ⟨⟩, _⟩
    · exact fun _ => populate_mapped (hholds file rfl)

/-- Three bytes of a file of five, of which the first two come together, go to a frame that is not
clean. -/
theorem populate_of_holds_cut : ∃ (file : Handle) (data : Bytes),
    file.file.Holds data ∧ (file.file.portions 1 3).map Array.size = [2, 1] ∧
    (image file 1 3).populate Handle.file (Vector.replicate pageSize 0xaa)
      = .ok (Vector.ofFn fun i => if i.val < 3 then data.getD (1 + i.val) 0 else 0) := by
  let file : Handle := ⟨5, 0, .cut #[1, 2, 3, 4, 5] 1 [2, 1]⟩
  have hholds : file.file.Holds #[1, 2, 3, 4, 5] := File.holds_cut _ _ _
  have hsource : ∀ h, (image file 1 3).handle? = some h →
      h.file.Holds ((fun _ => #[1, 2, 3, 4, 5] : Handle → Bytes) h) := by
    rintro _ ⟨⟩
    exact hholds
  obtain ⟨-, hfills⟩ := populate_of_holds hsource
  refine ⟨file, _, hholds, File.map_size_portions_cut (by decide) (by decide), ?_⟩
  refine hfills.fills ?_ _
  rintro ⟨_, _, _, ⟨⟩, -, hend⟩
  exact absurd hend (by decide)

end PageSource

end DemandPaging
