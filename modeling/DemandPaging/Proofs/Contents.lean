import DemandPaging.Pager.Contents
import DemandPaging.Proofs.SwapSlots
import Mathlib.Tactic.ByContra

/-!
# Contents in transit

A page that goes to swap and comes back is cut into sectors and put together again, and a page
that is populated is read from its file in portions. Here both are shown to change nothing: what
is stored in a slot is what is fetched from it, no other slot is touched, and a frame is filled
from a source with bytes that do not depend on what it held before.

Sector numbers have 32 bits and wrap, so the laws ask that a slot lies below that bound.

## Main results

* `Swap.contents_of_store`, `Swap.contents_of_fetch` — a slot keeps a page.
* `PageSource.populate_old` — the old contents of a frame do not matter.
* `PageSource.populate_eq_initial` — what a source reads from a file that holds a string.
-/

namespace DemandPaging

/-! ### Sectors of a device -/

theorem Device.contents_of_write {d d' : Device} {sector : Nat} {s : Sector}
    (h : d.write sector s.toArray = .ok (.ok d')) (i : Nat) :
    d'.contents i = if i = sector then s else d.contents i := by
  have hram : ∀ {disk disk' : RamDisk}, disk.write sector s.toArray = .ok (.ok disk') →
      disk'.contents i = if i = sector then s else disk.contents i := by
    intro disk disk' hw
    rw [RamDisk.write] at hw
    simp only [Sector.ofBytes?, Vector.size_toArray, dite_true, except_ite_eq_ok, Except.ok.injEq,
      reduceCtorEq, and_false, false_or] at hw
    obtain ⟨-, rfl⟩ := hw
    rw [RamDisk.contents_insert]
    exact if_congr eq_comm rfl rfl
  cases d with
  | ram disk =>
    simp only [Device.write, except_bind_eq_ok, except_pure_eq_ok] at h
    obtain ⟨result, hw, h⟩ := h
    cases result with
    | error e => cases h
    | ok disk' =>
      cases h
      exact hram hw
  | absent => cases h
  | defective disk reported badReads badWrites =>
    simp only [Device.write, except_ite_eq_ok, except_bind_eq_ok, except_pure_eq_ok] at h
    rcases h with ⟨-, h⟩ | ⟨-, result, hw, h⟩
    · simp at h
    · cases result with
      | error e => cases h
      | ok disk' =>
        cases h
        exact hram hw

theorem Device.eq_contents_of_read {d : Device} {sector length : Nat} {s : Sector}
    (h : d.read sector length = .ok (.ok s)) : s = d.contents sector := by
  have hram : ∀ {disk : RamDisk}, disk.read sector length = .ok (.ok s) →
      s = disk.contents sector := by
    intro disk hr
    rw [RamDisk.read] at hr
    simp only [except_ite_eq_ok, Except.ok.injEq, reduceCtorEq, and_false, false_or, or_false] at hr
    exact hr.2.2.symm
  cases d with
  | ram disk => exact hram h
  | absent => cases h
  | defective disk reported badReads badWrites =>
    simp only [Device.read, except_ite_eq_ok] at h
    rcases h with ⟨-, h⟩ | ⟨-, h⟩
    · simp at h
    · exact hram h

theorem Block.contents_of_write {b b' : Block} {sector : Nat} {s : Sector}
    (h : b.write sector s.toArray = .ok (.ok b')) (i : Nat) :
    b'.device.contents i = if i = sector then s else b.device.contents i := by
  simp only [Block.write, except_ite_eq_ok, except_bind_eq_ok, except_pure_eq_ok, reduceCtorEq,
    and_false, false_or] at h
  obtain ⟨-, -, -, result, hw, h⟩ := h
  cases result with
  | error e => simp at h
  | ok d =>
    simp only [except_bind_eq_ok, except_pure_eq_ok, Except.ok.injEq] at h
    obtain ⟨_, -, rfl⟩ := h
    exact Device.contents_of_write hw i

theorem Block.contents_of_read {b b' : Block} {sector length : Nat} {s : Sector}
    (h : b.read sector length = .ok (.ok (s, b'))) :
    s = b.device.contents sector ∧ b'.device = b.device := by
  simp only [Block.read, except_ite_eq_ok, except_bind_eq_ok, except_pure_eq_ok, reduceCtorEq,
    and_false, false_or] at h
  obtain ⟨-, -, result, hr, h⟩ := h
  cases result with
  | error e => simp at h
  | ok d =>
    simp only [except_bind_eq_ok, except_pure_eq_ok, Except.ok.injEq, Prod.mk.injEq] at h
    obtain ⟨_, -, rfl, rfl⟩ := h
    exact ⟨Device.eq_contents_of_read hr, rfl⟩

/-! ### Pages of the swap area -/

namespace Swap

variable {s s' : Swap} {device device' : Block} {slot k count : Nat} {page : Page}

theorem firstSector_of_lt (h : slot * sectorsPerPage < 2 ^ 32) :
    firstSector slot = slot * sectorsPerPage := Nat.mod_eq_of_lt h

/-- Storing sectors of a page replaces these sectors of the slot and no others. -/
theorem contents_of_storeSectors (h : storeSectors device slot page k count = .ok device')
    (i : Nat) :
    device'.device.contents i
      = if firstSector slot + k ≤ i ∧ i < firstSector slot + k + count
        then page.sector (i - firstSector slot) else device.device.contents i := by
  induction count generalizing device k with
  | zero =>
    cases h
    rw [if_neg (by omega)]
  | succ count ih =>
    simp only [storeSectors, except_bind_eq_ok, checkedAdd_eq_ok] at h
    obtain ⟨_, ⟨-, rfl⟩, result, hw, h⟩ := h
    cases result with
    | error e => cases h
    | ok b =>
      rw [ih h, Block.contents_of_write hw]
      by_cases hi : i = firstSector slot + k
      · rw [if_neg (by omega), if_pos hi, if_pos (by omega), hi, Nat.add_sub_cancel_left]
      · rw [if_neg hi]
        exact if_congr (by omega) rfl rfl

theorem contents_of_fetchSectors {sectors : List Sector}
    (h : fetchSectors device slot k count = .ok (sectors, device')) :
    sectors = (List.range count).map (fun j =>
      device.device.contents (firstSector slot + k + j)) ∧ device'.device = device.device := by
  induction count generalizing device k sectors with
  | zero =>
    cases h
    exact ⟨rfl, rfl⟩
  | succ count ih =>
    simp only [fetchSectors, except_bind_eq_ok, checkedAdd_eq_ok] at h
    obtain ⟨_, ⟨-, rfl⟩, result, hr, h⟩ := h
    cases result with
    | error e => cases h
    | ok found =>
      obtain ⟨first, b⟩ := found
      simp only [except_bind_eq_ok, except_pure_eq_ok, Prod.mk.injEq] at h
      obtain ⟨⟨rest, b'⟩, hrest, rfl, rfl⟩ := h
      obtain ⟨rfl, hb⟩ := Block.contents_of_read hr
      obtain ⟨rfl, hb'⟩ := ih hrest
      refine ⟨?_, hb'.trans hb⟩
      rw [List.range_succ_eq_map, List.map_cons, List.map_map, hb]
      refine congrArg₂ _ rfl (List.map_congr_left fun j _ => ?_)
      simp only [Function.comp]
      congr 1
      omega

theorem getD_of_lt {n i : Nat} (v : Vector UInt8 n) (hi : i < n) (d : UInt8) :
    v.getD i d = v[i] := by
  rw [Vector.getD, Array.getD_eq_getD_getElem?, Array.getElem?_eq_getElem (by simpa using hi)]
  rfl

/-- A page is the page that its sectors make up. -/
theorem ofSectors_sector (page : Page) :
    Page.ofSectors ((List.range sectorsPerPage).map page.sector) = page := by
  refine Vector.ext fun i hi => ?_
  have hlt : i / sectorSize < sectorsPerPage := by
    simp only [sectorsPerPage, pageSize, sectorSize] at *
    omega
  have hmod : i % sectorSize < sectorSize := Nat.mod_lt _ (by decide)
  have hsum : i / sectorSize * sectorSize + i % sectorSize = i := Nat.div_add_mod' i sectorSize
  simp only [Page.ofSectors, Vector.getElem_ofFn, Array.getD_eq_getD_getElem?,
    List.getElem?_toArray, List.getElem?_map, List.getElem?_range hlt, Option.map_some,
    Option.getD_some]
  rw [getD_of_lt _ hmod, Page.sector, Vector.getElem_ofFn, hsum, getD_of_lt _ hi]

/-- What is stored in a slot is there afterwards, and no other slot has changed. -/
theorem contents_of_store (hslot : slot * sectorsPerPage < 2 ^ 32) (h : s.store slot page = .ok s')
    (j : Nat) : s'.contents j = if j = slot then page else s.contents j := by
  obtain ⟨device, hd, rfl⟩ := store_eq_ok h
  have hsectors := contents_of_storeSectors hd
  rw [firstSector_of_lt hslot] at hsectors
  by_cases hj : j = slot
  · subst hj
    rw [if_pos rfl, contents, ← ofSectors_sector page]
    refine congrArg _ (List.map_congr_left fun k hk => ?_)
    have hk := List.mem_range.1 hk
    rw [hsectors, if_pos (by omega), Nat.add_sub_cancel_left]
  · rw [if_neg hj, contents, contents]
    refine congrArg _ (List.map_congr_left fun k hk => ?_)
    have hk := List.mem_range.1 hk
    have hne : ¬ (slot * sectorsPerPage + 0 ≤ j * sectorsPerPage + k ∧
        j * sectorsPerPage + k < slot * sectorsPerPage + 0 + sectorsPerPage) := by
      simp only [sectorsPerPage, pageSize, sectorSize] at *
      omega
    rw [hsectors, if_neg hne]

/-- What is fetched from a slot is what it stores, and every slot stores the same afterwards. -/
theorem contents_of_fetch (hslot : slot * sectorsPerPage < 2 ^ 32)
    (h : s.fetch slot = .ok (page, s')) :
    page = s.contents slot ∧ ∀ j, s'.contents j = s.contents j := by
  obtain ⟨sectors, device, hd, rfl, rfl⟩ := fetch_eq_ok h
  obtain ⟨rfl, hdevice⟩ := contents_of_fetchSectors hd
  refine ⟨?_, fun j => ?_⟩
  · rw [firstSector_of_lt hslot, contents, Nat.add_zero]
  · simp only [contents, hdevice]

theorem contents_congr (h : s'.device = s.device) (j : Nat) : s'.contents j = s.contents j := by
  simp only [contents, h]

end Swap

/-! ### Pages of a source -/

/-- The old contents of the frame do not matter. -/
theorem PageSource.populate_old (source : PageSource) (view : Handle → File) (old old' : Page) :
    source.populate view old = source.populate view old' := by
  have hfill : ∀ (bytes : Bytes) {n : Nat}, n ≤ bytes.size →
      zeroFrom (overlay old 0 bytes) n = zeroFrom (overlay old' 0 bytes) n := by
    intro bytes n hn
    refine Vector.ext fun i hi => ?_
    rw [getElem_zeroFrom, getElem_zeroFrom]
    split
    · rfl
    · rw [getElem_overlay, getElem_overlay, dif_pos (by omega), dif_pos (by omega)]
  cases source with
  | zero => rfl
  | image file offset read =>
    simp only [populate]
    refine bind_congr fun bytes => ?_
    by_cases hsize : bytes.size = read
    · simp only [hsize, ne_eq, not_true_eq_false, if_false]
      rw [hfill bytes (Nat.le_of_eq hsize.symm)]
    · simp only [ne_eq, hsize, not_false_eq_true, if_true]
      exact Eq.trans (b := .error .shortRead) rfl rfl
  | mapped id file offset =>
    simp only [populate]
    refine bind_congr fun bytes => ?_
    rw [hfill bytes (Nat.le_refl _)]

/-! ### Files that hold a string -/

namespace File

theorem window_of_size_le {data : Bytes} {offset count : Nat} (h : data.size ≤ offset) :
    window data offset count = #[] := by
  rw [window, Array.extract_eq_empty_iff]
  omega

theorem window_zero (data : Bytes) (offset : Nat) : window data offset 0 = #[] := by
  rw [window, Array.extract_eq_empty_iff]
  omega

theorem getElem_window {data : Bytes} {offset count i : Nat}
    (h : i < (window data offset count).size) :
    (window data offset count)[i] = data.getD (offset + i) 0 := by
  have hlt : offset + i < data.size := by
    simp only [window, Array.size_extract] at h
    omega
  simp only [window, Array.getElem_extract, Array.getD_eq_getD_getElem?,
    Array.getElem?_eq_getElem hlt, Option.getD_some]

/-- Behind what a window delivers there is nothing in the file. -/
theorem getD_of_size_window_le {data : Bytes} {offset count i : Nat} (hi : i < count)
    (h : (window data offset count).size ≤ i) : data.getD (offset + i) 0 = 0 := by
  have hge : data.size ≤ offset + i := by
    simp only [window, Array.size_extract] at h
    omega
  rw [Array.getD_eq_getD_getElem?, Array.getElem?_eq_none hge, Option.getD_none]

/-- A read of at most `count` bytes and the rest of them make up the whole. -/
theorem window_append (data : Bytes) {offset count size : Nat} (h : size ≤ count) :
    window data offset size ++
      window data (offset + (window data offset size).size)
        (count - (window data offset size).size) = window data offset count := by
  refine Array.ext_getElem? fun i => ?_
  simp only [window, Array.getElem?_append, Array.getElem?_extract, Array.size_extract]
  by_cases hi : i < min (offset + size) data.size - offset
  · rw [if_pos hi, if_pos hi, if_pos (by omega)]
  · rw [if_neg hi]
    by_cases hi' : i < min (offset + count) data.size - offset
    · rw [if_pos hi', if_pos (by omega)]
      congr 1
      omega
    · rw [if_neg hi', if_neg (by omega)]

/-- A file held in memory holds its bytes. -/
theorem holds_ofBytes (data : Bytes) : (File.ofBytes data).Holds data :=
  fun _ count => ⟨count, Nat.le_refl count, rfl, fun h _ => h⟩

/-- Reading on to the end delivers what the file holds, however it is cut into portions. -/
theorem Holds.readOnto {f : File} {data : Bytes} (h : f.Holds data) (offset count : Nat)
    (done : Bytes) : f.readOnto offset count done = .ok (done ++ window data offset count) := by
  rw [File.readOnto]
  by_cases hcount : count = 0
  · rw [if_pos hcount, hcount, window_zero, Array.append_empty]
  obtain ⟨size, hsize, hread, hpos⟩ := h offset count
  rw [if_neg hcount, hread]
  simp only
  by_cases hempty : (window data offset size).size = 0
  · have hend : data.size ≤ offset := by
      by_contra hlt
      have := hpos (Nat.pos_of_ne_zero hcount) (Nat.lt_of_not_le hlt)
      simp only [window, Array.size_extract] at hempty
      omega
    rw [if_pos hempty, window_of_size_le hend, Array.append_empty]
  · rw [if_neg hempty]
    have : count - (window data offset size).size < count := by omega
    rw [Holds.readOnto h, Array.append_assoc, window_append data hsize]
  termination_by count

theorem Holds.readFull {f : File} {data : Bytes} (h : f.Holds data) (offset count : Nat) :
    f.readFull offset count = .ok (window data offset count) := by
  rw [File.readFull, h.readOnto, Array.empty_append]

/-- A file whose medium fails reads nothing. -/
theorem readFull_broken {f : File} {offset count : Nat} {bytes : Bytes}
    (h : f.broken.readFull offset count = .ok bytes) : count = 0 ∧ bytes = #[] := by
  rw [File.readFull, File.readOnto] at h
  split at h
  · cases h
    exact ⟨‹_›, rfl⟩
  · cases h

end File

/-- A window laid over a buffer, with zeros behind it: nothing is left of the buffer. -/
theorem File.zeroFrom_overlay_window {n : Nat} (old : Vector UInt8 n) (data : Bytes)
    (offset count : Nat) :
    zeroFrom (overlay old 0 (window data offset count)) (window data offset count).size
      = Vector.ofFn fun i => if i.val < count then data.getD (offset + i.val) 0 else 0 := by
  refine Vector.ext fun i hi => ?_
  rw [getElem_zeroFrom, Vector.getElem_ofFn]
  by_cases hsize : (window data offset count).size ≤ i
  · rw [if_pos hsize]
    split
    · exact (getD_of_size_window_le ‹_› hsize).symm
    · rfl
  · have hcount : i < count := by
      have := size_window_le data offset count
      omega
    rw [if_neg hsize, if_pos hcount, getElem_overlay, dif_pos (by omega), getElem_window]
    rfl

namespace PageSource

variable {file : Handle} {data : Handle → Bytes} {id offset read : Nat}

/-- A frame with a stretch of an executable, all of it, and zeros behind it. -/
theorem initial_image (h : (File.window (data file) offset read).size = read) (old : Page) :
    zeroFrom (overlay old 0 (File.window (data file) offset read)) read
      = (image file offset read).initial data := by
  have hfill := File.zeroFrom_overlay_window old (data file) offset read
  rwa [h] at hfill

/-- A frame with one page of a mapped file, as far as the file goes, and zeros behind it. -/
theorem initial_mapped (old : Page) :
    zeroFrom (overlay old 0 (File.window (data file) offset pageSize))
      (File.window (data file) offset pageSize).size = (mapped id file offset).initial data := by
  rw [File.zeroFrom_overlay_window]
  refine Vector.ext fun i hi => ?_
  rw [initial, Vector.getElem_ofFn, Vector.getElem_ofFn, if_pos hi]

end PageSource

/-- What a source fills a frame with is what the page holds at first, if the file it reads holds
`data`, whether its medium fails at the moment or not. -/
theorem PageSource.populate_eq_initial {source : PageSource} {view : Handle → File}
    {data : Handle → Bytes} {old page : Page}
    (hholds : ∀ h, source.handle? = some h → h.file.Holds (data h))
    (hview : ∀ h, view h = h.file ∨ view h = h.file.broken)
    (h : source.populate view old = .ok page) : page = source.initial data := by
  have hread : ∀ {file : Handle} {offset count : Nat} {bytes : Bytes},
      source.handle? = some file → (view file).readFull offset count = .ok bytes →
      bytes = File.window (data file) offset count := by
    intro file offset count bytes hfile hbytes
    rcases hview file with hv | hv
    · rw [hv, (hholds file hfile).readFull] at hbytes
      exact (Except.ok.inj hbytes).symm
    · rw [hv] at hbytes
      obtain ⟨rfl, rfl⟩ := File.readFull_broken hbytes
      exact (File.window_zero _ _).symm
  cases source with
  | zero =>
    cases h
    rfl
  | image file offset read =>
    simp only [populate, except_bind_eq_ok, except_ite_eq_ok, except_throw_ne_ok, false_and,
      exists_false, and_false, false_or, except_pure_eq_ok] at h
    obtain ⟨bytes, hbytes, hsize, rfl⟩ := h
    obtain rfl := hread rfl hbytes
    exact initial_image (by simpa using hsize) old
  | mapped id file offset =>
    simp only [populate, except_bind_eq_ok, except_pure_eq_ok] at h
    obtain ⟨bytes, hbytes, rfl⟩ := h
    obtain rfl := hread rfl hbytes
    exact initial_mapped old

end DemandPaging
