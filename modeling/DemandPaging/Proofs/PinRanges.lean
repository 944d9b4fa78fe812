import DemandPaging.Proofs.Pins
import Mathlib.Data.List.Nodup

/-!
# Ranges of pages that are pinned

A request to pin takes one pin for each page of its range, and a request to unpin takes one off
each page of its range. Which frames that are is looked up again, so the two agree only because a
pinned page stays in its frame. The loops are stated here for the list of the pins that are held:
pinning adds the pins of a range to it or leaves it as it was, and unpinning removes them.

## Main definitions

* `PinnedRange` — a range of user memory, the pages it has bytes on.
* `Pager.HoldsPins` — the pins that are held are those of a list of ranges.

## Main results

* `Pager.HoldsPins.pinsOf_eq` — a frame has as many pins as there are ranges that cover its page.
* `PagerM.ensures_pin_pinnedBy` — a request to pin takes all of its pins or none.
* `PagerM.meets_unpin` — the pins of a range that is held can be taken off, and no others go.
-/

namespace DemandPaging

/-! ### The pages of a range -/

namespace PageRun

theorem toList_succ (page count : Nat) :
    toList ⟨page, count + 1⟩ = page :: toList ⟨page + pageSize, count⟩ := by
  simp only [toList, List.range_succ_eq_map, List.map_cons, List.map_map, Nat.zero_mul,
    Nat.add_zero, List.cons.injEq, true_and]
  refine List.map_congr_left fun i _ => ?_
  simp only [Function.comp, Nat.succ_mul]
  omega

end PageRun

/-- A range of the memory of a process. -/
structure PinnedRange where
  pid : Nat
  start : Nat
  size : Nat
  deriving DecidableEq, Repr

namespace PinnedRange

variable {r : PinnedRange} {o : FrameOwner}

/-- Whether the range has a byte on the page. -/
def covers (r : PinnedRange) (o : FrameOwner) : Bool :=
  o.pid = r.pid ∧ 0 < r.size ∧ o.page < r.start + r.size ∧ r.start < o.page + pageSize

/-- The pages that the range has bytes on. -/
def pages (r : PinnedRange) : List FrameOwner :=
  if r.size = 0 then []
  else (PageRun.spanning r.start r.size).toList.map (FrameOwner.mk r.pid)

/-- The range ends within 64 bits, or it is empty. -/
def Fits (r : PinnedRange) : Prop := r.size = 0 ∨ r.start + r.size < 2 ^ 64

theorem mem_pages (hr : r.Fits) (ho : pageOffset o.page = 0) : o ∈ r.pages ↔ r.covers o := by
  unfold pages covers
  rcases Nat.eq_zero_or_pos r.size with hsize | hsize
  · simp [hsize]
  have hfits : r.start + r.size < 2 ^ 64 := hr.resolve_left (Nat.ne_of_gt hsize)
  rw [if_neg (Nat.ne_of_gt hsize)]
  simp only [hsize, true_and, decide_eq_true_eq, List.mem_map, PageRun.toList, List.mem_range]
  have hfloor : pageFloor r.start + pageOffset r.start = r.start := pageFloor_add_pageOffset r.start
  have hoffset := pageOffset_lt r.start
  have haligned := pageOffset_pageFloor r.start
  constructor
  · rintro ⟨page, ⟨i, hi, rfl⟩, rfl⟩
    have := PageRun.lt_of_lt_count hfits hi
    refine ⟨rfl, this, ?_⟩
    show r.start < pageFloor r.start + i * pageSize + pageSize
    omega
  · obtain ⟨pid, page⟩ := o
    rintro ⟨rfl, hlt, hgt⟩
    refine ⟨page, ⟨(page - pageFloor r.start) / pageSize, ?_, ?_⟩, rfl⟩
    · simp only [PageRun.spanning, saturatingAdd_eq, pageOffset, pageSize] at *
      omega
    · simp only [PageRun.spanning, pageOffset, pageSize] at *
      omega

theorem nodup_pages (r : PinnedRange) : r.pages.Nodup := by
  unfold pages
  split
  · exact List.nodup_nil
  refine (List.nodup_range.map fun i j hij => ?_).map fun a b hab => ?_
  · simp only [pageSize] at hij
    omega
  · exact (FrameOwner.mk.inj hab).2

/-- As many ranges cover a page as the page comes up among their pages. -/
theorem count_pages {ranges : List PinnedRange} (hr : ∀ r ∈ ranges, r.Fits)
    (ho : pageOffset o.page = 0) :
    (ranges.flatMap pages).count o = ranges.countP (covers · o) := by
  induction ranges with
  | nil => rfl
  | cons r rest ih =>
    rw [List.flatMap_cons, List.count_append, ih fun r' hr' => hr r' (List.mem_cons_of_mem _ hr'),
      List.countP_cons, r.nodup_pages.count, Nat.add_comm]
    exact congrArg _ (if_congr (mem_pages (hr r List.mem_cons_self) ho) rfl rfl)

end PinnedRange

namespace Pager

variable {p : Pager} {config : Config} {slots f : Nat} {o : FrameOwner} {pins : List PagePin}
  {ranges : List PinnedRange}

/-- The pins that are held are those of the ranges, one for each page. -/
structure HoldsPins (p : Pager) (ranges : List PinnedRange) (pins : List PagePin) : Prop where
  pinnedBy : p.frames.PinnedBy pins
  owners_perm : (pins.map PagePin.owner).Perm (ranges.flatMap PinnedRange.pages)
  fits : ∀ r ∈ ranges, r.Fits

/-- The pins on the frame of a page are those that were taken for it. -/
theorem Owned.pinsOf_eq (ho : Owned config slots p) (hpins : p.frames.PinnedBy pins)
    (howner : p.frames.ownerOf f = some o) :
    p.frames.pinsOf f = (pins.map PagePin.owner).count o := by
  rw [hpins.pinsOf_eq, List.count, List.countP_map]
  refine List.countP_congr fun a ha => ?_
  have hown := hpins.ownerOf_eq a ha
  simp only [Function.comp, decide_eq_true_eq, beq_iff_eq]
  constructor
  · rintro rfl
    exact Option.some.inj (hown.symm.trans howner)
  · rintro rfl
    have := (ho.residency_eq hown).symm.trans (ho.residency_eq howner)
    simpa using this

/-- A frame has as many pins as there are ranges that cover its page, and a free frame has none. -/
theorem HoldsPins.pinsOf_eq (h : p.HoldsPins ranges pins) (ho : Owned config slots p) (f : Nat) :
    p.frames.pinsOf f = ranges.countP fun r => (p.frames.ownerOf f).any r.covers := by
  cases howner : p.frames.ownerOf f with
  | none =>
    rw [h.pinnedBy.pinsOf_eq_zero howner]
    simp
  | some o =>
    have haligned : pageOffset o.page = 0 := ho.aligned o (by
      obtain ⟨e, he, -⟩ := residency_eq_some.1 (ho.residency_eq howner)
      rw [he]
      rfl)
    rw [ho.pinsOf_eq h.pinnedBy howner, h.owners_perm.count_eq,
      PinnedRange.count_pages h.fits haligned]
    simp

/-- A page that a range covers is held by a pin. -/
theorem HoldsPins.exists_pin (h : p.HoldsPins ranges pins) {r : PinnedRange} (hr : r ∈ ranges)
    (ho : pageOffset o.page = 0) (hcovers : r.covers o = true) : ∃ a ∈ pins, a.owner = o := by
  have hmem : o ∈ ranges.flatMap PinnedRange.pages :=
    List.mem_flatMap.2 ⟨r, hr, (PinnedRange.mem_pages (h.fits r hr) ho).2 hcovers⟩
  exact List.mem_map.1 (h.owners_perm.mem_iff.2 hmem)

end Pager

/-! ### Pinning a range -/

namespace PagerM

open Pager (Owned Steps Change HoldsPins)

variable {config : Config} {slots pid start esp : Nat} {forWrite : Bool} {pins : List PagePin}
  {t : Traced}

/-- The pins in `taken` are taken off again. -/
theorem ensures_unpinFrames_pinnedBy (taken : List PagePin) (t : Traced)
    (ho : Owned config slots t.pager) (hpins : t.pager.frames.PinnedBy (taken ++ pins)) :
    Ensures (unpinFrames (taken.map PagePin.frame))
      (fun _ t' => t'.pager.frames.PinnedBy pins) t := by
  induction taken generalizing t with
  | nil =>
    rw [List.map_nil, unpinFrames]
    exact ensures_pure.2 hpins
  | cons a rest ih =>
    rw [List.map_cons, unpinFrames]
    simp only [ensures_bind, ensures_unpinFrame]
    intro frames hunpin
    have hless :=
      hpins.unpin (List.mem_append_left _ List.mem_cons_self) ho.frames.consistent hunpin
    rw [List.cons_append, List.erase_cons_head] at hless
    exact ih _ (Pager.Step.owned (.unpin hunpin) ho) hless

/-- The pins that a loop over a run of pages has taken are in `taken`. At the end there is one for
each page besides, or none of them is left. -/
theorem ensures_pinPages_pinnedBy (count : Nat) {page : Nat} (hpage : pageOffset page = 0)
    (hstart : pageFloor start ≤ page) (taken : List PagePin) (t : Traced)
    (ho : Owned config slots t.pager) (hpins : t.pager.frames.PinnedBy (taken ++ pins)) :
    Ensures (pinPages pid start esp forWrite page count (taken.map PagePin.frame))
      (fun result t' => match result with
        | .ok _ => ∃ more : List PagePin, t'.pager.frames.PinnedBy (taken ++ more ++ pins) ∧
          more.map PagePin.owner = (PageRun.toList ⟨page, count⟩).map (FrameOwner.mk pid)
        | .error _ => t'.pager.frames.PinnedBy pins) t := by
  induction count generalizing page taken t with
  | zero =>
    rw [pinPages]
    exact ensures_pure.2 ⟨[], by rwa [List.append_nil], rfl⟩
  | succ count ih =>
    -- on the first page the access starts at `start`, on the others at the page
    have hfloor : pageFloor (max page start) = page := by
      refine (pageFloor_eq_iff hpage).2 ⟨Nat.le_max_left _ _, ?_⟩
      have := pageFloor_add_pageOffset start
      have := pageOffset_lt start
      omega
    rw [pinPages]
    simp only [ensures_bind]
    refine (ensures_faultIn pid (max page start) esp forWrite t).mono ?_
    intro result t₁ hfault
    have ho₁ := hfault.attempts.steps.owned ho
    have hpins₁ := hfault.pinnedBy ho hpins
    cases result with
    | error e =>
      simp only [ensures_bind, ensures_pure]
      exact ensures_unpinFrames_pinnedBy taken t₁ ho₁ hpins₁
    | ok f =>
      simp only [ensures_bind, ensures_pinFrame]
      intro frames hpin
      have hres := hfault.residency_eq
      rw [hfloor] at hres
      have hperm : (⟨f, ⟨pid, page⟩⟩ :: (taken ++ pins)).Perm
          (taken ++ [⟨f, ⟨pid, page⟩⟩] ++ pins) := by
        rw [List.append_assoc]
        exact List.perm_middle.symm
      have hmore := (hpins₁.pin (ho₁.ownerOf_eq hres) ho₁.frames.consistent hpin).perm hperm
      have hrest := ih (pageOffset_add_pageSize hpage) (Nat.le_trans hstart (Nat.le_add_right _ _))
        (taken ++ [⟨f, ⟨pid, page⟩⟩]) ⟨{ t₁.pager with frames }, t₁.log⟩
        (Pager.Step.owned (.pin hpin) ho₁) hmore
      rw [List.map_append] at hrest
      refine hrest.mono fun result t' h => ?_
      cases result with
      | error e => exact h
      | ok _ =>
        obtain ⟨more, hheld, howners⟩ := h
        refine ⟨⟨f, ⟨pid, page⟩⟩ :: more, ?_, ?_⟩
        · rwa [List.append_assoc taken, List.singleton_append] at hheld
        · rw [List.map_cons, howners, PageRun.toList_succ, List.map_cons]

/-- A range is pinned as a whole or not at all. -/
theorem ensures_pin_pinnedBy (pid start size esp : Nat) (forWrite : Bool) (t : Traced)
    (ho : Owned config slots t.pager) (hpins : t.pager.frames.PinnedBy pins) :
    Ensures (Pager.pin pid start size esp forWrite)
      (fun result t' => match result with
        | .ok _ => ∃ more : List PagePin, t'.pager.frames.PinnedBy (more ++ pins) ∧
          more.map PagePin.owner = (PinnedRange.mk pid start size).pages ∧
          (PinnedRange.mk pid start size).Fits
        | .error _ => t'.pager.frames.PinnedBy pins) t := by
  rw [Pager.pin]
  simp only [ensures_bind, ensures_pager, ensures_ite, ensures_pure]
  refine ⟨fun hsize => ⟨[], hpins, by rw [PinnedRange.pages, if_pos hsize]; rfl, .inl hsize⟩,
    fun hsize => ⟨fun huser => ?_, fun _ => hpins⟩⟩
  refine (ensures_pinPages_pinnedBy _ (pageOffset_pageFloor start) (Nat.le_refl _) [] t ho
    hpins).mono fun result t' h => ?_
  cases result with
  | error e => exact h
  | ok _ =>
    obtain ⟨more, hheld, howners⟩ := h
    exact ⟨more, hheld, by rw [howners, PinnedRange.pages, if_neg hsize]; rfl,
      .inr (lt_of_isUserRange huser).1⟩

/-! ### Taking the pins of a range off -/

/-- A pin for the first page of a run is taken off, and the pins for the others are still held. -/
theorem meets_unpinPages {pr : Process} (count : Nat) {page : Nat} (hpage : pageOffset page = 0)
    {others : List FrameOwner} (t : Traced) (ho : Owned config slots t.pager)
    (hpr : t.pager.processes[pid]? = some pr) (hpins : t.pager.frames.PinnedBy pins)
    (howners : (pins.map PagePin.owner).Perm
      ((PageRun.toList ⟨page, count⟩).map (FrameOwner.mk pid) ++ others)) :
    Meets (unpinPages pr.pages page count) (fun _ t' => ∃ left ⊆ pins,
      t'.pager.frames.PinnedBy left ∧ (left.map PagePin.owner).Perm others)
      (fun _ _ => False) t := by
  induction count generalizing page pins t with
  | zero =>
    rw [unpinPages, meets_pure]
    exact ⟨pins, fun _ h => h, hpins, howners⟩
  | succ count ih =>
    rw [PageRun.toList_succ, List.map_cons, List.cons_append] at howners
    obtain ⟨a, ha, howner⟩ := List.mem_map.1 (howners.mem_iff.2 List.mem_cons_self)
    -- the page is still in the frame that it was pinned in
    have hres : t.pager.residency ⟨pid, page⟩ = some (.resident a.frame) :=
      howner ▸ ho.residency_eq (hpins.ownerOf_eq a ha)
    obtain ⟨e, he, hframe⟩ := Pager.residency_eq_some.1 hres
    rw [Pager.declared_of_getElem? hpr] at he
    have hlookup : (pr.pages.lookup page).bind PageEntry.frame? = some a.frame := by
      rw [PageMap.lookup, pageFloor_of_pageOffset hpage, he]
      exact Pager.frame_eq_some.2 hframe
    obtain ⟨frames, hunpin⟩ := hpins.exists_unpin ha
    rw [unpinPages, hlookup]
    simp only [meets_bind]
    rw [meets_unpinFrame_of_ok hunpin]
    have hleft : ((pins.erase a).map PagePin.owner).Perm
        ((PageRun.toList ⟨page + pageSize, count⟩).map (FrameOwner.mk pid) ++ others) := by
      refine List.Perm.cons_inv (a := ⟨pid, page⟩) (.trans ?_ howners)
      rw [← howner, ← List.map_cons]
      exact ((List.perm_cons_erase ha).symm.map _)
    refine (ih (pageOffset_add_pageSize hpage) ⟨{ t.pager with frames }, t.log⟩
      (Pager.Step.owned (.unpin hunpin) ho) hpr (hpins.unpin ha ho.frames.consistent hunpin)
      hleft).mono ?_ fun _ _ h => h
    rintro _ t' ⟨left, hsub, hheld, hothers⟩
    exact ⟨left, fun b hb => List.mem_of_mem_erase (hsub hb), hheld, hothers⟩

/-- The pins of a range that is held are taken off, and no others go. -/
theorem meets_unpin {ranges : List PinnedRange} {r : PinnedRange} (ho : Owned config slots t.pager)
    (h : t.pager.HoldsPins ranges pins) (hr : r ∈ ranges) :
    Meets (Pager.unpin r.pid r.start r.size) (fun _ t' => ∃ left ⊆ pins,
      t'.pager.HoldsPins (ranges.erase r) left) (fun _ _ => False) t := by
  have hperm : (pins.map PagePin.owner).Perm
      (r.pages ++ (ranges.erase r).flatMap PinnedRange.pages) :=
    h.owners_perm.trans ((List.perm_cons_erase hr).flatMap_right _)
  have hfits : ∀ r' ∈ ranges.erase r, r'.Fits := fun r' hr' =>
    h.fits r' (List.mem_of_mem_erase hr')
  rw [Pager.unpin]
  simp only [meets_bind, meets_pager, meets_ite, meets_pure]
  constructor
  · intro hsize
    rw [PinnedRange.pages, if_pos hsize] at hperm
    exact ⟨pins, fun _ ha => ha, h.pinnedBy, hperm, hfits⟩
  · intro hsize
    rw [PinnedRange.pages, if_neg hsize] at hperm
    cases hpr : t.pager.processes[r.pid]? with
    | none =>
      -- no page of a process that is gone is pinned
      have hnone : (PageRun.spanning r.start r.size).toList.map (FrameOwner.mk r.pid) = [] := by
        refine List.eq_nil_iff_forall_not_mem.2 fun o ho' => ?_
        obtain ⟨a, ha, howner⟩ := List.mem_map.1 (hperm.mem_iff.2 (List.mem_append_left _ ho'))
        obtain ⟨page, -, rfl⟩ := List.mem_map.1 ho'
        have hres := ho.residency_eq (h.pinnedBy.ownerOf_eq a ha)
        rw [howner, Pager.residency, Pager.declared_eq_none hpr rfl] at hres
        simp at hres
      rw [hnone, List.nil_append] at hperm
      exact ⟨pins, fun _ ha => ha, h.pinnedBy, hperm, hfits⟩
    | some pr =>
      simp only
      refine (meets_unpinPages _ (pageOffset_pageFloor r.start) t ho hpr h.pinnedBy hperm).mono ?_
        fun _ _ h => h
      rintro _ t' ⟨left, hsub, hheld, hothers⟩
      exact ⟨left, hsub, hheld, hothers, hfits⟩

end PagerM

end DemandPaging
