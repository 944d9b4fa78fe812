import DemandPaging.Proofs.Outcomes
import DemandPaging.Proofs.Ownership

/-!
# The pins that hold pages in their frames

The core map knows how many pins a frame has, but not which pages they were taken for. Here the
pins that are held are listed, each with its frame and its page, and `FramePool.PinnedBy` says that
the list and the core map agree: a frame has as many pins as the list has for it, and it still
backs the page each of them was taken for. A free frame backs no page, so it has no pins.

With the list fixed this is an invariant of everything that neither pins nor unpins: a load takes a
free frame or the frame of a page without pins. Taking a page from its process is the exception,
since the frame is given back with whatever pins it has; it keeps the agreement as long as the page
is not one of the list's.

## Main definitions

* `FramePool.pinsOf` — the number of pins on a frame.
* `PagePin`, `FramePool.PinnedBy` — the pins that are held, and that the core map counts them.

## Main results

* `FramePool.PinnedBy.pin`, `FramePool.PinnedBy.unpin` — pins come and go one at a time.
* `Pager.Loads.pinnedBy`, `Pager.FaultsIn.pinnedBy` — faults leave every pinned page in its frame.
* `Pager.Step.pinnedBy_of_shrink` — so does taking other pages away.
-/

namespace DemandPaging

/-- Whether pages were faulted in, or pinned, as they were asked for. -/
def Answer.isResolved : Answer → Bool
  | .resolved (.ok _) => true
  | _ => false

/-! ### The pool -/

/-- A pin that is held: its frame, and the page it was taken for. -/
structure PagePin where
  frame : Nat
  owner : FrameOwner
  deriving DecidableEq, Repr

namespace FramePool

variable {p q : FramePool} {o : FrameOwner} {f : Nat} {pins : List PagePin} {a : PagePin}

/-- The number of pins on a frame. -/
def pinsOf (p : FramePool) (f : Nat) : Nat := p.coreMap[f]?.elim 0 fun e => e.pins.toNat

theorem pinsOf_of_getElem? {e : CoreMapEntry} (h : p.coreMap[f]? = some e) :
    p.pinsOf f = e.pins.toNat := by
  rw [pinsOf, h, Option.elim_some]

theorem pinsOf_setEntry {e : CoreMapEntry} (hf : f < p.size) :
    (p.setEntry f e).pinsOf = Function.update p.pinsOf f e.pins.toNat := by
  rw [size] at hf
  funext g
  by_cases h : g = f
  · subst h
    simp [pinsOf, setEntry, hf]
  · simp [pinsOf, setEntry, Function.update_of_ne h, Ne.symm h]

theorem pinsOf_tryAllocate {found : Option Nat} (h : p.tryAllocate o = .ok (found, q)) :
    q.pinsOf = p.pinsOf := by
  rcases tryAllocate_eq_ok h with ⟨-, rfl⟩ | ⟨f, e, -, he, -, rfl⟩
  · rfl
  have hlt : f < p.size := (Array.getElem?_eq_some_iff.1 he).1
  have hset := pinsOf_setEntry (e := e.withAllocated true) hlt
  rw [CoreMapEntry.pins_withAllocated, ← pinsOf_of_getElem? he, Function.update_eq_self] at hset
  exact hset

/-- A victim has no pins. -/
theorem pinsOf_selectVictim (h : p.selectVictim = (some f, q)) :
    q.pinsOf = p.pinsOf ∧ p.pinsOf f = 0 := by
  unfold FramePool.selectVictim Fifo.selectVictim at h
  cases hfind : p.order.queue.find? fun frame => ! p.coreMap[frame]?.any CoreMapEntry.pinned with
  | none => simp [hfind] at h
  | some g =>
    simp only [hfind, Prod.mk.injEq, Option.some.injEq] at h
    obtain ⟨rfl, rfl⟩ := h
    refine ⟨rfl, ?_⟩
    have hunpinned := List.find?_some hfind
    cases hg : p.coreMap[g]? with
    | none => rw [pinsOf, hg, Option.elim_none]
    | some e => simpa [hg, CoreMapEntry.pinned, pinsOf] using hunpinned

theorem pinsOf_reassign (h : p.reassign f o = .ok q) : q.pinsOf = p.pinsOf := by
  simp only [FramePool.reassign, except_bind_eq_ok, except_ite_eq_ok, except_throw_ne_ok,
    except_pure_eq_ok, false_and, exists_false, and_false, or_false, false_or] at h
  obtain ⟨e, -, -, -, -, order, -, rfl⟩ := h
  rfl

/-- Giving a frame back drops its pins. -/
theorem pinsOf_release (h : p.release f = .ok q) : q.pinsOf = Function.update p.pinsOf f 0 := by
  simp only [FramePool.release, except_bind_eq_ok, entry_eq_ok, checkedSub_eq_ok,
    except_pure_eq_ok, except_ite_eq_ok, except_throw_ne_ok, false_and, exists_false, and_false,
    or_false] at h
  obtain ⟨e, he, -, _, -, rfl⟩ := h
  have hlt : f < p.size := (Array.getElem?_eq_some_iff.1 he).1
  exact pinsOf_setEntry (e := .free) hlt

/-- Only a frame in use is pinned. -/
theorem isAllocated_of_pin (h : p.pin f = .ok q) : p.isAllocated f = true := by
  simp only [FramePool.pin, except_bind_eq_ok, entry_eq_ok, except_ite_eq_ok, except_throw_ne_ok,
    false_and, exists_false, and_false, or_false] at h
  obtain ⟨e, he, halloc, -⟩ := h
  exact (isAllocated_of_getElem? he).trans halloc

theorem pinsOf_pin (h : p.pin f = .ok q) :
    q.pinsOf = Function.update p.pinsOf f (p.pinsOf f + 1) := by
  simp only [FramePool.pin, except_bind_eq_ok, entry_eq_ok, except_pure_eq_ok,
    except_ite_eq_ok, except_throw_ne_ok, false_and, exists_false, and_false, or_false] at h
  obtain ⟨e, he, -, hmax, rfl⟩ := h
  have hlt : f < p.size := (Array.getElem?_eq_some_iff.1 he).1
  rw [pinsOf_setEntry hlt, CoreMapEntry.pins_withPins, pinsOf_of_getElem? he]
  congr 1
  simp only [CoreMapEntry.maxPins, Nat.pow_eq] at hmax
  rw [BitVec.toNat_add]
  exact Nat.mod_eq_of_lt (by simp; omega)

theorem pinsOf_unpin (h : p.unpin f = .ok q) :
    0 < p.pinsOf f ∧ q.pinsOf = Function.update p.pinsOf f (p.pinsOf f - 1) := by
  simp only [FramePool.unpin, except_bind_eq_ok, entry_eq_ok, except_pure_eq_ok,
    except_ite_eq_ok, except_throw_ne_ok, false_and, exists_false, and_false, or_false] at h
  obtain ⟨e, he, hpos, rfl⟩ := h
  have hlt : f < p.size := (Array.getElem?_eq_some_iff.1 he).1
  rw [pinsOf_setEntry hlt, CoreMapEntry.pins_withPins, pinsOf_of_getElem? he]
  refine ⟨hpos, ?_⟩
  congr 1
  rw [BitVec.toNat_sub]
  have := e.pins.isLt
  simp
  omega

theorem isPinned_eq (hf : f < p.size) : p.isPinned f = .ok (decide (p.pinsOf f ≠ 0)) := by
  have he : p.coreMap[f]? = some p.coreMap[f] := Array.getElem?_eq_getElem hf
  simp only [isPinned, entry, he, pinsOf_of_getElem? he]
  rfl

theorem isPinned_of_pos (h : 0 < p.pinsOf f) : p.isPinned f = .ok true := by
  have hlt : f < p.size := by
    by_contra hge
    have hnone : p.coreMap[f]? = none := Array.getElem?_eq_none (Nat.le_of_not_lt hge)
    simp [pinsOf, hnone] at h
  rw [isPinned_eq hlt, decide_eq_true (Nat.ne_of_gt h)]

theorem pinsOf_ofSize (frames f : Nat) : (ofSize frames).pinsOf f = 0 := by
  simp only [pinsOf, ofSize, Array.getElem?_replicate]
  split <;> rfl

/-! ### The pins that are held -/

/-- The pins in `pins` are those that the core map counts, and the frame of each of them backs the
page that it was taken for. -/
structure PinnedBy (p : FramePool) (pins : List PagePin) : Prop where
  pinsOf_eq : ∀ f, p.pinsOf f = pins.countP (·.frame = f)
  ownerOf_eq : ∀ pin ∈ pins, p.ownerOf pin.frame = some pin.owner

namespace PinnedBy

theorem perm {pins' : List PagePin} (h : p.PinnedBy pins) (hperm : pins.Perm pins') :
    p.PinnedBy pins' where
  pinsOf_eq f := (h.pinsOf_eq f).trans (hperm.countP_eq _)
  ownerOf_eq a ha := h.ownerOf_eq a (hperm.mem_iff.2 ha)

theorem frame_ne (h : p.PinnedBy pins) (hf : p.pinsOf f = 0) (ha : a ∈ pins) : a.frame ≠ f := by
  rintro rfl
  rw [h.pinsOf_eq, List.countP_eq_zero] at hf
  exact hf a ha (by simp)

theorem pinsOf_eq_zero (h : p.PinnedBy pins) (hf : p.ownerOf f = none) : p.pinsOf f = 0 := by
  rw [h.pinsOf_eq, List.countP_eq_zero]
  intro a ha hframe
  have howner := h.ownerOf_eq a ha
  rw [of_decide_eq_true hframe, hf] at howner
  simp at howner

/-- A frame without pins may change its owner. -/
theorem update {x : Option FrameOwner} (h : p.PinnedBy pins) (hf : p.pinsOf f = 0)
    (hpins : q.pinsOf = p.pinsOf) (howner : q.ownerOf = Function.update p.ownerOf f x) :
    q.PinnedBy pins where
  pinsOf_eq g := by rw [hpins, h.pinsOf_eq]
  ownerOf_eq a ha := by
    rw [howner, Function.update_of_ne (h.frame_ne hf ha), h.ownerOf_eq a ha]

/-- A frame without pins may be given back. -/
theorem release (h : p.PinnedBy pins) (hf : p.pinsOf f = 0) (hcons : p.Consistent [])
    (hrelease : p.release f = .ok q) : q.PinnedBy pins := by
  refine h.update hf ?_ (hcons.release List.not_mem_nil hrelease).2.2.2
  rw [pinsOf_release hrelease, ← hf, Function.update_eq_self]

theorem pin (h : p.PinnedBy pins) (howner : p.ownerOf f = some o)
    (hcons : p.Consistent []) (hpin : p.pin f = .ok q) : q.PinnedBy (⟨f, o⟩ :: pins) where
  pinsOf_eq g := by
    rw [pinsOf_pin hpin, List.countP_cons]
    by_cases hg : g = f
    · subst hg
      simp [h.pinsOf_eq]
    · simp [Function.update_of_ne hg, h.pinsOf_eq, Ne.symm hg]
  ownerOf_eq a ha := by
    rw [(hcons.pin hpin).2.2]
    rcases List.mem_cons.1 ha with rfl | ha
    · exact howner
    · exact h.ownerOf_eq a ha

theorem unpin (h : p.PinnedBy pins) (ha : a ∈ pins) (hcons : p.Consistent [])
    (hunpin : p.unpin a.frame = .ok q) : q.PinnedBy (pins.erase a) where
  pinsOf_eq g := by
    rw [(pinsOf_unpin hunpin).2]
    have hcount := (List.perm_cons_erase ha).countP_eq (·.frame = g)
    rw [← h.pinsOf_eq, List.countP_cons] at hcount
    by_cases hg : g = a.frame
    · subst hg
      rw [Function.update_self, hcount]
      simp
    · rw [Function.update_of_ne hg, hcount]
      simp [Ne.symm hg]
  ownerOf_eq b hb := by
    rw [(hcons.unpin hunpin).2.2]
    exact h.ownerOf_eq b (List.mem_of_mem_erase hb)

theorem pinsOf_pos (h : p.PinnedBy pins) (ha : a ∈ pins) : 0 < p.pinsOf a.frame := by
  rw [h.pinsOf_eq, List.countP_pos_iff]
  exact ⟨a, ha, by simp⟩

/-- A pin that is held can be taken off. -/
theorem exists_unpin (h : p.PinnedBy pins) (ha : a ∈ pins) : ∃ q, p.unpin a.frame = .ok q := by
  have hpos := h.pinsOf_pos ha
  cases he : p.coreMap[a.frame]? with
  | none => simp [pinsOf, he] at hpos
  | some e =>
    rw [pinsOf_of_getElem? he] at hpos
    refine ⟨p.setEntry a.frame (e.withPins (e.pins - 1)), ?_⟩
    simp only [FramePool.unpin, except_bind_eq_ok, entry_eq_ok, except_pure_eq_ok,
      except_ite_eq_ok, except_throw_ne_ok, false_and, exists_false, and_false, or_false]
    exact ⟨e, he, hpos, rfl⟩

theorem ofSize (frames : Nat) : (FramePool.ofSize frames).PinnedBy [] where
  pinsOf_eq f := pinsOf_ofSize frames f
  ownerOf_eq a ha := by simp at ha

end PinnedBy

end FramePool

/-! ### Loads and faults -/

namespace Pager

variable {p p₁ p' : Pager} {config : Config} {slots pid page addr esp f : Nat} {o : FrameOwner}
  {pins : List PagePin}

theorem Owned.ownerOf_eq (hp : Owned config slots p) (h : p.residency o = some (.resident f)) :
    p.frames.ownerOf f = some o := (hp.frames.owners f o).2 h

theorem Owned.residency_eq (hp : Owned config slots p) (h : p.frames.ownerOf f = some o) :
    p.residency o = some (.resident f) := (hp.frames.owners f o).1 h

/-- The pages that are pinned are declared. -/
theorem Owned.declared_of_pin (hp : Owned config slots p) (hpins : p.frames.PinnedBy pins)
    {a : PagePin} (ha : a ∈ pins) : (p.declared a.owner).isSome := by
  obtain ⟨e, he, -⟩ := residency_eq_some.1 (hp.residency_eq (hpins.ownerOf_eq a ha))
  rw [he]
  rfl

/-- The frame that a page gets has no pins, and the pins on other frames stay. -/
theorem Acquires.pinnedBy (h : p.Acquires o f p₁) (hp : Owned config slots p)
    (hpins : p.frames.PinnedBy pins) : p₁.frames.PinnedBy pins ∧ p₁.frames.pinsOf f = 0 := by
  cases h with
  | free found =>
    obtain ⟨-, -, hfree, howner⟩ := hp.frames.consistent.tryAllocate found
    have hzero := hpins.pinsOf_eq_zero (hp.frames.consistent.ownerOf_eq_none hfree)
    have hsame := FramePool.pinsOf_tryAllocate found
    exact ⟨hpins.update hzero hsame howner, hsame ▸ hzero⟩
  | evicting none_free victim owner process entry resident unmapped slot_free held stored
      reassigned =>
    obtain rfl := pages_of_tryAllocate_none none_free
    obtain ⟨hcons, -, howner⟩ := hp.frames.consistent.selectVictim victim
    obtain ⟨-, -, howner'⟩ := hcons.reassign reassigned
    obtain ⟨hsame, hzero⟩ := FramePool.pinsOf_selectVictim victim
    have hsame' := (FramePool.pinsOf_reassign reassigned).trans hsame
    rw [howner] at howner'
    exact ⟨hpins.update hzero hsame' howner', hsame' ▸ hzero⟩

/-- A load leaves every pinned page in its frame, whether it ends well or not. -/
theorem Loads.pinnedBy {result : Except FaultError Nat} (h : p.Loads pid page result p')
    (hp : Owned config slots p) (hmissing : p.Missing ⟨pid, page⟩)
    (hpins : p.frames.PinnedBy pins) : p'.frames.PinnedBy pins := by
  cases h with
  | unreadable acquired process entry held fetched released =>
    obtain ⟨hpins₁, hzero⟩ := acquired.pinnedBy hp hpins
    have hlent := acquired.ownedBy hp hmissing.residency_ne
    exact hpins₁.release hzero hlent.frames.consistent released
  | refused acquired process entry held fetched written address refused released =>
    obtain ⟨hpins₁, hzero⟩ := acquired.pinnedBy hp hpins
    have hlent := acquired.ownedBy hp hmissing.residency_ne
    exact hpins₁.release hzero hlent.frames.consistent released
  | loaded acquired => exact (acquired.pinnedBy hp hpins).1

/-- A page that was loaded is in the frame that the load answers. -/
theorem Loads.residency_eq (h : p.Loads pid page (.ok f) p') (hpage : pageFloor page = page) :
    p'.residency ⟨pid, page⟩ = some (.resident f) := by
  cases h with
  | loaded acquired process entry held fetched written address mapped slot_freed =>
    rw [residency_of_pages_set process rfl rfl hpage, Function.update_self]

/-- A page that was faulted in is in the frame that the fault answers. -/
theorem FaultsIn.residency_eq {forWrite : Bool} (h : p.FaultsIn pid addr esp forWrite (.ok f) p') :
    p'.residency ⟨pid, pageFloor addr⟩ = some (.resident f) := by
  cases h with
  | resident user finds allowed frame =>
    rw [residency_of_declared finds.declared_eq, frame_eq_some.1 frame]
  | load user finds allowed frame loads => exact loads.residency_eq (pageFloor_pageFloor addr)

theorem Finds.frames_eq {found : Option PageEntry} (h : p.Finds pid addr esp found p') :
    p'.frames = p.frames := by
  cases h <;> rfl

/-- A fault leaves every pinned page in its frame. -/
theorem FaultsIn.pinnedBy {forWrite : Bool} {result : Except FaultError Nat}
    (h : p.FaultsIn pid addr esp forWrite result p') (hp : Owned config slots p)
    (hpins : p.frames.PinnedBy pins) : p'.frames.PinnedBy pins := by
  cases h with
  | kernel => exact hpins
  | absent user finds => exact finds.frames_eq ▸ hpins
  | readOnly user finds => exact finds.frames_eq ▸ hpins
  | resident user finds => exact finds.frames_eq ▸ hpins
  | load user finds allowed frame loads =>
    have hmissing : Missing _ ⟨pid, pageFloor addr⟩ :=
      ⟨pageOffset_pageFloor addr, _, finds.declared_eq, frame⟩
    exact loads.pinnedBy (finds.steps.owned hp) hmissing (finds.frames_eq ▸ hpins)

/-- The pin of a copy is taken off again before the copy goes on. -/
theorem pinnedBy_of_pin_unpin {pinned frames : FramePool} (hp : Owned config slots p)
    (hpins : p.frames.PinnedBy pins) (hres : p.residency o = some (.resident f))
    (hpin : p.frames.pin f = .ok pinned) (hunpin : pinned.unpin f = .ok frames) :
    frames.PinnedBy pins := by
  have hmore := hpins.pin (hp.ownerOf_eq hres) hp.frames.consistent hpin
  have hcons := (hp.frames.consistent.pin hpin).1
  have hback := hmore.unpin (a := ⟨f, o⟩) List.mem_cons_self hcons hunpin
  rwa [List.erase_cons_head] at hback

theorem ReadsPiece.pinnedBy {piece : Piece} {result : Except FaultError Bytes}
    (h : p.ReadsPiece pid piece esp result p') (hp : Owned config slots p)
    (hpins : p.frames.PinnedBy pins) : p'.frames.PinnedBy pins := by
  cases h with
  | failed fault => exact fault.pinnedBy hp hpins
  | copied fault pin held unpin =>
    exact pinnedBy_of_pin_unpin (fault.attempts.steps.owned hp) (fault.pinnedBy hp hpins)
      fault.residency_eq pin unpin

theorem WritesPiece.pinnedBy {piece : Piece} {data : Bytes} {result : Except FaultError Unit}
    (h : p.WritesPiece pid piece data esp result p') (hp : Owned config slots p)
    (hpins : p.frames.PinnedBy pins) : p'.frames.PinnedBy pins := by
  cases h with
  | failed fault => exact fault.pinnedBy hp hpins
  | copied fault pin held written unpin =>
    exact pinnedBy_of_pin_unpin (fault.attempts.steps.owned hp) (fault.pinnedBy hp hpins)
      fault.residency_eq pin unpin

/-! ### Taking pages away -/

theorem Step.declared_of_shrink (h : Step .shrink p p') (ho : (p'.declared o).isSome) :
    (p.declared o).isSome := by
  cases h with
  | @remove _ p₁ pid page pr e space process entry releases =>
    have hprocesses := (PagerM.releases_withProcess releases).1
    rw [declared_of_pages_erase (p := p₁) (hprocesses ▸ process) rfl rfl,
      declared_of_processes_eq hprocesses] at ho
    by_cases hpage : o = ⟨pid, page⟩
    · rw [hpage, Function.update_self] at ho
      simp at ho
    · rwa [Function.update_of_ne hpage] at ho
  | discard process bare => rwa [declared_erase_bare process bare] at ho
  | @mappings _ _ pid pr mappings nextSerial process =>
    have hprocesses : ({ p.withProcess pid { pr with mappings } with nextSerial } : Pager).processes
        = p.processes.insert pid { pr with mappings } := rfl
    rwa [declared_of_pages_eq process hprocesses rfl] at ho

/-- As long as a pinned page is still declared, nothing has been done to its frame. -/
theorem Step.pinnedBy_of_shrink (h : Step .shrink p p') (hp : Owned config slots p)
    (hpins : p.frames.PinnedBy pins) (hdeclared : ∀ a ∈ pins, (p'.declared a.owner).isSome) :
    p'.frames.PinnedBy pins := by
  cases h with
  | @remove _ p₁ pid page pr e space process entry releases =>
    have hprocesses := (PagerM.releases_withProcess releases).1
    have hgone : ∀ a ∈ pins, a.owner ≠ ⟨pid, page⟩ := by
      intro a ha hpage
      have hsome := hdeclared a ha
      rw [declared_of_pages_erase (p := p₁) (hprocesses ▸ process) rfl rfl, hpage,
        Function.update_self] at hsome
      simp at hsome
    cases releases with
    | @resident f space' frames residency unmapped released =>
      have howner : p.frames.ownerOf f = some ⟨pid, page⟩ := hp.ownerOf_eq (by
        rw [residency_of_declared (by rwa [declared_of_getElem? process]), residency])
      have hzero : p.frames.pinsOf f = 0 := by
        rw [hpins.pinsOf_eq, List.countP_eq_zero]
        intro a ha hframe
        have := hpins.ownerOf_eq a ha
        rw [of_decide_eq_true hframe, howner, Option.some.injEq] at this
        exact hgone a ha this.symm
      exact hpins.release hzero hp.frames.consistent released
    | swapped => exact hpins
    | notPopulated => exact hpins
  | discard => exact hpins
  | mappings => exact hpins

theorem Steps.pinnedBy_of_shrink (h : Steps (· = .shrink) p p') (hp : Owned config slots p)
    (hpins : p.frames.PinnedBy pins) (hdeclared : ∀ a ∈ pins, (p'.declared a.owner).isSome) :
    p'.frames.PinnedBy pins := by
  refine h.keeps_owned (P := fun q => (∀ a ∈ pins, (q.declared a.owner).isSome) →
    q.frames.PinnedBy pins) hp ?_ (fun _ => hpins) hdeclared
  rintro change q q' rfl hstep ho hq hafter
  have hbefore := fun a ha => hstep.declared_of_shrink (hafter a ha)
  exact hstep.pinnedBy_of_shrink ho (hq hbefore) hafter

end Pager

end DemandPaging
