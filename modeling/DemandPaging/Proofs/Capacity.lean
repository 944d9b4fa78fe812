import DemandPaging.Proofs.Accounting
import DemandPaging.Proofs.Progress

/-!
# When a fault panics, and how many pages fit

A fault that needs a frame panics when there is none: no frame is free, and every frame is pinned
or no slot is free to move a page to. It panics for no other reason, in whatever way the pager came
to be as it is, so pages fit as long as they are fewer than the frames and slots together, and some
frame is not pinned. A page that comes back from swap gives its slot free only after another page
has gone there, so with every frame and every slot in use no page can come back either.

## Main definitions

* `Pager.Exhausted` — no frame can be had.
* `Pager.populatedPages` — the number of pages that are in a frame or in swap.

## Main results

* `Pager.pageFault_panics_iff` — a fault panics exactly if its page awaits a frame and there is
  none.
-/

namespace DemandPaging

namespace Pager

variable {p p₁ p' : Pager} {config : Config} {slots pid addr esp f : Nat} {o : FrameOwner}

/-- No frame can be had: none is free, and every frame is pinned or no slot is free. -/
def Exhausted (p : Pager) : Prop :=
  p.freeFrames = .ok 0 ∧
    ((∀ f < p.config.userFrames, p.frames.isPinned f = .ok true) ∨ p.freeSlots = 0)

/-- The number of pages that are in a frame or in swap. -/
def populatedPages (p : Pager) : Nat := p.allPages.countP fun x => x.2.populated

/-! ### The frames and the slots together -/

/-- A populated page is in a frame or in swap, and not in both. -/
theorem populatedPages_eq (p : Pager) :
    p.populatedPages = (p.allPages.countP fun x => x.2.frame?.isSome)
      + p.allPages.countP fun x => x.2.slot?.isSome := by
  rw [populatedPages]
  induction p.allPages with
  | nil => rfl
  | cons x rest ih =>
    simp only [List.countP_cons, ih]
    cases hres : x.2.residency <;>
      simp [PageEntry.populated, PageEntry.frame?, PageEntry.slot?, hres] <;> omega

theorem Owned.freeFrames_eq_sub (ho : Owned config slots p) :
    p.freeFrames = .ok (p.frames.size - p.frames.allocated) :=
  checkedSub_of_le ho.frames.consistent.allocated_le_size

theorem Owned.freeFrames_eq_zero (ho : Owned config slots p) :
    p.freeFrames = .ok 0 ↔ p.frames.allocated = p.frames.size := by
  have hle := ho.frames.consistent.allocated_le_size
  rw [ho.freeFrames_eq_sub, Except.ok.injEq]
  omega

theorem Owned.isPinned_eq (ho : Owned config slots p) (hf : f < config.userFrames) (b : Bool) :
    p.frames.isPinned f = .ok b ↔ decide (p.frames.pinsOf f ≠ 0) = b := by
  rw [FramePool.isPinned_eq (ho.size_frames ▸ hf), Except.ok.injEq]

/-- With every frame in use and no slot free, as many pages are populated as there are frames and
slots. -/
theorem Owned.populatedPages_of_full (ho : Owned config slots p) (hframes : p.freeFrames = .ok 0)
    (hslots : p.freeSlots = 0) : p.populatedPages = config.userFrames + slots := by
  obtain ⟨hresident, hfree⟩ := ho.accounted.freeFrames_eq
  obtain ⟨hswapped, hfree'⟩ := ho.accounted.freeSlots_eq
  rw [hfree, Except.ok.injEq] at hframes
  rw [hfree'] at hslots
  rw [populatedPages_eq]
  omega

/-! ### Faults -/

/-- An address that resolves to a page is a user address. -/
theorem Finds.isUser {e : PageEntry} (h : p.Finds pid addr esp (some e) p₁) (hp : p.Equipped)
    (hbase : pageOffset p.config.physBase = 0) : p.config.isUser addr = true := by
  rw [Config.isUser, decide_eq_true_eq]
  cases h with
  | declared process entry =>
    have huser := hp.user ⟨pid, pageFloor addr⟩
      (by rw [declared_of_getElem? process, ← PageMap.lookup, entry]; rfl)
    have := pageFloor_add_pageOffset addr
    have := pageOffset_lt addr
    have := pageOffset_pageFloor addr
    simp only [pageOffset, pageSize] at *
    omega
  | grown process undeclared stack => exact isUser_of_isStackAccess stack

theorem Finds.unique {found found' : Option PageEntry} {p₂ : Pager}
    (h : p.Finds pid addr esp found p₁) (h' : p.Finds pid addr esp found' p₂) :
    found = found' := by
  cases h <;> cases h' <;> simp_all

/-- A fault on a page that awaits a frame loads it. -/
theorem FaultsIn.loads_of_awaits {result : Except FaultError Nat}
    (h : p.FaultsIn pid addr esp false result p') (hp : p.Equipped)
    (hbase : pageOffset p.config.physBase = 0) (hawaits : p.Awaits pid addr esp) :
    ∃ e q, p.Finds pid addr esp (some e) q ∧ e.frame? = none ∧
      q.Loads pid (pageFloor addr) result p' := by
  obtain ⟨e, q, hfinds, hframe⟩ := hawaits
  cases h with
  | kernel kernel =>
    rw [hfinds.isUser hp hbase] at kernel
    simp at kernel
  | absent user finds => simpa using hfinds.unique finds
  | readOnly user finds forbidden => simp at forbidden
  | resident user finds allowed frame =>
    rw [← Option.some.inj (hfinds.unique finds), hframe] at frame
    simp at frame
  | load user finds allowed frame loads => exact ⟨_, _, finds, frame, loads⟩

/-- Finding a page takes nothing and gives nothing back. -/
theorem Finds.exhausted {found : Option PageEntry} (h : p.Finds pid addr esp found p₁)
    (hp : p.Exhausted) : p₁.Exhausted := by
  cases h <;> exact hp

/-- Where a frame was had, the pager was not exhausted. -/
theorem Acquires.not_exhausted (h : p.Acquires o f p₁) (ho : Owned config slots p) :
    ¬ p.Exhausted := by
  rintro ⟨hfree, hnone⟩
  have hfull := ho.freeFrames_eq_zero.1 hfree
  have hcons := ho.frames.consistent
  cases h with
  | free found =>
    rcases hcons.tryAllocate_cases o with ⟨hlt, -⟩ | ⟨-, halloc⟩
    · exact Nat.ne_of_lt hlt hfull
    · simp [found] at halloc
  | evicting none_free victim owner process entry resident unmapped slot_free =>
    obtain rfl := pages_of_tryAllocate_none none_free
    have hf : f < config.userFrames := by
      rw [← ho.size_frames, ← (hcons.selectVictim victim).2.1]
      exact FramePool.lt_size_of_isAllocated
        (((hcons.selectVictim victim).1.mem_iff f).1 (by simp))
    rcases hnone with hpinned | hslots
    · have := (ho.isPinned_eq hf true).1 (hpinned f (ho.config_eq ▸ hf))
      simp [(FramePool.pinsOf_selectVictim victim).2] at this
    · rcases ho.swap.consistent.allocate_cases with ⟨hpos, -⟩ | ⟨-, halloc⟩
      · exact Nat.ne_of_gt hpos hslots
      · simp [slot_free] at halloc

theorem exhausted_of_starves {e : Panic} (h : Starves p.frames p.swap o e)
    (ho : Owned config slots p) : p.Exhausted := by
  cases h with
  | pinned full pinned =>
    refine ⟨ho.freeFrames_eq_zero.2 full, .inl fun f hf => ?_⟩
    rw [ho.config_eq] at hf
    have := pinned f (ho.size_frames ▸ hf)
    rw [ho.isPinned_eq hf, decide_eq_true_eq]
    omega
  | slots full used => exact ⟨ho.freeFrames_eq_zero.2 full, .inr used⟩

end Pager

namespace PagerM

open Pager (Owned Equipped Awaits)

variable {t : Traced} {config : Config} {slots pid addr esp : Nat} {pr : Process}

theorem ensures_pageFault_faultsIn (pid addr esp : Nat) (t : Traced) :
    Ensures (Pager.pageFault pid addr esp)
      (fun answer t' => ∃ r, answer = r.map (fun _ => ()) ∧
        t.pager.FaultsIn pid addr esp false r t'.pager) t := by
  rw [Pager.pageFault]
  simp only [ensures_bind, ensures_emit, ensures_pure]
  exact (ensures_faultIn pid addr esp false _).mono fun r _ h => ⟨r, rfl, h⟩

theorem meets_pageFault (ho : Owned config slots t.pager) (hp : t.pager.Equipped)
    (hfits : t.pager.config.Fits) (hpr : t.pager.processes[pid]? = some pr) :
    Meets (Pager.pageFault pid addr esp) (fun _ _ => True)
      (fun e t' => t.pager.Awaits pid addr esp ∧ Halts t ⟨pid, pageFloor addr⟩ e t') t := by
  rw [Pager.pageFault]
  simp only [meets_bind, meets_emit, meets_pure]
  refine (meets_faultIn (t := ⟨t.pager, t.log.push (.faulting pid addr esp)⟩) ho hp hfits hpr
    false).mono (fun _ _ _ => trivial) ?_
  rintro e t' ⟨hawaits, hhalts⟩
  refine ⟨hawaits, hhalts.of_eq rfl rfl ⟨?_, ?_⟩⟩
  · simp [Traced.slotsWritten, PagerEvent.isSlotWritten]
  · simp [Traced.slotsRead, PagerEvent.isSlotRead]

/-- Where a page awaits a frame and there is none, the fault does not end. -/
theorem not_ends_pageFault (ho : Owned config slots t.pager) (hp : t.pager.Equipped)
    (hbase : pageOffset t.pager.config.physBase = 0) (hawaits : t.pager.Awaits pid addr esp)
    (hexhausted : t.pager.Exhausted) : ¬ Ends (Pager.pageFault pid addr esp) t := by
  rintro ⟨r, ⟨p', log⟩, hrun⟩
  obtain ⟨result, -, hfault⟩ := ensures_pageFault_faultsIn pid addr esp t r _ hrun
  obtain ⟨e, q, finds, -, loads⟩ := hfault.loads_of_awaits hp hbase hawaits
  have ho₁ := finds.steps.owned ho
  have hexhausted₁ := finds.exhausted hexhausted
  cases loads with
  | unreadable acquired => exact acquired.not_exhausted ho₁ hexhausted₁
  | refused acquired => exact acquired.not_exhausted ho₁ hexhausted₁
  | loaded acquired => exact acquired.not_exhausted ho₁ hexhausted₁

end PagerM

namespace Pager

variable {config : Config} {name : String} {disk : RamDisk} {ops : List Op}
  {answers : List Answer} {t : Traced} {pid addr esp : Nat}

/-- After any run a fault panics exactly if its page awaits a frame and none can be had. So it does
not panic while some frame is not pinned and fewer pages are populated than there are frames and
slots, and it never panics for another reason. -/
theorem pageFault_panics_iff (hbase : pageOffset config.physBase = 0)
    (hbase' : config.physBase ≤ 2 ^ 32) (hstack : config.maxStack ≤ config.physBase)
    (hframes : poolBase + config.userFrames * pageSize ≤ 2 ^ 32) (hdisk : disk.sectors ≤ 2 ^ 32)
    (h : (run ops).run (.start config (.attach .swap name (.ram disk))) = .ok answers t)
    (hreads : t.pager.swap.device.reads < 2 ^ 32 - 8)
    (hwrites : t.pager.swap.device.writes < 2 ^ 32 - 8)
    (hpid : (t.pager.processes[pid]?).isSome) :
    (¬ PagerM.Ends (pageFault pid addr esp) t ↔ t.pager.Awaits pid addr esp ∧ t.pager.Exhausted) ∧
      ((∃ f < config.userFrames, t.pager.frames.isPinned f = .ok false) →
        t.pager.populatedPages < config.userFrames + t.pager.swap.slots →
        PagerM.Ends (pageFault pid addr esp) t) ∧
      ∀ e t', (pageFault pid addr esp).run t = .error e t' →
        e = .allFramesPinned pid (pageFloor addr) config.userFrames ∨
          e = .outOfSwap t.pager.swap.slots := by
  have hsteps := PagerM.ensures_run ops _ answers t h
  have hstart := owned_ofConfig config (.attach .swap name (.ram disk))
  have ho := hsteps.owned hstart
  have hp := hsteps.equipped hstart (equipped_ofConfig config (Block.Healthy.attach name hdisk))
  have hconfig := ho.config_eq
  have hfits : t.pager.config.Fits := hconfig ▸ ⟨hbase', hstack, hframes⟩
  obtain ⟨pr, hpr⟩ := Option.isSome_iff_exists.1 hpid
  have hsectors : sectorsPerPage = 8 := rfl
  -- the device can count the transfers of one more fault, so only want of a frame is left
  have hmeets : PagerM.Meets (pageFault pid addr esp) (fun _ _ => True)
      (fun e _ => t.pager.Awaits pid addr esp ∧
        Starves t.pager.frames t.pager.swap ⟨pid, pageFloor addr⟩ e) t := by
    refine (PagerM.meets_pageFault ho hp hfits hpr).mono (fun _ _ h => h) ?_
    rintro e t' ⟨hawaits, hstarves | hoverruns⟩
    · exact ⟨hawaits, hstarves⟩
    · cases hoverruns <;> omega
  have hcause : ¬ PagerM.Ends (pageFault pid addr esp) t →
      t.pager.Awaits pid addr esp ∧ t.pager.Exhausted := by
    intro hends
    cases hrun : (pageFault pid addr esp).run t with
    | ok r t' => exact absurd ⟨r, t', hrun⟩ hends
    | error e t' =>
      obtain ⟨hawaits, hstarves⟩ := hmeets.of_error hrun
      exact ⟨hawaits, exhausted_of_starves hstarves ho⟩
  refine ⟨⟨hcause, ?_⟩, ?_, ?_⟩
  · rintro ⟨hawaits, hexhausted⟩
    exact PagerM.not_ends_pageFault ho hp (hconfig ▸ hbase) hawaits hexhausted
  · rintro ⟨f, hf, hunpinned⟩ hroom
    by_contra hends
    obtain ⟨-, hfree, hpinned | hslots⟩ := hcause hends
    · rw [hpinned f (hconfig ▸ hf)] at hunpinned
      simp at hunpinned
    · rw [ho.size_slots, ho.populatedPages_of_full hfree hslots] at hroom
      exact Nat.lt_irrefl _ hroom
  · intro e t' hrun
    obtain ⟨-, hstarves⟩ := hmeets.of_error hrun
    cases hstarves with
    | pinned full pinned => exact .inl (by rw [ho.size_frames])
    | slots full used => exact .inr rfl

/-- Without swap one frame holds one page, and the second page does not fit. -/
theorem pageFault_panics_second_page : ∃ config ops answers t,
    config = { userFrames := 1, swapSlots := 0 } ∧
    ops = [.register 1, .declareZero 1 0x1000 true, .declareZero 1 0x2000 true,
      .pageFault 1 0x1000 0] ∧
    (run ops).run (.start config (.attach .swap "swap" (.ram (.blank 8)))) = .ok answers t ∧
    ¬ PagerM.Ends (pageFault 1 0x2000 0) t ∧
    (¬ PagerM.Ends (pageFault 1 0x2000 0) t ↔ t.pager.Awaits 1 0x2000 0 ∧ t.pager.Exhausted) ∧
      ((∃ f < config.userFrames, t.pager.frames.isPinned f = .ok false) →
        t.pager.populatedPages < config.userFrames + t.pager.swap.slots →
        PagerM.Ends (pageFault 1 0x2000 0) t) ∧
      ∀ e t', (pageFault 1 0x2000 0).run t = .error e t' →
        e = .allFramesPinned 1 (pageFloor 0x2000) config.userFrames ∨
          e = .outOfSwap t.pager.swap.slots := by
  have hrun : ∃ answers t,
      (run [.register 1, .declareZero 1 0x1000 true, .declareZero 1 0x2000 true,
        .pageFault 1 0x1000 0]).run (.start { userFrames := 1, swapSlots := 0 }
          (.attach .swap "swap" (.ram (.blank 8)))) = .ok answers t ∧
        t.pager.swap.device.reads < 2 ^ 32 - 8 ∧ t.pager.swap.device.writes < 2 ^ 32 - 8 ∧
        (t.pager.processes[1]?).isSome ∧ ¬ PagerM.Ends (pageFault 1 0x2000 0) t := by
    decide +kernel
  obtain ⟨answers, t, h, hreads, hwrites, hpid, hpanics⟩ := hrun
  exact ⟨_, _, answers, t, rfl, rfl, h, hpanics, pageFault_panics_iff (by decide) (by decide)
    (by decide) (by decide) (by decide) h hreads hwrites hpid⟩

end Pager

end DemandPaging
