import DemandPaging.Proofs.Availability
import DemandPaging.Proofs.Equipped

/-!
# What a fault can die of

On consistent books every check that a fault makes on its way is passed. What is left is want: no
frame can be had, or the device has made as many transfers as it can count. The panic tells which.

A transfer is reported before it is made, so the log of a run that stopped at a transfer shows it;
the counters of the device do not.

## Main definitions

* `Starves` — no frame can be had, and how that is reported.
* `Overruns` — a transfer that the device cannot count any more.
* `Config.Fits` — the layout lies within 4 GiB.

## Main results

* `PagerM.meets_acquireFrame`, `PagerM.meets_loadPage`, `PagerM.meets_faultIn` — getting a frame,
  loading a page and resolving a fault end, or they panic for one of these reasons.
-/

namespace DemandPaging

/-- Whether an event reports that a page is written to swap. -/
def PagerEvent.isSlotWritten : PagerEvent → Bool
  | .slotWritten _ => true
  | _ => false

/-- Whether an event reports that a page is read from swap. -/
def PagerEvent.isSlotRead : PagerEvent → Bool
  | .slotRead _ => true
  | _ => false

namespace Traced

/-- The number of pages that were to be written to swap so far. -/
def slotsWritten (t : Traced) : Nat := t.log.countP PagerEvent.isSlotWritten

/-- The number of pages that were to be read from swap so far. -/
def slotsRead (t : Traced) : Nat := t.log.countP PagerEvent.isSlotRead

end Traced

/-- Nothing was reported of transfers. -/
def SameTransfers (t t' : Traced) : Prop :=
  t'.slotsWritten = t.slotsWritten ∧ t'.slotsRead = t.slotsRead

/-- The reasons why no frame can be had for page `o`, and the panics that report them. -/
inductive Starves (frames : FramePool) (swap : Swap) (o : FrameOwner) : Panic → Prop
  | pinned (full : frames.allocated = frames.size)
      (pinned : ∀ f < frames.size, 0 < frames.pinsOf f) :
    Starves frames swap o (.allFramesPinned o.pid o.page frames.size)
  | slots (full : frames.allocated = frames.size) (used : swap.free = 0) :
    Starves frames swap o (.outOfSwap swap.slots)

/-- One more page was to be transferred, and the device cannot count its sectors. -/
inductive Overruns (t t' : Traced) : Prop
  | writes (count : 2 ^ 32 ≤ t.pager.swap.device.writes + sectorsPerPage)
      (reported : t'.slotsWritten = t.slotsWritten + 1) : Overruns t t'
  | reads (count : 2 ^ 32 ≤ t.pager.swap.device.reads + sectorsPerPage)
      (reported : t'.slotsRead = t.slotsRead + 1) : Overruns t t'

/-- Getting a frame for page `o` from `t` on stops in `t'` for want of a frame, or of a count. -/
def Halts (t : Traced) (o : FrameOwner) (e : Panic) (t' : Traced) : Prop :=
  Starves t.pager.frames t.pager.swap o e ∨ Overruns t t'

theorem Halts.of_eq {t t₁ t' : Traced} {o : FrameOwner} {e : Panic} (h : Halts t₁ o e t')
    (hframes : t₁.pager.frames = t.pager.frames) (hswap : t₁.pager.swap = t.pager.swap)
    (hsame : SameTransfers t t₁) : Halts t o e t' := by
  rcases h with hstarves | hoverruns
  · exact .inl (hswap ▸ hframes ▸ hstarves)
  · cases hoverruns with
    | writes count reported => exact .inr (.writes (hswap ▸ count) (hsame.1 ▸ reported))
    | reads count reported => exact .inr (.reads (hswap ▸ count) (hsame.2 ▸ reported))

/-- The layout lies within 4 GiB: user memory, the stack in it, and the frames. -/
structure Config.Fits (c : Config) : Prop where
  base_le : c.physBase ≤ 2 ^ 32
  stack_le : c.maxStack ≤ c.physBase
  frames_le : poolBase + c.userFrames * pageSize ≤ 2 ^ 32

theorem Config.exists_isStackAccess {c : Config} (h : c.maxStack ≤ c.physBase) (addr esp : Nat) :
    ∃ b, c.isStackAccess addr esp = .ok b := by
  unfold Config.isStackAccess
  cases c.isUser addr with
  | false => exact ⟨false, rfl⟩
  | true =>
    simp only [Config.stackLimit, checkedSub_of_le h, if_true]
    exact ⟨_, rfl⟩

/-- Frames that lie below 4 GiB have addresses there, on page boundaries. -/
theorem exists_frameAddress {frames f : Nat} (hle : poolBase + frames * pageSize ≤ 2 ^ 32)
    (hf : f < frames) :
    ∃ phys, frameAddress f = .ok phys ∧ pageOffset phys = 0 ∧ phys < 2 ^ 32 := by
  have hsmall : f * pageSize + pageSize ≤ frames * pageSize := by
    rw [← Nat.succ_mul]
    exact Nat.mul_le_mul_right _ hf
  simp only [poolBase, pageSize] at hle hsmall
  refine ⟨poolBase + f * pageSize, ?_, ?_, ?_⟩
  · rw [frameAddress, checkedMul_of_lt (by simp only [pageSize, Nat.pow_eq]; omega),
      except_ok_bind, checkedAdd_of_lt (by simp only [poolBase, pageSize, Nat.pow_eq]; omega)]
  · rw [pageOffset, Nat.add_mul_mod_self_right]
    decide
  · simp only [poolBase, pageSize]
    omega

namespace Pager

variable {p p₁ : Pager} {config : Config} {slots pid page f : Nat} {e : PageEntry} {o : FrameOwner}

/-- The address resolves to a page that is not in a frame: one that is declared, or one by which
the stack grows. -/
def Awaits (p : Pager) (pid addr esp : Nat) : Prop :=
  ∃ e q, p.Finds pid addr esp (some e) q ∧ e.frame? = none

/-- The process of a declared page, and where its entry is found. -/
theorem exists_process_of_declared (h : p.declared o = some e) (hpage : pageOffset o.page = 0) :
    ∃ pr, p.processes[o.pid]? = some pr ∧ pr.pages.lookup o.page = some e := by
  rw [declared, Option.bind_eq_some_iff] at h
  obtain ⟨pr, hpr, he⟩ := h
  exact ⟨pr, hpr, by rwa [PageMap.lookup, pageFloor_of_pageOffset hpage]⟩

/-- The slot of a page is in use and within the area. -/
theorem Owned.isInUse_of_swapped {r : FrameOwner → Option Residency} {swap : Swap} {slot : Nat}
    (h : SlotsOwned swap r) (hr : r o = some (.swapped slot)) :
    swap.isInUse slot = true ∧ slot < swap.slots := by
  have huse := (h.inUse_iff slot).2 ⟨o, hr⟩
  exact ⟨huse, Nat.lt_of_lt_of_le (Swap.lt_size_of_isInUse huse) h.consistent.size_taken⟩

/-- The frame that a page gets is one of the pool's. -/
theorem Acquires.lt_userFrames (h : p.Acquires o f p₁) (ho : Owned config slots p)
    (hmissing : p.Missing o) : p₁.frames.isAllocated f = true ∧ f < config.userFrames := by
  have hlent := h.ownedBy ho hmissing.residency_ne
  have howner : p₁.frames.ownerOf f = some o :=
    (hlent.frames.owners f o).2 (Function.update_self _ _ _)
  have halloc := hlent.frames.consistent.isAllocated_of_ownerOf howner
  exact ⟨halloc, hlent.size_frames ▸ FramePool.lt_size_of_isAllocated halloc⟩

end Pager

namespace PagerM

open Pager (Owned Equipped Missing)

variable {t : Traced} {config : Config} {slots pid page f : Nat} {e : PageEntry}

theorem meets_evict {withdrawn : FramePool} {v : FrameOwner} {o : FrameOwner}
    (ho : Owned config slots t.pager) (hp : t.pager.Equipped) (hfits : t.pager.config.Fits)
    (hfull : t.pager.frames.allocated = t.pager.frames.size)
    (hv : t.pager.residency v = some (.resident f)) (howner : withdrawn.owner f = .ok (some v)) :
    Meets (evict f) (fun _ t' => t'.pager.frames = withdrawn ∧ t'.slotsRead = t.slotsRead ∧
        t'.pager.swap.device.reads = t.pager.swap.device.reads)
      (Halts t o) ⟨{ t.pager with frames := withdrawn }, t.log⟩ := by
  obtain ⟨e, he, hres⟩ := Pager.residency_eq_some.1 hv
  have hpage : pageOffset v.page = 0 := ho.aligned v (by rw [he]; rfl)
  obtain ⟨pr, hpr, hlookup⟩ := Pager.exists_process_of_declared he hpage
  have huser : v.page < 2 ^ 32 := Nat.lt_of_lt_of_le (hp.user v (by rw [he]; rfl)) hfits.base_le
  obtain ⟨space, hspace⟩ := (hp.mappable v.pid pr hpr).exists_clearPage huser
  have hf : f < t.pager.memory.size := by
    rw [hp.size_memory, ho.config_eq, ← ho.size_frames]
    exact ho.frames.consistent.lt_size_of_ownerOf (ho.ownerOf_eq hv)
  obtain ⟨contents, hcontents⟩ := FrameMemory.exists_contents hf
  rw [evict]
  simp only [meets_bind, meets_pager, meets_lift_of_ok howner, meets_process_of_getElem?
    (t := ⟨{ t.pager with frames := withdrawn }, t.log⟩) hpr, hlookup, meets_ite, hres,
    not_true_eq_false, false_implies, true_implies, and_true]
  rw [meets_lift_of_ok hspace]
  rcases ho.swap.consistent.allocate_cases with ⟨-, ⟨slot, taken⟩, halloc⟩ | ⟨hnone, halloc⟩
  · obtain ⟨-, hslots, hdevice, -, hlt, huse⟩ := ho.swap.consistent.allocate halloc
    have hcheck : taken.checkWrite slot = .ok () := by
      rw [Swap.checkWrite, if_pos (by rw [huse, if_pos rfl])]
    have hbacked : taken.Backed := hp.backed.congr hdevice hslots
    have hwritten : (t.log.push (.slotWritten slot)).countP PagerEvent.isSlotWritten
        = t.slotsWritten + 1 := Array.countP_push_of_pos rfl
    rw [meets_lift_of_ok halloc, meets_lift_of_ok hcheck]
    simp only [meets_emit]
    rw [meets_lift_of_ok hcontents]
    -- the report of the transfer is there whether or not the transfer is made
    cases hstore : taken.store slot contents with
    | error e =>
      rw [meets_lift_of_error rfl]
      refine .inr (.writes (Nat.le_of_not_lt fun hroom => ?_) hwritten)
      obtain ⟨s', hs'⟩ := hbacked.exists_store (hslots ▸ hlt) (hdevice ▸ hroom) contents
      rw [hs'] at hstore
      simp at hstore
    | ok swap =>
      have hreads := (Swap.counts_of_store hstore).2.1
      rw [meets_lift_of_ok rfl]
      simp only [meets_setSwap, meets_setProcess]
      refine ⟨trivial, ?_, by rw [hreads, hdevice]⟩
      simp [Traced.slotsRead, PagerEvent.isSlotRead]
  · rw [meets_lift_of_error halloc]
    exact .inl (.slots hfull hnone)

/-- A frame is had unless the pool or the swap area has none, or the device cannot count. -/
theorem meets_acquireFrame (ho : Owned config slots t.pager) (hp : t.pager.Equipped)
    (hfits : t.pager.config.Fits) (o : FrameOwner) :
    Meets (acquireFrame o) (fun _ t' => t'.slotsRead = t.slotsRead ∧
        t'.pager.swap.device.reads = t.pager.swap.device.reads) (Halts t o) t := by
  have hcons := ho.frames.consistent
  rw [acquireFrame]
  simp only [meets_bind, meets_pager]
  rcases hcons.tryAllocate_cases o with ⟨-, f, frames, halloc⟩ | ⟨hfull, halloc⟩
  · simp only [meets_lift_of_ok halloc, meets_setFrames, meets_pure]
    exact ⟨rfl, trivial⟩
  simp only [meets_lift_of_ok halloc, meets_setFrames]
  rcases hcons.selectVictim_cases hfull with ⟨f, withdrawn, hvictim, hf, hpins⟩ | ⟨hnone, hpins⟩
  · obtain ⟨hcons', -, howner'⟩ := hcons.selectVictim hvictim
    have halloc : t.pager.frames.isAllocated f = true := hcons.allocated_eq_size_iff.1 hfull f hf
    rw [← hcons.isSome_ownerOf, Option.isSome_iff_exists] at halloc
    obtain ⟨v, hv⟩ := halloc
    have howner := FramePool.owner_of_ownerOf ((congrFun howner' f).trans hv)
    obtain ⟨frames, hreassign⟩ := hcons'.exists_reassign
      ((FramePool.pinsOf_selectVictim hvictim).1 ▸ hpins) o
    simp only [hvictim, meets_setFrames, meets_bind]
    refine (meets_evict ho hp hfits hfull (ho.residency_eq hv) howner).mono ?_ fun _ _ h => h
    rintro _ t' ⟨hframes, hread⟩
    simp only [meets_pager, meets_lift_of_ok (hframes ▸ hreassign), meets_pure]
    exact hread
  · simp only [hnone]
    exact .inl (.pinned hfull hpins)

/-- What a page holds is fetched unless the device cannot count. -/
theorem meets_fetchContents (hbacked : t.pager.swap.Backed) (hframe : e.frame? = none)
    (hslot : ∀ slot, e.residency = .swapped slot →
      t.pager.swap.isInUse slot = true ∧ slot < t.pager.swap.slots) (old : Page) :
    Meets (fetchContents pid page e old) (fun _ _ => True)
      (fun _ t' => 2 ^ 32 ≤ t.pager.swap.device.reads + sectorsPerPage ∧
        t'.slotsRead = t.slotsRead + 1) t := by
  rw [fetchContents]
  cases hres : e.residency with
  | swapped slot =>
    obtain ⟨huse, hlt⟩ := hslot slot hres
    have hcheck : t.pager.swap.checkRead slot = .ok () := by rw [Swap.checkRead, if_pos huse]
    simp only [meets_bind, meets_emit, meets_pager]
    rw [meets_lift_of_ok hcheck]
    have hread : ((t.log.push (.returning pid page slot)).push (.slotRead slot)).countP
        PagerEvent.isSlotRead = t.slotsRead + 1 := by
      rw [Array.countP_push_of_pos rfl, Array.countP_push_of_neg (by simp [PagerEvent.isSlotRead])]
      rfl
    -- the report of the transfer is there whether or not the transfer is made
    cases hfetch : t.pager.swap.fetch slot with
    | error error =>
      rw [meets_lift_of_error rfl]
      refine ⟨Nat.le_of_not_lt fun hroom => ?_, hread⟩
      obtain ⟨r, hr⟩ := hbacked.exists_fetch hlt hroom
      rw [hr] at hfetch
      simp at hfetch
    | ok r =>
      rw [meets_lift_of_ok rfl]
      simp only [meets_setSwap, meets_pure]
  | notPopulated => simp only [meets_bind, meets_emit, meets_pager, meets_pure]
  | resident f => simp [PageEntry.frame?, hres] at hframe

/-- Once there is a frame for a missing page, below 4 GiB, and what the page holds can be fetched,
nothing that is left of its load stops it. -/
theorem meets_loadPage_of {R : Nat → Traced → Prop} {E : Panic → Traced → Prop}
    (ho : Owned config slots t.pager) (hmemory : t.pager.memory.size = config.userFrames)
    (hmappable : t.pager.All Process.Mappable) (hpage : page < 2 ^ 32)
    (hmissing : t.pager.Missing ⟨pid, page⟩)
    (hacquire : Meets (acquireFrame ⟨pid, page⟩) R E t)
    (hframe : ∀ f t₁, R f t₁ → f < config.userFrames → poolBase + (f + 1) * pageSize ≤ 2 ^ 32)
    (hfetch : ∀ f t₁ e old, R f t₁ → t.pager.Acquires ⟨pid, page⟩ f t₁.pager →
      t₁.pager.declared ⟨pid, page⟩ = some e → e.frame? = none →
      Meets (fetchContents pid page e old) (fun _ _ => True) E t₁) :
    Meets (loadPage pid page) (fun _ _ => True) E t := by
  have hfloor : pageFloor page = page := pageFloor_of_pageOffset hmissing.1
  rw [loadPage, meets_bind]
  refine (hacquire.and_ensures (ensures_acquireFrame ⟨pid, page⟩ t)).mono ?_ fun _ _ h => h
  rintro f t₁ ⟨hR, hacq⟩
  -- the page still waits for its frame, and the frame is one of the pool's
  obtain ⟨-, e, he, hwaits⟩ := hacq.missing ho hmissing
  obtain ⟨pr, hpr, hlookup⟩ := Pager.exists_process_of_declared he hmissing.1
  obtain ⟨halloc, hf⟩ := hacq.lt_userFrames ho hmissing
  have hlent := hacq.ownedBy ho hmissing.residency_ne
  have hmemory₁ : f < t₁.pager.memory.size := by
    rw [hacq.memory_eq.1, hmemory]
    exact hf
  have hmappable₁ : pr.Mappable :=
    hacq.all (fun _ _ hpr hturn => hturn.mappable hpr) hmappable pid pr hpr
  obtain ⟨old, hold⟩ := FrameMemory.exists_contents hmemory₁
  simp only [meets_bind, meets_pager, meets_process_of_getElem? hpr, hlookup]
  rw [meets_lift_of_ok hold]
  refine ((hfetch f t₁ e old hR hacq he hwaits).and_ensures
    (ensures_fetchContents pid page e old t₁)).mono ?_ fun _ _ h => h
  rintro r ⟨p₂, log⟩ ⟨-, swap, rfl, hfetched⟩
  cases r with
  | error error =>
    obtain ⟨frames, hrelease⟩ := hlent.frames.consistent.exists_release halloc
    simp only [meets_bind, meets_pure, meets_releaseFrame_of_ok
      (t := ⟨{ t₁.pager with swap }, log⟩) hrelease]
  | ok contents =>
    obtain ⟨memory, hset⟩ := FrameMemory.exists_setContents hmemory₁ contents
    obtain ⟨phys, haddress, hphys, hphys'⟩ :=
      exists_frameAddress (hframe f t₁ hR hf) (Nat.lt_succ_self f)
    obtain ⟨⟨installed, space⟩, hinstall⟩ :=
      hmappable₁.exists_setPage hfloor hpage hphys hphys' e.writable
    simp only [meets_bind, meets_setContents_of_ok (t := ⟨{ t₁.pager with swap }, log⟩) hset]
    rw [meets_lift_of_ok haddress, meets_lift_of_ok hinstall]
    cases installed with
    | true =>
      simp only [if_true]
      cases hslot? : e.slot? with
      | none => simp only [meets_bind, meets_pure, meets_setProcess]
      | some slot =>
        have huse := Owned.isInUse_of_swapped (hfetched.slotsOwned hlent.swap).1
          ((Pager.residency_of_declared he).trans (congrArg some (Pager.slot_eq_some.1 hslot?)))
        obtain ⟨freed, hfreed⟩ := Swap.exists_release huse.1
        simp only [meets_bind, meets_pure, meets_pager, meets_setProcess]
        rw [meets_lift_of_ok hfreed]
        simp only [meets_setSwap]
    | false =>
      obtain ⟨frames, hrelease⟩ := hlent.frames.consistent.exists_release halloc
      simp only [Bool.false_eq_true, if_false, meets_bind, meets_pure, meets_setProcess]
      exact Iff.mpr (meets_releaseFrame_of_ok hrelease) trivial

/-- A missing page is loaded, or cannot be, unless there is no frame for it or the device cannot
count. -/
theorem meets_loadPage (ho : Owned config slots t.pager) (hp : t.pager.Equipped)
    (hfits : t.pager.config.Fits) (hmissing : t.pager.Missing ⟨pid, page⟩) :
    Meets (loadPage pid page) (fun _ _ => True) (Halts t ⟨pid, page⟩) t := by
  have hconfig := ho.config_eq
  have huser : page < 2 ^ 32 := by
    obtain ⟨-, e, he, -⟩ := hmissing
    exact Nat.lt_of_lt_of_le (hp.user ⟨pid, page⟩ (by rw [he]; rfl)) hfits.base_le
  refine meets_loadPage_of ho (hconfig ▸ hp.size_memory) hp.mappable huser hmissing
    (meets_acquireFrame ho hp hfits ⟨pid, page⟩) (fun f _ _ hf => ?_) ?_
  · have hle := Nat.mul_le_mul_right pageSize (Nat.succ_le_of_lt hf)
    exact Nat.le_trans (Nat.add_le_add_left hle poolBase) (hconfig ▸ hfits.frames_le)
  rintro f t₁ e old ⟨hread, hreads⟩ hacq he hframe
  refine (meets_fetchContents (hacq.backed ho.swap hp.backed) hframe ?_ old).mono
    (fun _ _ h => h) ?_
  · intro slot hres
    exact Owned.isInUse_of_swapped (hacq.ownedBy ho hmissing.residency_ne).swap
      ((Pager.residency_of_declared he).trans (congrArg some hres))
  · rintro error t' ⟨hcount, hlog⟩
    exact .inr (.reads (hreads ▸ hcount) (hread ▸ hlog))

/-! ### Faults -/

variable {addr esp : Nat} {pr : Process}

/-- Finding a page always ends, and moves nothing. -/
theorem meets_findOrGrow (hstack : t.pager.config.maxStack ≤ t.pager.config.physBase)
    (hpr : t.pager.processes[pid]? = some pr) :
    Meets (findOrGrow pid addr esp) (fun _ t' => t'.pager.swap = t.pager.swap ∧
      SameTransfers t t') (fun _ _ => False) t := by
  rw [findOrGrow_eq]
  simp only [meets_bind, meets_process_of_getElem? hpr]
  cases pr.pages.lookup addr with
  | some e => exact ⟨rfl, rfl, rfl⟩
  | none =>
    obtain ⟨stack, haccess⟩ := Config.exists_isStackAccess hstack addr esp
    simp only [meets_bind, meets_pager]
    rw [meets_lift_of_ok haccess]
    cases stack with
    | true =>
      simp only [if_true, meets_bind, meets_emit, meets_setProcess, meets_pure]
      refine ⟨trivial, ?_, ?_⟩
      · simp [Traced.slotsWritten, PagerEvent.isSlotWritten]
      · simp [Traced.slotsRead, PagerEvent.isSlotRead]
    | false => exact ⟨rfl, rfl, rfl⟩

/-- A fault of a registered process ends, unless its page awaits a frame and there is none, or the
device cannot count. -/
theorem meets_faultIn (ho : Owned config slots t.pager) (hp : t.pager.Equipped)
    (hfits : t.pager.config.Fits) (hpr : t.pager.processes[pid]? = some pr) (forWrite : Bool) :
    Meets (faultIn pid addr esp forWrite) (fun _ _ => True)
      (fun e t' => t.pager.Awaits pid addr esp ∧ Halts t ⟨pid, pageFloor addr⟩ e t') t := by
  rw [faultIn]
  simp only [meets_bind, meets_pager, meets_ite, meets_pure, implies_true, and_true]
  intro _
  refine ((meets_findOrGrow hfits.stack_le hpr).and_ensures
    (ensures_findOrGrow pid addr esp t)).mono ?_ fun _ _ h => h.elim
  rintro found t₁ ⟨⟨hswap, hsame⟩, hfinds⟩
  cases found with
  | none => simp only [meets_pure]
  | some e =>
    simp only [meets_ite, meets_pure, implies_true, true_and]
    intro _
    cases hframe : e.frame? with
    | some f => simp only [meets_pure]
    | none =>
      have hmissing : t₁.pager.Missing ⟨pid, pageFloor addr⟩ :=
        ⟨pageOffset_pageFloor addr, e, hfinds.declared_eq, hframe⟩
      have hp₁ := hfinds.steps.equipped ho hp
      have hconfig := (hfinds.steps.owned ho).config_eq.trans ho.config_eq.symm
      refine (meets_loadPage (hfinds.steps.owned ho) hp₁ (hconfig ▸ hfits) hmissing).mono
        (fun _ _ _ => trivial) fun _ _ h => ?_
      exact ⟨⟨e, _, hfinds, hframe⟩, h.of_eq hfinds.frames_eq hswap hsame⟩

end PagerM

end DemandPaging
