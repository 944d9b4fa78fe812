import DemandPaging.Proofs.Progress

/-!
# Transfers are counted as they are reported

The device counts the sectors that it moves, and the pager reports every page that it sends to the
device or asks it for. The two never part: a page that was reported and moved is eight sectors, and
nothing else moves a sector. So whether the device can count a run is a matter of its log.

## Main definitions

* `Traced.Tallied` — the device has counted what was reported.

## Main results

* `PagerM.tallied_evict`, `PagerM.tallied_fetchContents` — the two transfers.
* `PagerM.tallied_faultIn`, `PagerM.tallied_destroy` — requests that make transfers, or none.
-/

namespace DemandPaging

/-- The device has counted the transfers that were reported. -/
structure Traced.Tallied (t : Traced) : Prop where
  writes_eq : t.pager.swap.device.writes = t.slotsWritten * sectorsPerPage
  reads_eq : t.pager.swap.device.reads = t.slotsRead * sectorsPerPage

theorem Traced.Tallied.congr {t t' : Traced} (h : t.Tallied)
    (hdevice : t'.pager.swap.device = t.pager.swap.device) (hsame : SameTransfers t t') :
    t'.Tallied where
  writes_eq := by rw [hdevice, hsame.1, h.writes_eq]
  reads_eq := by rw [hdevice, hsame.2, h.reads_eq]

/-- At boot there is nothing to count. -/
theorem Traced.Tallied.start (config : Config) {device : Block} (hwrites : device.writes = 0)
    (hreads : device.reads = 0) : (Traced.start config device).Tallied where
  writes_eq := hwrites
  reads_eq := hreads

/-- A device that has counted what was reported can count what is reported next. -/
theorem Traced.Tallied.not_overruns {t t' : Traced} (h : t.Tallied)
    (hwritten : t'.slotsWritten * sectorsPerPage < 2 ^ 32)
    (hread : t'.slotsRead * sectorsPerPage < 2 ^ 32) : ¬ Overruns t t' := by
  intro hoverruns
  cases hoverruns with
  | writes count reported =>
    rw [reported, Nat.succ_mul, ← h.writes_eq] at hwritten
    omega
  | reads count reported =>
    rw [reported, Nat.succ_mul, ← h.reads_eq] at hread
    omega

theorem Swap.device_of_allocate {s s' : Swap} {slot : Nat} (h : s.allocate = .ok (slot, s')) :
    s'.device = s.device := by
  unfold Swap.allocate at h
  cases hf : s.firstFree? with
  | none => simp [hf] at h
  | some i =>
    simp only [hf, except_bind_eq_ok, except_pure_eq_ok, Prod.mk.injEq] at h
    obtain ⟨_, -, -, rfl⟩ := h
    rfl

namespace PagerM

open Traced (Tallied)

variable {α : Type} {pid page addr esp f : Nat}

/-! ### What moves nothing -/

theorem tallied_update {g : Pager → Pager} (hg : ∀ p, (g p).swap.device = p.swap.device) :
    Keeps Tallied (update g) :=
  fun t ht => ensures_update.2 (ht.congr (hg t.pager) ⟨rfl, rfl⟩)

theorem tallied_setProcess (pid : Nat) (pr : Process) : Keeps Tallied (setProcess pid pr) :=
  tallied_update fun _ => rfl

theorem tallied_setFrames (frames : FramePool) : Keeps Tallied (setFrames frames) :=
  tallied_update fun _ => rfl

theorem tallied_emit {event : PagerEvent} (hwritten : event.isSlotWritten = false)
    (hread : event.isSlotRead = false) : Keeps Tallied (emit event) := by
  intro t ht
  refine ensures_emit.2 (ht.congr rfl ⟨?_, ?_⟩)
  · simp [Traced.slotsWritten, hwritten]
  · simp [Traced.slotsRead, hread]

theorem tallied_setContents (frame : Nat) (page : Page) :
    Keeps Tallied (setContents frame page) :=
  keeps_pager.bind fun _ => (keeps_lift _).bind fun _ => tallied_update fun _ => rfl

theorem tallied_releaseFrame (frame : Nat) : Keeps Tallied (releaseFrame frame) :=
  keeps_pager.bind fun _ => (keeps_lift _).bind fun _ => tallied_setFrames _

theorem tallied_pinFrame (frame : Nat) : Keeps Tallied (pinFrame frame) :=
  keeps_pager.bind fun _ => (keeps_lift _).bind fun _ => tallied_setFrames _

theorem tallied_unpinFrame (frame : Nat) : Keeps Tallied (unpinFrame frame) :=
  keeps_pager.bind fun _ => (keeps_lift _).bind fun _ => tallied_setFrames _

/-! ### The transfers -/

/-- A page that is moved to swap is reported and written. -/
theorem tallied_evict (frame : Nat) : Keeps Tallied (evict frame) := by
  intro t ht
  rw [evict]
  simp only [ensures_bind, ensures_pager, ensures_lift]
  intro owner _
  cases owner with
  | none => simp
  | some v =>
    simp only [ensures_bind, ensures_process]
    intro pr _
    cases pr.pages.lookup v.page with
    | none => simp
    | some e =>
      simp only [ensures_ite, ensures_bind, ensures_throw, ensures_lift, ensures_pager,
        ensures_emit, ensures_setSwap, ensures_setProcess, implies_true, and_true]
      rintro - space - ⟨slot, taken⟩ hslot _ - contents - swap hstored
      obtain ⟨-, hreads, hwrites, -⟩ := Swap.counts_of_store hstored
      rw [Swap.device_of_allocate hslot] at hreads hwrites
      constructor
      · show swap.device.writes = _
        rw [hwrites, ht.writes_eq, ← Nat.succ_mul]
        simp [Traced.slotsWritten, Array.countP_push, PagerEvent.isSlotWritten]
      · show swap.device.reads = _
        rw [hreads, ht.reads_eq]
        simp [Traced.slotsRead, PagerEvent.isSlotRead]

/-- A page that comes back from swap is reported and read. -/
theorem tallied_fetchContents (pid page : Nat) (e : PageEntry) (old : Page) :
    Keeps Tallied (fetchContents pid page e old) := by
  intro t ht
  rw [fetchContents]
  cases e.residency with
  | swapped slot =>
    simp only [ensures_bind, ensures_emit, ensures_pager, ensures_lift, ensures_setSwap,
      ensures_pure]
    rintro _ - ⟨contents, swap⟩ hfetch
    have hdevice := Swap.counts_of_fetch hfetch
    constructor
    · show swap.device.writes = _
      rw [hdevice, ht.writes_eq]
      simp [Traced.slotsWritten, PagerEvent.isSlotWritten]
    · show swap.device.reads = _
      rw [hdevice, ht.reads_eq, ← Nat.succ_mul]
      simp [Traced.slotsRead, Array.countP_push, PagerEvent.isSlotRead]
  | notPopulated =>
    have hpopulate : Keeps Tallied (do
        emit (.populating pid page e.source.describe)
        return e.source.populate (← pager).view old) :=
      (tallied_emit rfl rfl).bind fun _ => keeps_pager.bind fun _ => keeps_pure _
    exact hpopulate t ht
  | resident f => exact keeps_throw _ t ht

/-! ### Faults -/

theorem tallied_acquireFrame (o : FrameOwner) : Keeps Tallied (acquireFrame o) := by
  rw [acquireFrame]
  refine keeps_pager.bind fun _ => (keeps_lift _).bind ?_
  rintro ⟨found, frames⟩
  refine (tallied_setFrames _).bind fun _ => ?_
  cases found with
  | some f => exact keeps_pure f
  | none =>
    simp only
    cases frames.selectVictim with
    | mk victim withdrawn =>
      refine (tallied_setFrames _).bind fun _ => ?_
      cases victim with
      | none => exact keeps_throw _
      | some f =>
        exact (tallied_evict f).bind fun _ => keeps_pager.bind fun _ =>
          (keeps_lift _).bind fun _ => (tallied_setFrames _).bind fun _ => keeps_pure f

theorem tallied_releaseSlot (slot : Nat) {g : PagerM α} (hg : Keeps Tallied g) :
    Keeps Tallied (do setSwap (← (← pager).swap.release slot); g) := by
  intro t ht
  simp only [ensures_bind, ensures_pager, ensures_lift, ensures_setSwap]
  intro swap hswap
  exact hg _ (ht.congr (Swap.device_of_release hswap) ⟨rfl, rfl⟩)

theorem tallied_loadPage (pid page : Nat) : Keeps Tallied (loadPage pid page) := by
  rw [loadPage]
  refine (tallied_acquireFrame _).bind fun f => (keeps_process pid).bind fun pr => ?_
  cases pr.pages.lookup page with
  | none => exact keeps_throw _
  | some e =>
    refine keeps_pager.bind fun _ => (keeps_lift _).bind fun old =>
      (tallied_fetchContents pid page e old).bind fun fetched => ?_
    cases fetched with
    | error e => exact (tallied_releaseFrame f).bind fun _ => keeps_pure _
    | ok contents =>
      refine (tallied_setContents f contents).bind fun _ => (keeps_lift _).bind fun _ =>
        (keeps_lift _).bind ?_
      rintro ⟨installed, space⟩
      refine .ite ?_ ?_
      · have hend := fun pr => (tallied_setProcess pid pr).bind fun _ =>
          keeps_pure (P := Tallied) (Except.ok f : Except FaultError Nat)
        cases e.slot? with
        | none => exact hend _
        | some slot => exact tallied_releaseSlot slot (hend _)
      · exact (tallied_setProcess _ _).bind fun _ =>
          (tallied_releaseFrame f).bind fun _ => keeps_pure _

theorem tallied_findOrGrow (pid addr esp : Nat) : Keeps Tallied (findOrGrow pid addr esp) := by
  rw [findOrGrow_eq]
  refine (keeps_process pid).bind fun pr => ?_
  cases pr.pages.lookup addr with
  | some e => exact keeps_pure _
  | none =>
    refine keeps_pager.bind fun _ => (keeps_lift _).bind fun _ => .ite ?_ (keeps_pure _)
    exact (tallied_emit rfl rfl).bind fun _ => (tallied_setProcess _ _).bind fun _ => keeps_pure _

theorem tallied_faultIn (pid addr esp : Nat) (forWrite : Bool) :
    Keeps Tallied (faultIn pid addr esp forWrite) := by
  rw [faultIn]
  refine keeps_pager.bind fun _ => .ite ?_ (keeps_pure _)
  refine (tallied_findOrGrow pid addr esp).bind fun found => ?_
  cases found with
  | none => exact keeps_pure _
  | some e =>
    refine .ite (keeps_pure _) ?_
    cases e.frame? with
    | some f => exact keeps_pure _
    | none => exact tallied_loadPage pid _

theorem tallied_pinPage (pid addr esp : Nat) (forWrite : Bool) :
    Keeps Tallied (pinPage pid addr esp forWrite) := by
  rw [pinPage]
  refine (tallied_faultIn pid addr esp forWrite).bind fun r => ?_
  cases r with
  | error e => exact keeps_pure _
  | ok f => exact (tallied_pinFrame f).bind fun _ => keeps_pure _

theorem tallied_pageFault (pid addr esp : Nat) : Keeps Tallied (Pager.pageFault pid addr esp) :=
  (tallied_emit rfl rfl).bind fun _ =>
    (tallied_faultIn pid addr esp false).bind fun _ => keeps_pure _

/-! ### Requests without transfers -/

theorem tallied_register (pid : Nat) : Keeps Tallied (Pager.register pid) :=
  keeps_pager.bind fun _ => .ite ((keeps_throw _).bind fun _ => tallied_setProcess _ _)
    (tallied_setProcess _ _)

theorem tallied_tryDeclare (pid page : Nat) (source : PageSource) (writable : Bool) :
    Keeps Tallied (tryDeclare pid page source writable) := by
  rw [tryDeclare]
  refine keeps_pager.bind fun _ => .ite ?declare ((keeps_throw _).bind fun _ => ?declare)
  exact (keeps_process pid).bind fun _ => (keeps_lift _).bind fun _ =>
    (tallied_setProcess _ _).bind fun _ => keeps_pure _

theorem tallied_releaseEntry (page : Nat) (e : PageEntry) (space : AddressSpace) :
    Keeps Tallied (releaseEntry page e space) := by
  rw [releaseEntry]
  cases e.residency with
  | resident f =>
    exact (keeps_lift _).bind fun _ => (tallied_releaseFrame f).bind fun _ => keeps_pure _
  | swapped slot => exact tallied_releaseSlot slot (keeps_pure space)
  | notPopulated => exact keeps_pure space

theorem tallied_unmapPages (m : Mapping) (page count : Nat) (pr : Process) :
    Keeps Tallied (unmapPages m page count pr) := by
  induction count generalizing page pr with
  | zero => exact keeps_pure pr
  | succ count ih =>
    rw [unmapPages]
    cases pr.pages.remove page with
    | mk found pages =>
      cases found with
      | none => exact ih _ _
      | some e =>
        have hrelease := (tallied_releaseEntry page e pr.space).bind fun space =>
          ih (page + pageSize) { pr with pages, space }
        exact .ite hrelease ((keeps_throw _).bind fun _ => hrelease)

theorem tallied_unmapAll (mappings : List Mapping) (pr : Process) :
    Keeps Tallied (unmapAll mappings pr) := by
  induction mappings generalizing pr with
  | nil => exact keeps_pure pr
  | cons m rest ih => exact (tallied_unmapPages m _ _ pr).bind fun pr => ih pr

theorem tallied_releaseAll (pages : List (Nat × PageEntry)) (space : AddressSpace) :
    Keeps Tallied (releaseAll pages space) := by
  induction pages generalizing space with
  | nil => exact keeps_pure space
  | cons entry rest ih => exact (tallied_releaseEntry _ _ space).bind fun space => ih space

theorem tallied_destroy (pid : Nat) : Keeps Tallied (Pager.destroy pid) := by
  rw [Pager.destroy]
  refine (keeps_process pid).bind fun pr => Keeps.bind (tallied_update ?_) fun _ => ?_
  · exact fun _ => rfl
  · refine (tallied_unmapAll _ _).bind fun pr => ?_
    exact (tallied_releaseAll _ _).discard.bind fun _ => tallied_emit rfl rfl

end PagerM

end DemandPaging
