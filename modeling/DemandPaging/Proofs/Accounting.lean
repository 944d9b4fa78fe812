import DemandPaging.Pager.Query
import DemandPaging.Proofs.Ownership
import Mathlib.Data.List.Nodup

/-!
# The accounts of a run

What the pager knows of frames and slots is spread over the core map, the owners, the replacement
order, the slot table and one page map per process. `Pager.Accounted` says, in terms of what each
of them records, that they tell the same story, and every run that does not panic keeps it so:
whatever the tables refuse, whatever files fail to read, and on whatever device.

The numbers come out right because frames and resident pages are listed twice, once by the
replacement order and once page by page, and either list names each of them once.

## Main definitions

* `Pager.allPages` — the declared pages of all processes.
* `Pager.Accounted` — the five records agree.

## Main results

* `Pager.accounted_of_run` — they agree after every run.
-/

namespace DemandPaging

namespace Pager

variable {p : Pager} {o : FrameOwner} {e : PageEntry} {config : Config} {slots : Nat}

/-- The declared pages of all processes with their entries. -/
def allPages (p : Pager) : List (FrameOwner × PageEntry) :=
  p.processes.toList.flatMap fun (pid, pr) =>
    pr.pages.toList.map fun (page, e) => (⟨pid, page⟩, e)

theorem mem_allPages : (o, e) ∈ p.allPages ↔ p.declared o = some e := by
  obtain ⟨pid, page⟩ := o
  simp only [allPages, PageMap.toList, List.mem_flatMap, List.mem_map, Prod.exists,
    Std.ExtTreeMap.mem_toList_iff_getElem?_eq_some, Prod.mk.injEq, FrameOwner.mk.injEq]
  constructor
  · rintro ⟨q, pr, hpr, k, e', he, ⟨rfl, rfl⟩, rfl⟩
    rwa [declared_of_getElem? hpr]
  · intro h
    rw [declared, Option.bind_eq_some_iff] at h
    obtain ⟨pr, hpr, he⟩ := h
    exact ⟨pid, pr, hpr, page, e, he, ⟨rfl, rfl⟩, rfl⟩

/-- No page is listed twice. -/
theorem pairwise_allPages (p : Pager) : p.allPages.Pairwise fun a b => a.1 ≠ b.1 := by
  rw [allPages, List.pairwise_flatMap]
  refine ⟨fun x _ => ?_, ?_⟩
  · rw [List.pairwise_map]
    refine Std.ExtTreeMap.distinct_keys_toList.imp fun h heq => h ?_
    simpa using heq
  · refine Std.ExtTreeMap.distinct_keys_toList.imp fun h a ha b hb heq => h ?_
    simp only [List.mem_map, Prod.exists] at ha hb
    obtain ⟨_, _, _, rfl⟩ := ha
    obtain ⟨_, _, _, rfl⟩ := hb
    simpa using congrArg FrameOwner.pid heq

/-- A list of pages that no two pages share is counted by what it lists. -/
theorem countP_allPages {g : PageEntry → Option Nat} {l : List Nat} (hl : l.Nodup)
    (hg : ∀ o o' e e' n, p.declared o = some e → p.declared o' = some e' → g e = some n →
      g e' = some n → o = o')
    (hmem : ∀ n, n ∈ l ↔ ∃ o e, p.declared o = some e ∧ g e = some n) :
    l.length = p.allPages.countP fun x => (g x.2).isSome := by
  have hnodup : (p.allPages.filterMap fun x => g x.2).Nodup := by
    rw [List.Nodup, List.pairwise_filterMap]
    refine (pairwise_allPages p).imp_of_mem ?_
    rintro ⟨o, e⟩ ⟨o', e'⟩ ho ho' hne n hn n' hn' rfl
    exact hne (hg o o' e e' n (mem_allPages.1 ho) (mem_allPages.1 ho') hn hn')
  have hperm : l.Perm (p.allPages.filterMap fun x => g x.2) := by
    refine (List.perm_ext_iff_of_nodup hl hnodup).2 fun n => ?_
    simp only [hmem, List.mem_filterMap, Prod.exists, mem_allPages]
  rw [hperm.length_eq, List.length_filterMap_eq_countP]

/-- The records of `p` agree, for a pool of `frames` frames and an area of `slots` slots. -/
structure Accounted (frames slots : Nat) (p : Pager) : Prop where
  /-- No two pages hold the same frame. -/
  frame_unique : ∀ o o' e e' f, p.declared o = some e → p.declared o' = some e' →
    e.residency = .resident f → e'.residency = .resident f → o = o'
  /-- No two pages hold the same slot. -/
  slot_unique : ∀ o o' e e' s, p.declared o = some e → p.declared o' = some e' →
    e.residency = .swapped s → e'.residency = .swapped s → o = o'
  /-- A frame is allocated exactly when a page is resident in it. -/
  allocated_iff : ∀ f, p.frames.isAllocated f = true ↔
    ∃ o e, p.declared o = some e ∧ e.residency = .resident f
  /-- The owner of a frame is the page that is resident in it. -/
  owner_eq : ∀ o e f, p.declared o = some e → e.residency = .resident f →
    p.frames.owner f = .ok (some o)
  /-- A slot is in use exactly when a page was moved to it. -/
  inUse_iff : ∀ s, p.swap.isInUse s = true ↔
    ∃ o e, p.declared o = some e ∧ e.residency = .swapped s
  /-- The replacement order holds the allocated frames, each of them once. -/
  count_queue : ∀ f, p.frames.order.queue.count f = if p.frames.isAllocated f then 1 else 0
  /-- The frames that are not free are as many as the resident pages. -/
  freeFrames_eq : (p.allPages.countP fun x => x.2.frame?.isSome) ≤ frames ∧
    p.freeFrames = .ok (frames - p.allPages.countP fun x => x.2.frame?.isSome)
  /-- The slots that are not free are as many as the pages in swap. -/
  freeSlots_eq : (p.allPages.countP fun x => x.2.slot?.isSome) ≤ slots ∧
    p.freeSlots = slots - p.allPages.countP fun x => x.2.slot?.isSome

/-- The records agree when frames and slots are owned by the pages in them. -/
theorem Owned.accounted (h : Owned config slots p) : Accounted config.userFrames slots p := by
  have hframes : ∀ o o' e e' f, p.declared o = some e → p.declared o' = some e' →
      e.residency = .resident f → e'.residency = .resident f → o = o' := by
    intro o o' e e' f he he' hf hf'
    have ho := (h.frames.owners f o).2 (by rw [residency_of_declared he, hf])
    have ho' := (h.frames.owners f o').2 (by rw [residency_of_declared he', hf'])
    exact Option.some.inj (ho.symm.trans ho')
  have hslots : ∀ o o' e e' s, p.declared o = some e → p.declared o' = some e' →
      e.residency = .swapped s → e'.residency = .swapped s → o = o' := by
    intro o o' e e' s he he' hs hs'
    exact h.swap.unique s o o' (by rw [residency_of_declared he, hs])
      (by rw [residency_of_declared he', hs'])
  have hallocated : ∀ f, p.frames.isAllocated f = true ↔
      ∃ o e, p.declared o = some e ∧ e.residency = .resident f := by
    intro f
    rw [← h.frames.consistent.isSome_ownerOf, Option.isSome_iff_exists]
    exact exists_congr fun o => (h.frames.owners f o).trans residency_eq_some
  have huse : ∀ s, p.swap.isInUse s = true ↔
      ∃ o e, p.declared o = some e ∧ e.residency = .swapped s := fun s =>
    (h.swap.inUse_iff s).trans (exists_congr fun o => residency_eq_some)
  have hqueue : p.frames.order.queue.Nodup := by
    simpa using h.frames.consistent.nodup
  have hmem : ∀ f, f ∈ p.frames.order.queue ↔ p.frames.isAllocated f = true := by
    simpa using h.frames.consistent.mem_iff
  have hresident : p.frames.allocated = p.allPages.countP fun x => x.2.frame?.isSome := by
    rw [h.frames.consistent.allocated_eq, List.append_nil]
    refine countP_allPages hqueue ?_ fun f => ?_
    · simpa only [frame_eq_some] using hframes
    · simpa only [frame_eq_some, hmem] using hallocated f
  have hswapped : p.swap.usedSlots.length = p.allPages.countP fun x => x.2.slot?.isSome := by
    refine countP_allPages (Swap.nodup_usedSlots _) ?_ fun s => ?_
    · simpa only [slot_eq_some] using hslots
    · simpa only [slot_eq_some, Swap.mem_usedSlots] using huse s
  refine ⟨hframes, hslots, hallocated, fun o e f he hf => ?_, huse, fun f => ?_, ?_, ?_⟩
  · exact FramePool.owner_of_ownerOf
      ((h.frames.owners f o).2 (by rw [residency_of_declared he, hf]))
  · rw [hqueue.count]
    exact if_congr (hmem f) rfl rfl
  · have hle : p.frames.allocated ≤ p.frames.size := h.frames.consistent.allocated_le_size
    rw [← hresident, freeFrames, FramePool.free, ← h.size_frames]
    exact ⟨hle, checkedSub_of_le hle⟩
  · have hfree := h.swap.consistent.free_add
    rw [hswapped, h.size_slots] at hfree
    rw [freeSlots]
    omega

/-- After every run that does not panic the records agree. -/
theorem accounted_of_run {config : Config} {device : Block} {ops : List Op}
    {answers : List Answer} {t : Traced}
    (h : (run ops).run (.start config device) = .ok answers t) :
    t.pager.Accounted config.userFrames (Swap.ofBlock device config.swapSlots).slots := by
  have hsteps := PagerM.ensures_run ops (.start config device) answers t h
  exact (hsteps.owned (owned_ofConfig config device)).accounted

/-- Two processes share two frames, and the tables refuse the first page of one of them. -/
theorem accounted_after_refusal : ∃ answers t,
    (run [.register 1, .register 2, .declareZero 1 0x1000 true, .refuseBy 1 (· == 0),
      .pageFault 1 0x1000 0, .pageFault 1 0x1000 0, .declareZero 2 0x1000 false,
      .pageFault 2 0x1000 0, .destroy 1]).run
        (.start { userFrames := 2, swapSlots := 4 } (.attach .swap "swap" (.ram (.blank 64))))
      = .ok answers t ∧ t.pager.Accounted 2 4 := by
  have hends : PagerM.Ends (run [.register 1, .register 2, .declareZero 1 0x1000 true,
      .refuseBy 1 (· == 0), .pageFault 1 0x1000 0, .pageFault 1 0x1000 0,
      .declareZero 2 0x1000 false, .pageFault 2 0x1000 0, .destroy 1])
      (.start { userFrames := 2, swapSlots := 4 } (.attach .swap "swap" (.ram (.blank 64)))) := by
    decide +kernel
  obtain ⟨answers, t, h⟩ := hends
  exact ⟨answers, t, h, accounted_of_run h⟩

end Pager

end DemandPaging
