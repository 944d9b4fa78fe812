import DemandPaging.Proofs.Pins
import DemandPaging.Proofs.PoolSize

/-!
# What teardown does to pinned frames

A pin keeps a page from being moved to swap. It does not keep it from being taken away: a process
that exits gives back every frame it has, and so does a mapping that is removed, and giving a frame
back drops the pins on it. The next fault of any process may then be handed a frame that a device
is still working on. It is left to the callers to take their pins off first.

## Main results

* `Pager.Steps.frames_of_shrink` — a frame is given back without its pins, or nothing happens to it.
* `Pager.frames_of_teardown` — no frame of a page that goes is spared for its pins.
* `Pager.pinned_frame_reused` — a pinned frame goes to another process.
-/

namespace DemandPaging

namespace Pager

variable {p p' : Pager} {config : Config} {slots pid f : Nat} {o : FrameOwner}

/-- A change that takes things away gives a frame back, and its pins are gone, or leaves it
alone. -/
theorem Step.frames_of_shrink (h : Step .shrink p p') (hp : Owned config slots p) (f : Nat) :
    (p'.frames.ownerOf f = p.frames.ownerOf f ∧ p'.frames.pinsOf f = p.frames.pinsOf f) ∨
      (p'.frames.ownerOf f = none ∧ p'.frames.pinsOf f = 0) := by
  cases h with
  | remove process entry releases =>
    cases releases with
    | @resident g _ _ residency unmapped released =>
      have howner := (hp.frames.consistent.release List.not_mem_nil released).2.2.2
      have hpins := FramePool.pinsOf_release released
      by_cases hf : f = g
      · subst hf
        exact .inr ⟨(congrFun howner f).trans (Function.update_self _ _ _),
          (congrFun hpins f).trans (Function.update_self _ _ _)⟩
      · exact .inl ⟨(congrFun howner f).trans (Function.update_of_ne hf _ _),
          (congrFun hpins f).trans (Function.update_of_ne hf _ _)⟩
    | swapped => exact .inl ⟨rfl, rfl⟩
    | notPopulated => exact .inl ⟨rfl, rfl⟩
  | discard => exact .inl ⟨rfl, rfl⟩
  | mappings => exact .inl ⟨rfl, rfl⟩

theorem Steps.frames_of_shrink (h : Steps (· = .shrink) p p') (hp : Owned config slots p)
    (f : Nat) :
    (p'.frames.ownerOf f = p.frames.ownerOf f ∧ p'.frames.pinsOf f = p.frames.pinsOf f) ∨
      (p'.frames.ownerOf f = none ∧ p'.frames.pinsOf f = 0) := by
  refine h.keeps_owned (P := fun q =>
    (q.frames.ownerOf f = p.frames.ownerOf f ∧ q.frames.pinsOf f = p.frames.pinsOf f) ∨
      (q.frames.ownerOf f = none ∧ q.frames.pinsOf f = 0)) hp ?_ (.inl ⟨rfl, rfl⟩)
  rintro _ q q' rfl hstep ho hq
  rcases hstep.frames_of_shrink ho f with ⟨howner, hpins⟩ | hfreed
  · rwa [howner, hpins]
  · exact .inr hfreed

/-- The frame of a page that is gone after teardown is free and not pinned. -/
theorem Steps.free_of_gone (h : Steps (· = .shrink) p p') (hp : Owned config slots p)
    (hres : p.residency o = some (.resident f)) (hgone : p'.declared o = none) :
    p'.frames.isAllocated f = false ∧ p'.frames.isPinned f = .ok false := by
  have hp' := h.owned hp
  have howner := hp.ownerOf_eq hres
  rcases h.frames_of_shrink hp f with ⟨hsame, -⟩ | ⟨hnone, hzero⟩
  · have hres' := hp'.residency_eq (hsame.trans howner)
    rw [residency, hgone] at hres'
    simp at hres'
  have hfree : p'.frames.isAllocated f = false := by
    rw [← hp'.frames.consistent.isSome_ownerOf, hnone]
    rfl
  have hlt : f < p'.frames.size := by
    rw [hp'.size_frames, ← hp.size_frames]
    exact hp.frames.consistent.lt_size_of_ownerOf howner
  exact ⟨hfree, by rw [FramePool.isPinned_eq hlt, hzero]; rfl⟩

end Pager

namespace PagerM

open Pager (Owned)

/-- A process that is torn down has no page left. -/
theorem ensures_destroy_processes (pid : Nat) (t : Traced) :
    Ensures (Pager.destroy pid)
      (fun _ t' => t'.pager.processes = t.pager.processes.erase pid) t := by
  refine (ensures_destroy_returns pid t).mono ?_
  rintro _ t' ⟨_, _, -, hpager⟩
  rw [hpager]

/-- A mapping that is removed has no page left, and no other page goes. -/
theorem ensures_unmapFile_declared {pid id : Nat} {pr : Process} {m : Mapping} {t : Traced}
    (hpr : t.pager.processes[pid]? = some pr) (hm : pr.mappings.live[id]? = some m) :
    Ensures (Pager.unmapFile pid id) (fun _ t' => ∀ o, t'.pager.declared o =
      if o.pid = pid ∧ o.page ∈ m.pages.toList then none else t.pager.declared o) t := by
  rw [Pager.unmapFile]
  simp only [ensures_bind, ensures_process]
  intro pr' hpr'
  obtain rfl : pr = pr' := Option.some.inj (hpr.symm.trans hpr')
  rw [MappingTable.remove, hm]
  simp only [ensures_bind, ensures_setProcess, ensures_emit]
  refine (ensures_unmapPages_returns m _ _ _ t).mono ?_
  rintro pr₁ ⟨p₁, log⟩ ⟨⟨_, _, -, rfl⟩, -, hpages⟩ ⟨q, page⟩
  have hremoved := PageMap.getElem?_removeRun (m := pr.pages) (pageOffset_pageFloor m.base)
    m.pages.count page
  have hmem : page ∈ m.pages.toList ↔ ∃ i < m.pages.count,
      page = pageFloor m.base + i * pageSize := by
    simp only [PageRun.toList, List.mem_map, List.mem_range, eq_comm]
    rfl
  refine (Pager.declared_withProcess t.pager pid pr₁ ⟨q, page⟩).trans ?_
  by_cases hq : pid = q
  · subst hq
    rw [if_pos rfl, hpages, Pager.declared_of_getElem? hpr]
    exact hremoved.trans (if_congr (by rw [← hmem]; simp) rfl rfl)
  · rw [if_neg hq, if_neg fun h => hq h.1.symm]

end PagerM

namespace Pager

/-- Teardown does not look at pins. After every run, a process that is torn down and a mapping that
is removed give back the frame of each of their pages: it is free and has no pins, however many it
had. -/
theorem frames_of_teardown {config : Config} {device : Block} {ops : List Op}
    {answers : List Answer} {t : Traced}
    (h : (run ops).run (.start config device) = .ok answers t) :
    (∀ pid t', (destroy pid).run t = .ok () t' → ∀ page f,
      t.pager.residency ⟨pid, page⟩ = some (.resident f) →
        t'.pager.frames.isAllocated f = false ∧ t'.pager.frames.isPinned f = .ok false) ∧
    ∀ pid id pr m t', (unmapFile pid id).run t = .ok () t' → t.pager.processes[pid]? = some pr →
      pr.mappings.live[id]? = some m → ∀ page ∈ m.pages.toList, ∀ f,
        t.pager.residency ⟨pid, page⟩ = some (.resident f) →
          t'.pager.frames.isAllocated f = false ∧ t'.pager.frames.isPinned f = .ok false := by
  have howned := (PagerM.ensures_run ops _ answers t h).owned (owned_ofConfig config device)
  constructor
  · intro pid t' hdestroy page f hres
    refine (PagerM.ensures_destroy pid t () t' hdestroy).free_of_gone howned hres ?_
    have hgone : t'.pager.processes[pid]? = none := by
      rw [PagerM.ensures_destroy_processes pid t () t' hdestroy]
      simp
    exact declared_eq_none hgone rfl
  · intro pid id pr m t' hunmap hpr hm page hpage f hres
    refine (PagerM.ensures_unmapFile pid id t () t' hunmap).free_of_gone howned hres ?_
    exact (PagerM.ensures_unmapFile_declared hpr hm () t' hunmap ⟨pid, page⟩).trans
      (if_pos ⟨rfl, hpage⟩)

/-- A process has pinned a page of a file and a page of zeros. Either way of tearing down frees a
frame that is pinned. -/
theorem frames_of_teardown_pinned : ∃ answers t,
    (run [.register 1, .mapFile 1 ⟨5, 0, .ofBytes #[1, 2, 3]⟩ 0x1000, .declareZero 1 0x2000 true,
      .pin 1 0x1000 0x2000 0 false]).run
        (.start { userFrames := 2 } (.attach .swap "swap" (.ram (.blank 64)))) = .ok answers t ∧
    (t.pager.frames.isPinned 0 = .ok true ∧ t.pager.frames.isPinned 1 = .ok true) ∧
    (∃ u t', (destroy 1).run t = .ok u t' ∧ t'.pager.frames.isAllocated 1 = false ∧
      t'.pager.frames.isPinned 1 = .ok false) ∧
    ∃ u t', (unmapFile 1 0).run t = .ok u t' ∧ t'.pager.frames.isAllocated 0 = false ∧
      t'.pager.frames.isPinned 0 = .ok false := by
  have hrun : ∃ answers t,
      (run [.register 1, .mapFile 1 ⟨5, 0, .ofBytes #[1, 2, 3]⟩ 0x1000, .declareZero 1 0x2000 true,
        .pin 1 0x1000 0x2000 0 false]).run
          (.start { userFrames := 2 } (.attach .swap "swap" (.ram (.blank 64)))) = .ok answers t ∧
      (t.pager.frames.isPinned 0 = .ok true ∧ t.pager.frames.isPinned 1 = .ok true) ∧
      (t.pager.residency ⟨1, 0x1000⟩ = some (.resident 0) ∧
        t.pager.residency ⟨1, 0x2000⟩ = some (.resident 1)) ∧
      (t.pager.processes[1]?.bind fun pr => pr.mappings.live[0]?).any
        (fun m => m.pages.toList = [0x1000]) ∧
      PagerM.Ends (destroy 1) t ∧ PagerM.Ends (unmapFile 1 0) t := by
    decide +kernel
  obtain ⟨answers, t, h, hpinned, ⟨hmapped, hzero⟩, hmapping, ⟨u, t₁, hdestroy⟩, v, t₂, hunmap⟩ :=
    hrun
  obtain ⟨m, hlive, hpages⟩ := (Option.any_eq_true _ _).1 hmapping
  obtain ⟨pr, hpr, hm⟩ := Option.bind_eq_some_iff.1 hlive
  have hpage : 0x1000 ∈ m.pages.toList := by
    rw [of_decide_eq_true hpages]
    exact List.mem_cons_self
  obtain ⟨hdestroyed, hunmapped⟩ := frames_of_teardown h
  exact ⟨answers, t, h, hpinned, ⟨u, t₁, hdestroy, hdestroyed 1 t₁ hdestroy 0x2000 1 hzero⟩,
    v, t₂, hunmap, hunmapped 1 0 pr m t₂ hunmap hpr hm 0x1000 hpage 0 hmapped⟩

/-- A process pins a page and exits. Its frame is free at once, without the pin being taken off,
and the next fault of another process gets it. -/
theorem pinned_frame_reused : ∃ answers t,
    (run [.register 1, .register 2, .declareZero 1 0x1000 true, .declareZero 2 0x2000 true,
      .pin 1 0x1000 1 0 true]).run
        (.start { userFrames := 1 } (.attach .swap "swap" (.ram (.blank 64)))) = .ok answers t ∧
    (answers.getLast?.any Answer.isResolved ∧
      t.pager.residency ⟨1, 0x1000⟩ = some (.resident 0) ∧ t.pager.frames.isPinned 0 = .ok true) ∧
    ∃ u t₁, (destroy 1).run t = .ok u t₁ ∧ t₁.pager.frames.isAllocated 0 = false ∧
      ∃ r t₂, (pageFault 2 0x2000 0).run t₁ = .ok r t₂ ∧
        t₂.pager.residency ⟨2, 0x2000⟩ = some (.resident 0) := by
  decide +kernel

end Pager

end DemandPaging
