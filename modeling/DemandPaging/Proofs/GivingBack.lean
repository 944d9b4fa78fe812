import DemandPaging.Proofs.Accounting
import DemandPaging.Proofs.Coherence

/-!
# Teardown gives back exactly what goes

A mapping that is removed and a process that is torn down take some pages with them. What that comes
to is stated once for any set of pages: these pages lose their entries and their translations, the
frames and slots they hold become free, and nothing else in the pager can tell that they were there.

That the numbers come out right needs no look at the walk that gives the pages back, nor at the
order in which it meets resident, swapped and untouched pages. Before and after, the frames in use
are as many as the resident pages, so the difference is the number of resident pages that went.

## Main definitions

* `Pager.GivesBack` — a set of pages goes, and everything else stays as it is.
* `Traced.TearsDown` — what removing mappings and tearing processes down does.

## Main results

* `Pager.Steps.givesBack` — steps that only take away give back what is no longer declared.
* `Pager.tears_down_of_run` — so do removing a mapping and tearing a process down, after every run.
-/

namespace DemandPaging

namespace Pager

variable {p p' : Pager} {config : Config} {slots pid page : Nat} {gone : FrameOwner → Prop}
  [DecidablePred gone]

/-! ### Counting pages -/

/-- Where some pages went, the pages that are left are listed once each. -/
theorem allPages_perm (h : ∀ o, p'.declared o = if gone o then none else p.declared o) :
    p'.allPages.Perm (p.allPages.filter fun x => !decide (gone x.1)) := by
  have hnodup : ∀ q : Pager, q.allPages.Nodup := fun q =>
    (pairwise_allPages q).imp fun hne heq => hne (congrArg Prod.fst heq)
  refine (List.perm_ext_iff_of_nodup (hnodup p') ((hnodup p).filter _)).2 ?_
  rintro ⟨o, e⟩
  rw [List.mem_filter, mem_allPages, mem_allPages, h]
  by_cases ho : gone o <;> simp [ho]

/-- The pages that went and those that are left are all there were. -/
theorem countP_add_of_declared (h : ∀ o, p'.declared o = if gone o then none else p.declared o)
    (g : PageEntry → Bool) :
    p.allPages.countP (fun x => g x.2) = p'.allPages.countP (fun x => g x.2) +
      p.allPages.countP fun x => g x.2 && decide (gone x.1) := by
  rw [List.countP_eq_countP_filter_add p.allPages _ fun x => decide (gone x.1),
    (allPages_perm h).countP_eq, List.countP_filter, Nat.add_comm]

/-! ### Giving back -/

/-- `p'` is `p` after the pages in `gone` went and what they held was given back. -/
structure GivesBack (gone : FrameOwner → Prop) [DecidablePred gone] (p p' : Pager) : Prop where
  /-- The pages that go, and no others, are no longer declared. Every other page has the entry it
  had: its source, whether it may be written, and the frame or slot it is in. -/
  declared_eq : ∀ o, p'.declared o = if gone o then none else p.declared o
  /-- The pages that go are no longer mapped. Every other address of a process that is still there
  translates as before. -/
  translate_eq : ∀ pid v, v < 2 ^ 32 → (p'.processes[pid]?).isSome →
    p'.translate pid v = if gone ⟨pid, pageFloor v⟩ then .ok none else p.translate pid v
  /-- The tables let every other address be written as before. -/
  isMappedWritable_eq : ∀ pid v, v < 2 ^ 32 → (p'.processes[pid]?).isSome →
    p'.isMappedWritable pid v
      = if gone ⟨pid, pageFloor v⟩ then .ok false else p.isMappedWritable pid v
  /-- The frame of every other page is still the frame of this page, with as many pins. -/
  frames_eq : ∀ o f, ¬ gone o → p.residency o = some (.resident f) →
    p'.frames.owner f = .ok (some o) ∧ p'.frames.pinsOf f = p.frames.pinsOf f
  /-- What is in the frames stays. -/
  memory_eq : p'.memory = p.memory
  /-- What is in the swap slots stays. -/
  device_eq : p'.swap.device = p.swap.device
  /-- There are as many more free frames as there were resident pages among those that go. -/
  freeFrames_eq : ∃ n, p.freeFrames = .ok n ∧ p'.freeFrames
    = .ok (n + p.allPages.countP fun x => x.2.frame?.isSome && decide (gone x.1))
  /-- There are as many more free slots as there were pages in swap among those that go. -/
  freeSlots_eq : p'.freeSlots
    = p.freeSlots + p.allPages.countP fun x => x.2.slot?.isSome && decide (gone x.1)

theorem Charted.translate_declared (h : p.Charted) {v : Nat} (hpid : (p.processes[pid]?).isSome)
    (hv : v < 2 ^ 32) :
    p.translate pid v = .ok (((p.declared ⟨pid, pageFloor v⟩).bind PageEntry.frame?).map fun f =>
      poolBase + f * pageSize + pageOffset v) := by
  obtain ⟨pr, hpr⟩ := Option.isSome_iff_exists.1 hpid
  rw [h.translate_eq hpr hv, declared_of_getElem? hpr, PageMap.lookup]

theorem Charted.isMappedWritable_declared (h : p.Charted) {v : Nat}
    (hpid : (p.processes[pid]?).isSome) (hv : v < 2 ^ 32) :
    p.isMappedWritable pid v
      = .ok ((p.declared ⟨pid, pageFloor v⟩).any fun e => e.frame?.isSome && e.writable) := by
  obtain ⟨pr, hpr⟩ := Option.isSome_iff_exists.1 hpid
  rw [h.isMappedWritable_eq hpr hv, declared_of_getElem? hpr, PageMap.lookup]

/-- Steps that only take away, and leave memory and device alone, give back what the pages held that
are no longer declared. -/
theorem Steps.givesBack (h : Steps (· = .shrink) p p') (ho : Owned config slots p)
    (hp : p.All Process.Releasable)
    (hdeclared : ∀ o, p'.declared o = if gone o then none else p.declared o)
    (hprocesses : ∀ q : Nat, (p'.processes[q]?).isSome → (p.processes[q]?).isSome)
    (hmemory : p'.memory = p.memory) (hdevice : p'.swap.device = p.swap.device) :
    GivesBack gone p p' := by
  have ho' := h.owned ho
  have hcharted : p.Charted := fun pid pr hpr => (hp pid pr hpr).mappable.charted
  have hcharted' : p'.Charted := fun pid pr hpr =>
    (h.releasable ho hp pid pr hpr).mappable.charted
  refine ⟨hdeclared, ?_, ?_, ?_, hmemory, hdevice, ?_, ?_⟩
  · intro pid v hv hpid
    rw [hcharted'.translate_declared hpid hv, hcharted.translate_declared (hprocesses pid hpid) hv,
      hdeclared]
    split <;> rfl
  · intro pid v hv hpid
    rw [hcharted'.isMappedWritable_declared hpid hv,
      hcharted.isMappedWritable_declared (hprocesses pid hpid) hv, hdeclared]
    split <;> rfl
  · intro o f hkept hres
    have hres' : p'.residency o = some (.resident f) := by
      rw [residency, hdeclared, if_neg hkept]
      exact hres
    have howner := ho'.ownerOf_eq hres'
    refine ⟨FramePool.owner_of_ownerOf howner, ?_⟩
    rcases h.frames_of_shrink ho f with ⟨-, hpins⟩ | ⟨hnone, -⟩
    · exact hpins
    · rw [hnone] at howner
      cases howner
  · obtain ⟨hle, hfree⟩ := ho.accounted.freeFrames_eq
    obtain ⟨-, hfree'⟩ := ho'.accounted.freeFrames_eq
    have hcount := countP_add_of_declared hdeclared fun e => e.frame?.isSome
    refine ⟨_, hfree, hfree'.trans (congrArg _ ?_)⟩
    omega
  · obtain ⟨hle, hfree⟩ := ho.accounted.freeSlots_eq
    obtain ⟨-, hfree'⟩ := ho'.accounted.freeSlots_eq
    have hcount := countP_add_of_declared hdeclared fun e => e.slot?.isSome
    omega

/-- Where no process is registered, every frame and every slot is free. -/
theorem Owned.all_free (ho : Owned config slots p) (hp : ∀ pid : Nat, p.processes[pid]? = none) :
    p.freeFrames = .ok config.userFrames ∧ p.freeSlots = slots := by
  have hnone : p.allPages = [] := by
    rw [List.eq_nil_iff_forall_not_mem]
    rintro ⟨o, e⟩ hmem
    rw [mem_allPages, declared_eq_none (hp o.pid) rfl] at hmem
    cases hmem
  obtain ⟨-, hframes⟩ := ho.accounted.freeFrames_eq
  obtain ⟨-, hslots⟩ := ho.accounted.freeSlots_eq
  rw [hnone] at hframes hslots
  exact ⟨hframes, hslots⟩

end Pager

/-! ### Requests -/

namespace PagerM

open Pager (InOrder GivesBack)

variable {t : Traced} {config : Config} {slots pid id : Nat} {pr : Process} {m : Mapping}

/-- A mapping that is removed gives back its pages. -/
theorem meets_unmapFile_givesBack (ht : InOrder config slots t.pager)
    (hpr : t.pager.processes[pid]? = some pr) (hm : pr.mappings.live[id]? = some m) :
    Meets (Pager.unmapFile pid id) (fun _ t' =>
      GivesBack (fun o => o.pid = pid ∧ m.Covers o.page) t.pager t'.pager ∧
        ∃ pr', t'.pager.processes[pid]? = some pr' ∧
          pr'.mappings = { pr.mappings with live := pr.mappings.live.erase id })
      (fun _ _ => False) t := by
  have hcoherent := ht.coherent pid pr hpr
  refine ((meets_unmapFile ht.owned ht.releasable hpr hm (hcoherent.serves hm)).and_ensures
    ((ensures_unmapFile pid id t).and (ensures_unmapFile_cases pid id t))).mono ?_ fun _ _ h => h
  rintro _ ⟨p', log⟩ ⟨-, hsteps, pr₀, m₀, pr', q, hpr₀, hm₀, hmappings, hpages, hreturns, rfl⟩
  obtain rfl : pr = pr₀ := Option.some.inj (hpr.symm.trans hpr₀)
  obtain rfl : m = m₀ := Option.some.inj (hm.symm.trans hm₀)
  obtain ⟨frames, swap, hdevice, rfl⟩ := hreturns
  refine ⟨hsteps.givesBack ht.owned ht.releasable ?_ ?_ rfl hdevice, pr', by simp, hmappings⟩
  · intro o
    refine (Pager.declared_withProcess t.pager pid pr' o).trans ?_
    by_cases ho : pid = o.pid
    · subst ho
      rw [if_pos rfl, hpages, PageMap.getElem?_removeRun m.pageOffset_first,
        ← Pager.declared_of_getElem? hpr]
      exact if_congr (by rw [hcoherent.covers_iff hm]; simp) rfl rfl
    · rw [if_neg ho, if_neg fun h => ho h.1.symm]
  · intro q hq
    exact (Pager.isSome_withProcess hpr pr' q).symm.trans hq

/-- A process that is torn down gives back all its pages. -/
theorem meets_destroy_givesBack (ht : InOrder config slots t.pager)
    (hpid : (t.pager.processes[pid]?).isSome) :
    Meets (Pager.destroy pid) (fun _ t' => GivesBack (fun o => o.pid = pid) t.pager t'.pager ∧
      t'.pager.processes = t.pager.processes.erase pid) (fun _ _ => False) t := by
  obtain ⟨pr, hpr⟩ := Option.isSome_iff_exists.1 hpid
  have hserves := (ht.coherent pid pr hpr).servesAll
  refine ((meets_destroy_of_servesAll ht.owned ht.releasable hpr hserves).and_ensures
    ((ensures_destroy pid t).and (ensures_destroy_returns pid t))).mono ?_ fun _ _ h => h
  rintro _ ⟨p', log⟩ ⟨-, hsteps, frames, swap, hdevice, rfl⟩
  have herase : ∀ q, (t.pager.processes.erase pid)[q]?
      = if pid = q then none else t.pager.processes[q]? := by
    intro q
    simp [Std.ExtTreeMap.getElem?_erase]
  refine ⟨hsteps.givesBack ht.owned ht.releasable ?_ ?_ rfl hdevice, rfl⟩
  · intro o
    show (t.pager.processes.erase pid)[o.pid]?.bind _ = _
    rw [herase]
    by_cases ho : pid = o.pid
    · rw [if_pos ho, if_pos ho.symm]
      rfl
    · rw [if_neg ho, if_neg (Ne.symm ho)]
      rfl
  · intro q hq
    show (t.pager.processes[q]?).isSome
    have hq : ((t.pager.processes.erase pid)[q]?).isSome := hq
    rw [herase] at hq
    split at hq
    · cases hq
    · exact hq

/-- Tearing down every process, in any order, leaves none. -/
theorem meets_destroyAll (pids : List Nat) (hdistinct : pids.Nodup)
    (ht : InOrder config slots t.pager)
    (hpids : ∀ pid, pid ∈ pids ↔ (t.pager.processes[pid]?).isSome) :
    Meets (Pager.run (pids.map .destroy)) (fun _ t' => InOrder config slots t'.pager ∧
      ∀ pid : Nat, t'.pager.processes[pid]? = none) (fun _ _ => False) t := by
  induction pids generalizing t with
  | nil =>
    refine ⟨ht, fun pid => ?_⟩
    rw [← Option.not_isSome_iff_eq_none, ← hpids]
    exact List.not_mem_nil
  | cons pid rest ih =>
    obtain ⟨hnew, hrest⟩ := List.nodup_cons.1 hdistinct
    rw [List.map_cons, Pager.run, Pager.perform]
    simp only [meets_bind, meets_pure]
    have hperform := inOrder_perform (.destroy pid) ht
    simp only [Pager.perform, ensures_bind, ensures_pure] at hperform
    refine ((meets_destroy_givesBack ht ((hpids pid).1 List.mem_cons_self)).and_ensures
      hperform).mono ?_ fun _ _ h => h
    rintro _ t₁ ⟨⟨-, hprocesses⟩, ht₁⟩
    refine ih hrest ht₁ fun q => ?_
    rw [hprocesses, Std.ExtTreeMap.getElem?_erase]
    split
    · rename_i hq
      have hq : pid = q := by simpa using hq
      simp [← hq, hnew]
    · rename_i hq
      have hq : pid ≠ q := by simpa using hq
      rw [← hpids q, List.mem_cons]
      simp [Ne.symm hq]

end PagerM

/-! ### Runs -/

/-- What teardown does at `t`, where there are `frames` frames and `slots` slots. -/
structure Traced.TearsDown (frames slots : Nat) (t : Traced) : Prop where
  /-- A live mapping can be removed. It gives back exactly its pages, and leaves the table. -/
  unmaps : ∀ (pid : Nat) (pr : Process) (id : Nat) (m : Mapping),
    t.pager.processes[pid]? = some pr → pr.mappings.live[id]? = some m →
      ∃ t' pr', (Pager.unmapFile pid id).run t = .ok () t' ∧
        Pager.GivesBack (fun o => o.pid = pid ∧ m.Covers o.page) t.pager t'.pager ∧
        t'.pager.processes[pid]? = some pr' ∧
        pr'.mappings = { pr.mappings with live := pr.mappings.live.erase id }
  /-- A registered process can be torn down. It gives back exactly its pages, and is gone. -/
  destroys : ∀ pid : Nat, (t.pager.processes[pid]?).isSome →
    ∃ t', (Pager.destroy pid).run t = .ok () t' ∧
      Pager.GivesBack (fun o => o.pid = pid) t.pager t'.pager ∧
      t'.pager.processes = t.pager.processes.erase pid
  /-- Where no process is left, every frame and every slot is free. -/
  all_free : (∀ pid : Nat, t.pager.processes[pid]? = none) →
    t.pager.freeFrames = .ok frames ∧ t.pager.freeSlots = slots
  /-- The processes can be torn down in any order, and then none is left. -/
  all_destroyed : ∀ pids : List Nat, pids.Nodup →
    (∀ pid, pid ∈ pids ↔ (t.pager.processes[pid]?).isSome) →
      ∃ answers t', (Pager.run (pids.map .destroy)).run t = .ok answers t' ∧
        t'.pager.freeFrames = .ok frames ∧ t'.pager.freeSlots = slots

namespace Pager

/-- After every run that does not panic, teardown does not panic either and gives back exactly what
goes. Once every process has been torn down, in whatever order, every frame and every slot is
free. -/
theorem tears_down_of_run {config : Config} {device : Block} {ops : List Op}
    {answers : List Answer} {t : Traced}
    (h : (run ops).run (.start config device) = .ok answers t) :
    t.TearsDown config.userFrames (Swap.ofBlock device config.swapSlots).slots := by
  have ht := inOrder_of_run h
  refine ⟨?_, ?_, ht.owned.all_free, ?_⟩
  · intro pid pr id m hpr hm
    obtain ⟨⟨⟩, t', hrun, hback, pr', hpr', hmappings⟩ :=
      (PagerM.meets_unmapFile_givesBack ht hpr hm).exists_run
    exact ⟨t', pr', hrun, hback, hpr', hmappings⟩
  · intro pid hpid
    obtain ⟨⟨⟩, t', hrun, hback⟩ := (PagerM.meets_destroy_givesBack ht hpid).exists_run
    exact ⟨t', hrun, hback⟩
  · intro pids hdistinct hpids
    obtain ⟨answers', t', hrun, ht', hnone⟩ :=
      (PagerM.meets_destroyAll pids hdistinct ht hpids).exists_run
    exact ⟨answers', t', hrun, ht'.owned.all_free hnone⟩

/-- Two processes have pages at one address, one of them through a mapping with a page that was
never touched. Of four frames one is free. -/
theorem tears_down_of_run_mapped : ∃ answers t,
    (run [.register 1, .register 2, .mapFile 1 ⟨5, 0, .unreliable #[7] 4097 1 4097 true⟩ 0x3000,
      .declareZero 1 0x1000 true, .declareZero 2 0x3000 true, .pageFault 1 0x3000 0,
      .pin 1 0x1000 1 0 true, .pageFault 2 0x3000 0]).run
        (.start { userFrames := 4, swapSlots := 4 } (.attach .swap "swap" (.ram (.blank 64))))
      = .ok answers t ∧
    t.pager.freeFrames = .ok 1 ∧ t.TearsDown 4 4 := by
  have hrun : ∃ answers t,
      (run [.register 1, .register 2, .mapFile 1 ⟨5, 0, .unreliable #[7] 4097 1 4097 true⟩ 0x3000,
        .declareZero 1 0x1000 true, .declareZero 2 0x3000 true, .pageFault 1 0x3000 0,
        .pin 1 0x1000 1 0 true, .pageFault 2 0x3000 0]).run
          (.start { userFrames := 4, swapSlots := 4 } (.attach .swap "swap" (.ram (.blank 64))))
        = .ok answers t ∧ t.pager.freeFrames = .ok 1 := by
    decide +kernel
  obtain ⟨answers, t, h, hfree⟩ := hrun
  exact ⟨answers, t, h, hfree, tears_down_of_run h⟩

end Pager

end DemandPaging
