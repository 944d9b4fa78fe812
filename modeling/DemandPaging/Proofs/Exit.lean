import DemandPaging.Proofs.Progress
import DemandPaging.Proofs.Teardown

/-!
# Pages can always be given back

A mapping that is removed and a process that exits give back what they hold, and they need nothing
for it: no frame, no slot and no transfer. Each page is where its entry says, so its frame or its
slot can be given back, and its place in the page table can be cleared. A resident page was put into
the table once, so the table reaches it, wherever user memory ends.

What is left that can go wrong is the walk over the pages of a mapping, which does not expect to
find a page of something else there. `PageMap.Serves` says that a walk finds every page, and that
each belongs to the mapping. Where mappings are served, they can be removed and the process can be
torn down.

## Main definitions

* `Process.Releasable` — the resident pages of a process can be unmapped.
* `PageMap.Serves`, `PageMap.ServesAll` — the walk over the pages of a mapping, and of several.

## Main results

* `PagerM.meets_releaseAll` — the pages of a process can be given back.
* `PagerM.meets_unmapFile` — a mapping that is served can be removed.
* `PagerM.meets_destroy` — a process whose mappings are served can be torn down.
-/

namespace DemandPaging

/-! ### Pages that can be unmapped -/

/-- The table of the process maps exactly its resident pages and reaches all of them. -/
structure Process.Releasable (pr : Process) : Prop where
  mappable : pr.Mappable
  withinReach : pr.WithinReach

namespace Process

variable {pr pr' : Process}

theorem Releasable.fresh : Process.fresh.Releasable := ⟨.fresh, .fresh⟩

theorem Turns.releasable {change : Pager.Change} (h : pr.Turns change pr') (hpr : pr.Releasable) :
    pr'.Releasable :=
  ⟨h.mappable hpr.mappable, h.withinReach hpr.mappable.charted hpr.withinReach⟩

/-- The translation of a resident page can be removed. -/
theorem Releasable.exists_clearPage (h : pr.Releasable) {page f : Nat} {e : PageEntry}
    (he : pr.pages.entries[page]? = some e) (hres : e.residency = .resident f) :
    ∃ space, pr.space.clearPage page = .ok space := by
  refine h.mappable.exists_clearPage (h.withinReach page ?_)
  rw [he, PageEntry.mapping, Option.bind_some, Pager.frame_eq_some.2 hres]
  rfl

end Process

namespace Pager

variable {p p' : Pager} {config : Config} {slots : Nat}

theorem Step.releasable {change : Change} (h : Step change p p') (ho : Owned config slots p)
    (hp : p.All Process.Releasable) : p'.All Process.Releasable :=
  h.all .fresh (fun _ _ hpr hturn => hturn.releasable hpr) ho hp

theorem Steps.releasable {kinds : Change → Prop} (h : Steps kinds p p') (ho : Owned config slots p)
    (hp : p.All Process.Releasable) : p'.All Process.Releasable :=
  h.keeps_owned ho (fun _ => Step.releasable) hp

/-- User memory that ends below 4 GiB is within reach of the tables. -/
theorem Equipped.releasable (h : p.Equipped) (hbase : p.config.physBase ≤ 2 ^ 32) :
    p.All Process.Releasable := by
  intro pid pr hpr
  refine ⟨h.mappable pid pr hpr, fun page hpage => ?_⟩
  refine Nat.lt_of_lt_of_le (h.user ⟨pid, page⟩ ?_) hbase
  rw [declared_of_getElem? hpr]
  cases he : pr.pages.entries[page]? with
  | none => simp [he, PageEntry.mapping] at hpage
  | some e => rfl

end Pager

/-! ### Walks over the pages of mappings -/

theorem Mapping.pageOffset_first (m : Mapping) : pageOffset m.pages.first = 0 :=
  pageOffset_pageFloor m.base

namespace PageMap

/-- Of `count` pages from `page` on, every one is declared when its turn comes, and belongs to
mapping `m`. -/
def Serves (m : Mapping) (page : Nat) : (count : Nat) → PageMap → Prop
  | 0, _ => True
  | count + 1, pages =>
    (∃ e, pages.lookup page = some e ∧ PagerM.belongsTo e m = true) ∧
      Serves m (page + pageSize) count (pages.remove page).2

/-- Every one of the mappings is served when its turn comes. -/
def ServesAll : List Mapping → PageMap → Prop
  | [], _ => True
  | m :: rest, pages =>
    Serves m m.pages.first m.pages.count pages ∧
      ServesAll rest (pages.removeRun m.pages.first m.pages.count)

end PageMap

namespace PagerM

open Pager (Owned Equipped Step Steps)

variable {t : Traced} {config : Config} {slots pid page : Nat} {pr : Process} {e : PageEntry}

/-! ### Giving back pages -/

/-- What a page of a process holds can be given back. -/
theorem meets_releaseEntry (ho : Owned config slots (t.pager.withProcess pid pr))
    (hp : (t.pager.withProcess pid pr).All Process.Releasable)
    (he : pr.pages.entries[page]? = some e) :
    Meets (releaseEntry page e pr.space) (fun _ _ => True) (fun _ _ => False) t := by
  have hpr := Pager.getElem?_withProcess_self t.pager pid pr
  have hdeclared : (t.pager.withProcess pid pr).declared ⟨pid, page⟩ = some e := by
    rw [Pager.declared_of_getElem? hpr, he]
  have hres := Pager.residency_of_declared hdeclared
  rw [releaseEntry]
  cases hplace : e.residency with
  | resident f =>
    rw [hplace] at hres
    have halloc := ho.frames.consistent.isAllocated_of_ownerOf (ho.ownerOf_eq hres)
    obtain ⟨space, hspace⟩ := (hp pid pr hpr).exists_clearPage he hplace
    obtain ⟨frames, hrelease⟩ := ho.frames.consistent.exists_release halloc
    simp only [meets_bind, meets_lift_of_ok hspace, meets_pure]
    exact Iff.mpr (meets_releaseFrame_of_ok hrelease) trivial
  | swapped slot =>
    rw [hplace] at hres
    obtain ⟨swap, hrelease⟩ := Swap.exists_release (Owned.isInUse_of_swapped ho.swap hres).1
    simp only [meets_bind, meets_pager, meets_setSwap, meets_pure]
    exact Iff.mpr (meets_lift_of_ok hrelease) trivial
  | notPopulated => exact trivial

/-- What the pages of a process hold can be given back, one after the other. -/
theorem meets_releaseAll (left : List (Nat × PageEntry)) (pr : Process) (t : Traced)
    (ho : Owned config slots (t.pager.withProcess pid pr))
    (hp : (t.pager.withProcess pid pr).All Process.Releasable)
    (hleft : ∀ page e, (page, e) ∈ left ↔ pr.pages.entries[page]? = some e)
    (hdistinct : left.Pairwise fun a b => a.1 ≠ b.1) :
    Meets (releaseAll left pr.space) (fun _ _ => True) (fun _ _ => False) t := by
  induction left generalizing pr t with
  | nil =>
    rw [releaseAll]
    exact trivial
  | cons entry rest ih =>
    obtain ⟨page, e⟩ := entry
    have he := (hleft page e).1 List.mem_cons_self
    rw [releaseAll]
    simp only [meets_bind]
    refine ((meets_releaseEntry ho hp he).and_ensures
      (ensures_releaseEntry page e pr.space t)).mono ?_ fun _ _ h => h
    rintro space t₁ ⟨-, hreleases⟩
    have hstep : Pager.Step .shrink (t.pager.withProcess pid pr) (t₁.pager.withProcess pid
        { pr with pages := ⟨pr.pages.entries.erase page⟩, space }) := step_remove he hreleases
    exact ih { pr with pages := ⟨pr.pages.entries.erase page⟩, space } t₁ (hstep.owned ho)
      (hstep.releasable ho hp) (mem_tail_iff_erase hleft (List.pairwise_cons.1 hdistinct).1)
      (List.pairwise_cons.1 hdistinct).2

/-! ### Removing mappings -/

/-- The pages of a mapping that is served can be given back. -/
theorem meets_unmapPages (m : Mapping) {page : Nat} (hpage : pageOffset page = 0) (count : Nat)
    (pr : Process) (t : Traced) (ho : Owned config slots (t.pager.withProcess pid pr))
    (hp : (t.pager.withProcess pid pr).All Process.Releasable)
    (hserves : pr.pages.Serves m page count) :
    Meets (unmapPages m page count pr) (fun _ _ => True) (fun _ _ => False) t := by
  induction count generalizing page pr t with
  | zero =>
    rw [unmapPages]
    exact trivial
  | succ count ih =>
    obtain ⟨⟨e, he, hbelongs⟩, hrest⟩ := hserves
    rw [PageMap.remove] at hrest
    rw [unmapPages, PageMap.remove]
    simp only [he, hbelongs, if_true, meets_bind]
    rw [PageMap.lookup, pageFloor_of_pageOffset hpage] at he
    rw [pageFloor_of_pageOffset hpage] at hrest ⊢
    refine ((meets_releaseEntry ho hp he).and_ensures
      (ensures_releaseEntry page e pr.space t)).mono ?_ fun _ _ h => h
    rintro space t₁ ⟨-, hreleases⟩
    have hstep : Step .shrink (t.pager.withProcess pid pr) (t₁.pager.withProcess pid
        { pr with pages := ⟨pr.pages.entries.erase page⟩, space }) := step_remove he hreleases
    exact ih (pageOffset_add_pageSize hpage) _ t₁ (hstep.owned ho) (hstep.releasable ho hp) hrest

/-- The pages of mappings that are served can be given back, one mapping after the other. -/
theorem meets_unmapAll (mappings : List Mapping) (pr : Process) (t : Traced)
    (ho : Owned config slots (t.pager.withProcess pid pr))
    (hp : (t.pager.withProcess pid pr).All Process.Releasable)
    (hserves : pr.pages.ServesAll mappings) :
    Meets (unmapAll mappings pr) (fun _ _ => True) (fun _ _ => False) t := by
  induction mappings generalizing pr t with
  | nil =>
    rw [unmapAll]
    exact trivial
  | cons m rest ih =>
    rw [unmapAll]
    simp only [meets_bind]
    refine ((meets_unmapPages m m.pageOffset_first _ pr t ho hp hserves.1).and_ensures
      ((ensures_unmapPages pid m m.pageOffset_first _ pr t).and
        (ensures_unmapPages_returns m _ _ pr t))).mono ?_ fun _ _ h => h
    rintro pr₁ t₁ ⟨-, ⟨-, hsteps⟩, -, -, hpages⟩
    exact ih pr₁ t₁ (hsteps.owned ho) (hsteps.releasable ho hp) (hpages ▸ hserves.2)

/-- A mapping that is served can be removed. -/
theorem meets_unmapFile {id : Nat} {m : Mapping} (ho : Owned config slots t.pager)
    (hp : t.pager.All Process.Releasable) (hpr : t.pager.processes[pid]? = some pr)
    (hm : pr.mappings.live[id]? = some m)
    (hserves : pr.pages.Serves m m.pages.first m.pages.count) :
    Meets (Pager.unmapFile pid id) (fun _ _ => True) (fun _ _ => False) t := by
  have hstart : Step .shrink _ _ :=
    .mappings { pr.mappings with live := pr.mappings.live.erase id } t.pager.nextSerial hpr
  rw [Pager.unmapFile]
  simp only [meets_bind, meets_process_of_getElem? hpr, MappingTable.remove, hm, meets_setProcess,
    meets_emit]
  exact meets_unmapPages m m.pageOffset_first _ _ t (hstart.owned ho)
    (hstart.releasable ho hp) hserves

/-! ### The end of a process -/

/-- A process whose mappings are served can be torn down. -/
theorem meets_destroy_of_servesAll (ho : Owned config slots t.pager)
    (hp : t.pager.All Process.Releasable) (hpr : t.pager.processes[pid]? = some pr)
    (hserves : pr.pages.ServesAll pr.mappings.live.values) :
    Meets (Pager.destroy pid) (fun _ _ => True) (fun _ _ => False) t := by
  have hstart : Step .shrink _ _ :=
    .mappings { pr.mappings with live := ∅ } t.pager.nextSerial hpr
  have hsame := Pager.withProcess_erase t.pager pid
    { pr with mappings := { pr.mappings with live := ∅ } }
  have ho₁ := hsame ▸ hstart.owned ho
  have hp₁ := hsame ▸ hstart.releasable ho hp
  rw [Pager.destroy]
  simp only [meets_bind, meets_process_of_getElem? hpr, meets_update, MappingTable.takeAll,
    meets_discard, meets_emit]
  refine ((meets_unmapAll _ { pr with mappings := { pr.mappings with live := ∅ } } _ ho₁ hp₁
    hserves).and_ensures (ensures_unmapAll pid _ _ _)).mono ?_ fun _ _ h => h
  rintro pr₁ t₁ ⟨-, -, hsteps⟩
  have hkeys : pr₁.pages.toList.Pairwise fun a b => a.1 ≠ b.1 :=
    Std.ExtTreeMap.distinct_keys_toList.imp fun h heq => h (by simp [heq])
  exact meets_releaseAll pr₁.pages.toList pr₁ t₁ (hsteps.owned ho₁) (hsteps.releasable ho₁ hp₁)
    (fun _ _ => Std.ExtTreeMap.mem_toList_iff_getElem?_eq_some) hkeys

/-- A process without mappings can be torn down. -/
theorem meets_destroy (ho : Owned config slots t.pager) (hp : t.pager.Equipped)
    (hbase : t.pager.config.physBase ≤ 2 ^ 32) (hpr : t.pager.processes[pid]? = some pr)
    (hmappings : pr.mappings.live = ∅) :
    Meets (Pager.destroy pid) (fun _ _ => True) (fun _ _ => False) t := by
  have hnone : pr.mappings.live.values = [] := by
    rw [hmappings]
    rfl
  refine meets_destroy_of_servesAll ho (hp.releasable hbase) hpr ?_
  rw [hnone]
  exact trivial

end PagerM

end DemandPaging
