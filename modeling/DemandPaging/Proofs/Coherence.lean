import DemandPaging.Proofs.Exit
import DemandPaging.Proofs.MappedPages

/-!
# Mappings and page maps tell the same story

The table of mappings and the page map of a process are two records, and each says which pages
belong to which mapping. Mapping a file writes both, removing a mapping and exiting clear both, and
a mapping that is refused takes back what it wrote; everything else writes the page map alone, and
never a page of a mapping. So the records agree at all times: a page says that it belongs to a
mapping exactly when that mapping is live and covers it.

Everything else about mappings follows from this. Two live mappings share no page, because a page
names one mapping. And a mapping that is removed, now or when the process exits, finds each of its
pages and finds it to be its own.

## Main definitions

* `Mapping.Covers` — the pages of a mapping.
* `Process.Coherent` — the two records agree.
* `Pager.MapsFile` — the ways of mapping a file.
* `Pager.InOrder` — what every run keeps of frames, slots, tables and mappings.
* `Traced.MappingsCohere` — what the agreement means for the mappings of a process.

## Main results

* `PagerM.coherent_perform` — every request keeps the records in agreement.
* `Pager.mappings_cohere_of_run` — so they agree after every run.
-/

namespace DemandPaging

/-- The pages of a mapping are the page addresses from its base on that lie below its end. -/
def Mapping.Covers (m : Mapping) (page : Nat) : Prop :=
  pageOffset page = 0 ∧ m.base ≤ page ∧ page < m.base + m.length

instance (m : Mapping) (page : Nat) : Decidable (m.Covers page) :=
  inferInstanceAs (Decidable (_ ∧ _ ∧ _))

/-- The number of pages that `length` bytes take from the beginning of a page. -/
def pagesFor (length : Nat) : Nat := (length + (pageSize - 1)) / pageSize

/-- A mapping that begins on a page has as many pages as its length needs. -/
theorem Mapping.count_pages {m : Mapping} (haligned : pageOffset m.base = 0)
    (hfits : m.base + m.length < 2 ^ 64) : m.pages.count = pagesFor m.length := by
  simp only [Mapping.pages, PageRun.spanning, saturatingAdd_eq, pageFloor_of_pageOffset haligned,
    pagesFor]
  congr 1
  omega

/-- The walk over a mapping visits the pages it covers. -/
theorem Mapping.covers_iff {m : Mapping} (haligned : pageOffset m.base = 0)
    (hfits : m.base + m.length < 2 ^ 64) {page : Nat} :
    m.Covers page ↔ ∃ i < m.pages.count, page = m.pages.first + i * pageSize := by
  have hfirst : m.pages.first = m.base := pageFloor_of_pageOffset haligned
  rw [hfirst, count_pages haligned hfits, pagesFor, Covers]
  simp only [pageOffset, pageSize] at *
  constructor
  · rintro ⟨hpage, hbase, hend⟩
    exact ⟨(page - m.base) / 4096, by omega, by omega⟩
  · rintro ⟨i, hi, rfl⟩
    omega

/-- A mapping is added under the number that was next. -/
theorem MappingTable.of_insert {table table' : MappingTable} {m : Mapping}
    (h : table.insert m = .ok table') : m.id = table.nextId ∧
      (∀ id : Nat, table'.live[id]? = if m.id = id then some m else table.live[id]?) ∧
        table'.nextId = table.nextId + 1 := by
  simp only [MappingTable.insert, except_bind_eq_ok, except_ite_eq_ok, except_pure_eq_ok,
    except_throw_ne_ok, false_and, exists_false, and_false, or_false, checkedAdd_eq_ok] at h
  obtain ⟨hid, _, ⟨-, rfl⟩, rfl⟩ := h
  exact ⟨hid, fun id => by simp [Std.ExtTreeMap.getElem?_insert], rfl⟩

/-- The values of a map are those of its list of entries. -/
theorem values_eq_map_toList {α : Type} (m : Std.ExtTreeMap Nat α) :
    m.values = m.toList.map Prod.snd := by
  obtain ⟨⟨q⟩⟩ := m
  induction q using Quotient.ind with
  | _ t =>
    show t.inner.values = (Std.DTreeMap.Internal.Impl.Const.toList t.inner).map Prod.snd
    rw [Std.DTreeMap.Internal.Impl.values_eq_map_snd,
      Std.DTreeMap.Internal.Impl.Const.toList_eq_toListModel_map, List.map_map]
    rfl

namespace PageMap

variable {m : Mapping} {pages pages' : PageMap} {page : Nat}

theorem mapped?_removeRun (hpage : pageOffset page = 0) (count k : Nat) :
    (pages.removeRun page count).mapped? k
      = if ∃ i < count, k = page + i * pageSize then none else pages.mapped? k := by
  rw [mapped?, getElem?_removeRun hpage]
  split <;> rfl

/-- A walk is served if every page of it says that it belongs to the mapping. -/
theorem serves_of_mapped (hpage : pageOffset page = 0) {count : Nat}
    (h : ∀ i < count, ∃ offset,
      pages.mapped? (page + i * pageSize) = some (m.id, m.file, offset)) :
    pages.Serves m page count := by
  induction count generalizing page pages with
  | zero => exact trivial
  | succ count ih =>
    have hfloor := pageFloor_of_pageOffset hpage
    obtain ⟨offset, hfirst⟩ := h 0 (Nat.succ_pos count)
    rw [Nat.zero_mul, Nat.add_zero, mapped?_eq_some] at hfirst
    obtain ⟨e, he, hsource⟩ := hfirst
    refine ⟨⟨e, by rw [lookup, hfloor, he], ?_⟩, ih (pageOffset_add_pageSize hpage) ?_⟩
    · simp [PagerM.belongsTo, hsource, Handle.sameOpening]
    · intro i hi
      obtain ⟨offset, hnext⟩ := h (i + 1) (Nat.succ_lt_succ hi)
      rw [Nat.succ_mul, Nat.add_comm (i * pageSize), ← Nat.add_assoc] at hnext
      refine ⟨offset, ?_⟩
      rw [← hnext, remove, mapped?, getElem?_erase, hfloor, if_neg (by rw [pageSize]; omega)]
      rfl

end PageMap

/-! ### The records of one process -/

/-- The table of mappings and the page map of a process agree on the pages of mappings. -/
structure Process.Coherent (pr : Process) : Prop where
  /-- A live mapping is kept under its number, which was given out before. -/
  numbered : ∀ (id : Nat) (m : Mapping), pr.mappings.live[id]? = some m →
    m.id = id ∧ id < pr.mappings.nextId
  /-- A live mapping begins on a page boundary and ends where addresses are still numbers. -/
  placed : ∀ (id : Nat) (m : Mapping), pr.mappings.live[id]? = some m →
    pageOffset m.base = 0 ∧ m.base + m.length < 2 ^ 64
  /-- A page says that it belongs to a mapping exactly when the mapping is live and covers it. -/
  mapped_iff : ∀ page id file offset, pr.pages.mapped? page = some (id, file, offset) ↔
    ∃ m : Mapping, pr.mappings.live[id]? = some m ∧ m.Covers page ∧ file = m.file ∧
      offset = page - m.base

namespace Process.Coherent

variable {pr pr' : Process} {id id' page : Nat} {m m' : Mapping}

theorem fresh : Process.fresh.Coherent where
  numbered id m h := by simp [Process.fresh, MappingTable.empty] at h
  placed id m h := by simp [Process.fresh, MappingTable.empty] at h
  mapped_iff page id file offset := by
    simp [Process.fresh, MappingTable.empty, PageMap.empty, PageMap.mapped?]

/-- The records are looked at through the catalogue only. -/
theorem congr (h : pr.Coherent) (hsame : pr'.catalogue = pr.catalogue) : pr'.Coherent := by
  obtain ⟨hmappings, hpages⟩ := Prod.mk.inj hsame
  refine ⟨?_, ?_, ?_⟩
  · rw [hmappings]
    exact h.numbered
  · rw [hmappings]
    exact h.placed
  · rw [hmappings, hpages]
    exact h.mapped_iff

theorem covers_iff (h : pr.Coherent) (hm : pr.mappings.live[id]? = some m) :
    m.Covers page ↔ ∃ i < m.pages.count, page = m.pages.first + i * pageSize :=
  Mapping.covers_iff (h.placed id m hm).1 (h.placed id m hm).2

theorem mapped_of_covers (h : pr.Coherent) (hm : pr.mappings.live[id]? = some m)
    (hpage : m.Covers page) : pr.pages.mapped? page = some (id, m.file, page - m.base) :=
  (h.mapped_iff page id m.file _).2 ⟨m, hm, hpage, rfl, rfl⟩

/-- A page belongs to one mapping. -/
theorem id_eq (h : pr.Coherent) (hm : pr.mappings.live[id]? = some m)
    (hm' : pr.mappings.live[id']? = some m') (hpage : m.Covers page) (hpage' : m'.Covers page) :
    id = id' := by
  have hsame := h.mapped_of_covers hm hpage
  rw [h.mapped_of_covers hm' hpage'] at hsame
  exact (congrArg Prod.fst (Option.some.inj hsame)).symm

/-! ### Making a mapping -/

/-- A mapping that is made takes pages that were not declared. -/
theorem map {pages : PageMap} {table : MappingTable} (h : pr.Coherent)
    (haligned : pageOffset m.base = 0) (hfits : m.base + m.length < 2 ^ 64)
    (hpages : pr.pages.declareMapped m.id m.file m.pages.first 0 m.pages.count = .ok (none, pages))
    (htable : pr.mappings.insert m = .ok table) :
    ({ pr with pages, mappings := table } : Process).Coherent := by
  obtain ⟨hid, hlive, hnext⟩ := MappingTable.of_insert htable
  have hcovers : ∀ page, m.Covers page ↔ ∃ i < m.pages.count, page = m.pages.first + i * pageSize :=
    fun _ => Mapping.covers_iff haligned hfits
  obtain ⟨hnew, hold⟩ := PageMap.getElem?_declareMapped hpages
  have hfirst : m.pages.first = m.base := pageFloor_of_pageOffset haligned
  have hfree : ∀ page, m.Covers page → pr.pages.mapped? page = none := by
    intro page hpage
    obtain ⟨i, hi, rfl⟩ := (hcovers page).1 hpage
    rw [PageMap.mapped?, (hnew i hi).1, Option.bind_none]
  have hmapped : ∀ page, pages.mapped? page
      = if m.Covers page then some (m.id, m.file, page - m.base) else pr.pages.mapped? page := by
    intro page
    split
    · rename_i hpage
      obtain ⟨i, hi, rfl⟩ := (hcovers page).1 hpage
      have hoffset : m.pages.first + i * pageSize - m.base = (0 + i) * pageSize := by
        rw [hfirst, Nat.zero_add, Nat.add_sub_cancel_left]
      rw [PageMap.mapped?, (hnew i hi).2, hoffset]
      rfl
    · rename_i hpage
      rw [PageMap.mapped?, hold page fun i hi heq => hpage ((hcovers page).2 ⟨i, hi, heq⟩)]
      rfl
  refine ⟨?_, ?_, ?_⟩
  · intro id m' hm'
    rw [hlive] at hm'
    rw [hnext]
    split at hm'
    · cases hm'
      omega
    · have := h.numbered id m' hm'
      omega
  · intro id m' hm'
    rw [hlive] at hm'
    split at hm'
    · cases hm'
      exact ⟨haligned, hfits⟩
    · exact h.placed id m' hm'
  · intro page id file offset
    rw [hmapped]
    by_cases hpage : m.Covers page
    · rw [if_pos hpage]
      constructor
      · rintro ⟨⟩
        exact ⟨m, by rw [hlive, if_pos rfl], hpage, rfl, rfl⟩
      · rintro ⟨m', hm', hpage', rfl, rfl⟩
        rw [hlive] at hm'
        split at hm'
        · rename_i heq
          cases hm'
          rw [heq]
        · have := hfree page hpage
          rw [h.mapped_of_covers hm' hpage'] at this
          cases this
    · rw [if_neg hpage, h.mapped_iff]
      refine exists_congr fun m' => and_congr_left fun hm' => ?_
      rw [hlive]
      split
      · rename_i heq
        constructor
        · intro hm''
          have := h.numbered id m' hm''
          omega
        · intro heq'
          cases heq'
          exact absurd hm'.1 hpage
      · rfl

/-! ### Removing a mapping -/

/-- A mapping that is removed takes its pages with it. -/
theorem unmap (h : pr.Coherent) (hm : pr.mappings.live[id]? = some m)
    (hmappings : pr'.mappings = { pr.mappings with live := pr.mappings.live.erase id })
    (hpages : pr'.pages = pr.pages.removeRun m.pages.first m.pages.count) : pr'.Coherent := by
  have hlive : ∀ id', pr'.mappings.live[id']?
      = if id = id' then none else pr.mappings.live[id']? := by
    intro id'
    rw [hmappings]
    simp [Std.ExtTreeMap.getElem?_erase]
  have hmapped : ∀ page, pr'.pages.mapped? page
      = if m.Covers page then none else pr.pages.mapped? page := by
    intro page
    rw [hpages, PageMap.mapped?_removeRun m.pageOffset_first]
    exact if_congr (h.covers_iff hm).symm rfl rfl
  refine ⟨?_, ?_, ?_⟩
  · intro id' m' hm'
    rw [hlive] at hm'
    split at hm'
    · cases hm'
    · rw [hmappings]
      exact h.numbered id' m' hm'
  · intro id' m' hm'
    rw [hlive] at hm'
    split at hm'
    · cases hm'
    · exact h.placed id' m' hm'
  · intro page id' file offset
    rw [hmapped]
    by_cases hpage : m.Covers page
    · rw [if_pos hpage]
      constructor
      · rintro ⟨⟩
      · rintro ⟨m', hm', hpage', -⟩
        rw [hlive] at hm'
        split at hm'
        · cases hm'
        · rename_i hne
          exact absurd (h.id_eq hm hm' hpage hpage') hne
    · rw [if_neg hpage, h.mapped_iff]
      refine exists_congr fun m' => and_congr_left fun hm' => ?_
      rw [hlive]
      split
      · rename_i heq
        subst heq
        constructor
        · intro hm''
          obtain rfl : m = m' := Option.some.inj (hm.symm.trans hm'')
          exact absurd hm'.1 hpage
        · rintro ⟨⟩
      · rfl

/-! ### What removals find -/

/-- A live mapping finds its pages. -/
theorem serves (h : pr.Coherent) (hm : pr.mappings.live[id]? = some m) :
    pr.pages.Serves m m.pages.first m.pages.count := by
  refine PageMap.serves_of_mapped m.pageOffset_first fun i hi => ?_
  have hpage := (h.covers_iff hm).2 ⟨i, hi, rfl⟩
  rw [(h.numbered id m hm).1]
  exact ⟨_, h.mapped_of_covers hm hpage⟩

/-- The list of live mappings names each of them once. -/
theorem pairwise_live (h : pr.Coherent) :
    pr.mappings.live.values.Pairwise fun m m' => m.id ≠ m'.id := by
  rw [values_eq_map_toList, List.pairwise_map]
  refine List.Pairwise.imp_of_mem ?_ Std.ExtTreeMap.distinct_keys_toList
  rintro ⟨id, m⟩ ⟨id', m'⟩ hm hm' hne heq
  rw [Std.ExtTreeMap.mem_toList_iff_getElem?_eq_some] at hm hm'
  rw [(h.numbered id m hm).1, (h.numbered id' m' hm').1] at heq
  exact hne (by simp [heq])

theorem live_of_mem (h : pr.Coherent) (hm : m ∈ pr.mappings.live.values) :
    pr.mappings.live[m.id]? = some m := by
  rw [values_eq_map_toList, List.mem_map] at hm
  obtain ⟨⟨id, m'⟩, hm', rfl⟩ := hm
  rw [Std.ExtTreeMap.mem_toList_iff_getElem?_eq_some] at hm'
  rwa [(h.numbered id m' hm').1]

end Process.Coherent

/-- Mappings that are removed one after the other find their pages, since those that went before
took none of them. -/
theorem PageMap.servesAll_of_mapped {pr : Process} (h : pr.Coherent) {mappings : List Mapping}
    {pages : PageMap} (hlive : ∀ m ∈ mappings, pr.mappings.live[m.id]? = some m)
    (hdistinct : mappings.Pairwise fun m m' => m.id ≠ m'.id)
    (hmapped : ∀ m ∈ mappings, ∀ page, m.Covers page →
      pages.mapped? page = some (m.id, m.file, page - m.base)) : pages.ServesAll mappings := by
  induction mappings generalizing pages with
  | nil => exact trivial
  | cons m rest ih =>
    obtain ⟨hne, hrest⟩ := List.pairwise_cons.1 hdistinct
    have hm := hlive m List.mem_cons_self
    refine ⟨?_, ih (fun m' hm' => hlive m' (List.mem_cons_of_mem m hm')) hrest ?_⟩
    · refine serves_of_mapped m.pageOffset_first fun i hi => ?_
      exact ⟨_, hmapped m List.mem_cons_self _ ((h.covers_iff hm).2 ⟨i, hi, rfl⟩)⟩
    · intro m' hm' page hpage
      have hm'live := hlive m' (List.mem_cons_of_mem m hm')
      rw [mapped?_removeRun m.pageOffset_first, if_neg ?_]
      · exact hmapped m' (List.mem_cons_of_mem m hm') page hpage
      · intro hrun
        exact hne m' hm' (h.id_eq hm hm'live ((h.covers_iff hm).2 hrun) hpage)

/-- A process that exits finds the pages of all its mappings. -/
theorem Process.Coherent.servesAll {pr : Process} (h : pr.Coherent) :
    pr.pages.ServesAll pr.mappings.live.values :=
  PageMap.servesAll_of_mapped h (fun _ => h.live_of_mem) h.pairwise_live fun _ hm _ hpage =>
    h.mapped_of_covers (h.live_of_mem hm) hpage

/-! ### Requests -/

namespace Pager

variable {p p' : Pager}

/-- The ways of mapping a file, with the answer and the pager afterwards. -/
inductive MapsFile (p : Pager) (pid : Nat) (file : Handle) (addr : Nat) :
    Except MmapError Nat → Pager → Prop
  /-- A request that is refused leaves no trace. -/
  | refused (error : MmapError) : MapsFile p pid file addr (.error error) p
  /-- The mapping is made through an opening of its own. -/
  | mapped {pr : Process} {pages : PageMap} {table : MappingTable} {m : Mapping}
      (mapping : m = ⟨pr.mappings.nextId, { file with serial := p.nextSerial }, addr,
        file.file.length⟩)
      (process : p.processes[pid]? = some pr) (aligned : pageOffset m.base = 0)
      (fits : m.base + m.length < 2 ^ 64)
      (declared : pr.pages.declareMapped m.id m.file m.pages.first 0 m.pages.count
        = .ok (none, pages))
      (inserted : pr.mappings.insert m = .ok table) :
    MapsFile p pid file addr (.ok m.id)
      { p.withProcess pid { pr with pages, mappings := table } with
        nextSerial := p.nextSerial + 1 }

/-- What is said of catalogues only is kept where they are. -/
theorem All.of_catalogue_eq {P : Process → Prop} (h : p.All P)
    (hP : ∀ {pr pr' : Process}, P pr → pr'.catalogue = pr.catalogue → P pr')
    (hsame : p'.catalogue = p.catalogue) : p'.All P := by
  intro pid pr' hpr'
  have hpid := congrFun hsame pid
  rw [catalogue, catalogue, hpr', Option.map_some, eq_comm, Option.map_eq_some_iff] at hpid
  obtain ⟨pr, hpr, heq⟩ := hpid
  exact hP (h pid pr hpr) heq.symm

end Pager

namespace PagerM

variable {t : Traced} {pid id addr : Nat}

theorem ensures_mapFile_cases (pid : Nat) (file : Handle) (addr : Nat) (t : Traced) :
    Ensures (Pager.mapFile pid file addr)
      (fun r t' => t.pager.MapsFile pid file addr r t'.pager) t := by
  rw [Pager.mapFile]
  simp only [ensures_bind, ensures_ite, ensures_pure, ensures_pager, ensures_process,
    ensures_lift]
  refine ⟨fun _ => .refused _, fun _ => ?_⟩
  refine ⟨fun _ => .refused _, fun haligned => ?_⟩
  refine ⟨fun _ => .refused _, fun _ => ?_⟩
  refine ⟨fun hrange => ?_, fun _ => .refused _⟩
  refine ⟨fun _ => ?_, fun _ => .refused _⟩
  have haligned : pageOffset addr = 0 := by simpa using haligned
  have hfits := (lt_of_isUserRange hrange).1
  rintro pr hpr ⟨found, pages⟩ hdecl
  cases found with
  | some q =>
    simp only [ensures_bind, ensures_setProcess, ensures_emit, ensures_pure]
    show t.pager.MapsFile pid file addr _ (t.pager.withProcess pid _)
    rw [PageMap.removeRun_of_overlap haligned hfits hdecl, Pager.withProcess_self hpr]
    exact .refused _
  | none =>
    simp only [ensures_bind, ensures_lift, ensures_setProcess, ensures_update, ensures_emit,
      ensures_pure]
    intro table hinsert
    exact .mapped rfl hpr haligned hfits hdecl hinsert

/-- A mapping that is removed leaves the table and takes its run of pages with it. -/
theorem ensures_unmapFile_cases (pid id : Nat) (t : Traced) :
    Ensures (Pager.unmapFile pid id) (fun _ t' => ∃ pr m pr' q,
      t.pager.processes[pid]? = some pr ∧ pr.mappings.live[id]? = some m ∧
      pr'.mappings = { pr.mappings with live := pr.mappings.live.erase id } ∧
      pr'.pages = pr.pages.removeRun m.pages.first m.pages.count ∧
      t.pager.Returns q ∧ t'.pager = q.withProcess pid pr') t := by
  rw [Pager.unmapFile]
  simp only [ensures_bind, ensures_process]
  intro pr hpr
  rw [MappingTable.remove]
  cases hm : pr.mappings.live[id]? with
  | none => simp
  | some m =>
    simp only [ensures_bind, ensures_setProcess, ensures_emit]
    refine (ensures_unmapPages_returns m _ _ _ t).mono ?_
    rintro pr' t' ⟨hreturns, hmappings, hpages⟩
    exact ⟨pr, m, pr', t'.pager, hpr, hm, hmappings, hpages, hreturns, rfl⟩

/-- Every request keeps the records of all processes in agreement. -/
theorem coherent_perform (op : Op) (ht : t.pager.All Process.Coherent) :
    Ensures (Pager.perform op) (fun _ t' => t'.pager.All Process.Coherent) t := by
  cases hop : op.remaps with
  | false =>
    exact (ensures_perform_catalogue hop t).mono fun _ _ =>
      ht.of_catalogue_eq Process.Coherent.congr
  | true =>
    cases op with
    | register pid =>
      simp only [Pager.perform, ensures_bind, ensures_pure]
      refine (ensures_register_fresh pid t).mono ?_
      rintro _ t' ⟨-, hpager⟩
      rw [hpager]
      exact ht.insert rfl .fresh
    | destroy pid =>
      simp only [Pager.perform, ensures_bind, ensures_pure]
      refine (ensures_destroy_processes pid t).mono ?_
      intro _ t' hprocesses q pr hpr
      rw [hprocesses, Std.ExtTreeMap.getElem?_erase] at hpr
      split at hpr
      · cases hpr
      · exact ht q pr hpr
    | mapFile pid file addr =>
      simp only [Pager.perform, ensures_bind, ensures_pure]
      refine (ensures_mapFile_cases pid file addr t).mono ?_
      rintro r ⟨p', log⟩ hmaps
      cases hmaps with
      | refused => exact ht
      | mapped mapping process aligned fits declared inserted =>
        exact ht.insert rfl ((ht pid _ process).map aligned fits declared inserted)
    | unmapFile pid id =>
      simp only [Pager.perform, ensures_bind, ensures_pure]
      refine (ensures_unmapFile_cases pid id t).mono ?_
      rintro _ t' ⟨pr, m, pr', q, hpr, hm, hmappings, hpages, ⟨_, _, -, rfl⟩, hpager⟩
      rw [hpager]
      exact ht.insert rfl ((ht pid pr hpr).unmap hm hmappings hpages)
    | _ => cases hop

end PagerM

/-! ### Runs -/

namespace Pager

/-- Frames and slots belong to the pages in them, every page can be unmapped, and the mappings agree
with the pages. -/
structure InOrder (config : Config) (slots : Nat) (p : Pager) : Prop where
  owned : Owned config slots p
  releasable : p.All Process.Releasable
  coherent : p.All Process.Coherent

theorem inOrder_ofConfig (config : Config) (device : Block) :
    InOrder config (Swap.ofBlock device config.swapSlots).slots (ofConfig config device) :=
  ⟨owned_ofConfig config device, all_ofConfig config device, all_ofConfig config device⟩

end Pager

namespace PagerM

open Pager (InOrder)

variable {config : Config} {slots : Nat} {t : Traced}

theorem inOrder_perform (op : Op) (ht : InOrder config slots t.pager) :
    Ensures (Pager.perform op) (fun _ t' => InOrder config slots t'.pager) t := by
  refine ((ensures_perform op t).and (coherent_perform op ht.coherent)).mono ?_
  rintro answer t' ⟨hop, hcoherent⟩
  exact ⟨hop.steps.owned ht.owned, hop.steps.releasable ht.owned ht.releasable, hcoherent⟩

theorem inOrder_run (ops : List Op) (ht : InOrder config slots t.pager) :
    Ensures (Pager.run ops) (fun _ t' => InOrder config slots t'.pager) t :=
  keeps_run (P := fun t => InOrder config slots t.pager) (fun op _ _ => inOrder_perform op) t ht

end PagerM

/-- What mappings and pages have to do with each other in process `pid`, whose state at `t` is
`pr`. -/
structure Traced.MappingsCohere (t : Traced) (pid : Nat) (pr : Process) : Prop where
  /-- A live mapping is kept under its number, begins on a page boundary, and its number was given
  out before. -/
  numbered : ∀ (id : Nat) (m : Mapping), pr.mappings.live[id]? = some m →
    m.id = id ∧ pageOffset m.base = 0 ∧ id < pr.mappings.nextId
  /-- Every page of a live mapping is declared, and reads its own page of the file through the
  opening of the mapping. -/
  declared : ∀ (id : Nat) (m : Mapping), pr.mappings.live[id]? = some m → ∀ page, m.Covers page →
    ∃ e : PageEntry, pr.pages.entries[page]? = some e ∧ e.source = .mapped id m.file (page - m.base)
  /-- Every page that reads a mapped file belongs to one live mapping in this way. -/
  belongs : ∀ (page : Nat) (e : PageEntry) (id : Nat) (file : Handle) (offset : Nat),
    pr.pages.entries[page]? = some e → e.source = .mapped id file offset →
      ∃! m : Mapping, pr.mappings.live[m.id]? = some m ∧ m.Covers page ∧
        e.source = .mapped m.id m.file (page - m.base)
  /-- Two live mappings have no page in common. -/
  disjoint : ∀ (id id' : Nat) (m m' : Mapping), pr.mappings.live[id]? = some m →
    pr.mappings.live[id']? = some m' → id ≠ id' → ∀ page, m.Covers page → ¬ m'.Covers page
  /-- A live mapping can be removed, and finds each of its pages. -/
  unmaps : ∀ (id : Nat) (m : Mapping), pr.mappings.live[id]? = some m →
    pr.pages.Serves m m.pages.first m.pages.count ∧ PagerM.Ends (Pager.unmapFile pid id) t
  /-- The process can be torn down, and each of its mappings finds each of its pages then. -/
  destroys : pr.pages.ServesAll pr.mappings.live.values ∧ PagerM.Ends (Pager.destroy pid) t

namespace Pager

variable {config : Config} {device : Block} {ops : List Op} {answers : List Answer} {t : Traced}

theorem inOrder_of_run (h : (run ops).run (.start config device) = .ok answers t) :
    InOrder config (Swap.ofBlock device config.swapSlots).slots t.pager :=
  PagerM.inOrder_run (t := .start config device) ops (inOrder_ofConfig config device) answers t h

/-- After every run that does not panic, the mappings and the pages of every registered process
agree. So removing a mapping and tearing a process down pass over no page, and meet no page of
something else. -/
theorem mappings_cohere_of_run {pid : Nat} {pr : Process}
    (h : (run ops).run (.start config device) = .ok answers t)
    (hpr : t.pager.processes[pid]? = some pr) : t.MappingsCohere pid pr := by
  obtain ⟨ho, hp, hall⟩ := inOrder_of_run h
  have hcoherent := hall pid pr hpr
  constructor
  · intro id m hm
    obtain ⟨hid, hlt⟩ := hcoherent.numbered id m hm
    exact ⟨hid, (hcoherent.placed id m hm).1, hlt⟩
  · intro id m hm page hpage
    exact PageMap.mapped?_eq_some.1 (hcoherent.mapped_of_covers hm hpage)
  · intro page e id file offset he hsource
    obtain ⟨m, hm, hpage, rfl, rfl⟩ := (hcoherent.mapped_iff page id file offset).1
      (PageMap.mapped?_eq_some.2 ⟨e, he, hsource⟩)
    have hid := (hcoherent.numbered id m hm).1
    refine ⟨m, ⟨by rwa [hid], hpage, by rwa [hid]⟩, ?_⟩
    rintro m' ⟨hm', hpage', -⟩
    rw [← hcoherent.id_eq hm hm' hpage hpage', hm] at hm'
    exact (Option.some.inj hm').symm
  · intro id id' m m' hm hm' hne page hpage hpage'
    exact hne (hcoherent.id_eq hm hm' hpage hpage')
  · intro id m hm
    exact ⟨hcoherent.serves hm, (PagerM.meets_unmapFile ho hp hpr hm (hcoherent.serves hm)).ends⟩
  · exact ⟨hcoherent.servesAll,
      (PagerM.meets_destroy_of_servesAll ho hp hpr hcoherent.servesAll).ends⟩

/-- A process maps three files. The mapping of three pages that runs into the first one is refused,
and goes through after the first one was removed. -/
theorem mappings_cohere_two : ∃ answers t pr,
    (run [.register 1, .mapFile 1 ⟨5, 0, .unreliable #[7] 4097 1 4097 true⟩ 0x3000,
      .mapFile 1 ⟨6, 0, .unreliable #[1] 8193 1 8193 true⟩ 0x2000,
      .mapFile 1 ⟨7, 0, .ofBytes #[1, 2, 3]⟩ 0x1000, .pageFault 1 0x3000 0, .unmapFile 1 0,
      .mapFile 1 ⟨6, 0, .unreliable #[1] 8193 1 8193 true⟩ 0x2000, .pageFault 1 0x3000 0]).run
        (.start { userFrames := 1 } (.attach .swap "swap" (.ram (.blank 64)))) = .ok answers t ∧
    t.pager.processes[1]? = some pr ∧ pr.mappings.live.keys = [1, 2] ∧
    t.MappingsCohere 1 pr := by
  have hrun : ∃ answers t,
      (run [.register 1, .mapFile 1 ⟨5, 0, .unreliable #[7] 4097 1 4097 true⟩ 0x3000,
        .mapFile 1 ⟨6, 0, .unreliable #[1] 8193 1 8193 true⟩ 0x2000,
        .mapFile 1 ⟨7, 0, .ofBytes #[1, 2, 3]⟩ 0x1000, .pageFault 1 0x3000 0, .unmapFile 1 0,
        .mapFile 1 ⟨6, 0, .unreliable #[1] 8193 1 8193 true⟩ 0x2000, .pageFault 1 0x3000 0]).run
          (.start { userFrames := 1 } (.attach .swap "swap" (.ram (.blank 64)))) = .ok answers t ∧
      t.pager.processes[1]?.any fun pr => pr.mappings.live.keys = [1, 2] := by
    decide +kernel
  obtain ⟨answers, t, h, hmappings⟩ := hrun
  obtain ⟨pr, hpr, hkeys⟩ := (Option.any_eq_true _ _).1 hmappings
  exact ⟨answers, t, pr, h, hpr, of_decide_eq_true hkeys, mappings_cohere_of_run h hpr⟩

end Pager

end DemandPaging
