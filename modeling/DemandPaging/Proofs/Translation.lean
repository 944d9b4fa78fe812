import DemandPaging.Pager.Query
import DemandPaging.Proofs.Ownership
import DemandPaging.Proofs.PageTable

/-!
# What the hardware sees

The page map of a process says where its pages are, and its page table says it again to the
hardware. A page is mapped when it is loaded and unmapped when it is moved to swap or given back,
so the table maps exactly the resident pages, each to its frame, and lets a page be written exactly
when its entry says so. Two pages are never mapped to one frame, because no two pages are resident
in it.

A table takes a page whenever its place is empty. A missing page has an empty place, so a load is
never refused, unless the address space was told to refuse it. `Process.Charted` leaves the
refusals out of account and `Process.Mirrored` rules them out.

## Main definitions

* `Process.Turns` — what the changes do to one process.
* `Process.Charted`, `Process.Mirrored` — the table of a process maps exactly its resident pages.
* `Pager.Translated` — what every process sees of its memory, and that processes are kept apart.

## Main results

* `Pager.Step.all` — a law about the turns of one process is a law about all of them.
* `Pager.Step.charted`, `Pager.Step.mirrored` — every step keeps the tables in line with the page
  maps.
* `Pager.translated_of_run` — so they are in line after every run, and no load is refused.
-/

namespace DemandPaging

open VirtualAddress (place)

/-- What a table should say of a page with this entry: its frame, and whether it is writable. -/
def PageEntry.mapping (e : Option PageEntry) : Option (Nat × Bool) :=
  e.bind fun e => e.frame?.map fun f => (poolBase / pageSize + f, e.writable)

theorem PageEntry.mapping_of_frame {e : PageEntry} (h : e.frame? = none) :
    mapping (some e) = none := by
  rw [mapping, Option.bind_some, h, Option.map_none]

theorem div_of_frameAddress {f phys : Nat} (h : frameAddress f = .ok phys) :
    phys / pageSize = poolBase / pageSize + f := by
  simp only [frameAddress, except_bind_eq_ok, checkedMul_eq_ok, checkedAdd_eq_ok] at h
  obtain ⟨_, ⟨-, rfl⟩, -, rfl⟩ := h
  rw [poolBase, pageSize]
  omega

/-! ### One process -/

/-- The table of the process maps exactly its resident pages. -/
structure Process.Charted (pr : Process) : Prop where
  wellFormed : pr.space.table.WellFormed
  mapping_eq : ∀ addr < 2 ^ 32,
    pr.space.table.mapping (place addr) = PageEntry.mapping pr.pages.entries[pageFloor addr]?

/-- The table of the process maps exactly its resident pages, and nothing is refused. -/
structure Process.Mirrored (pr : Process) : Prop extends pr.Charted where
  accepts : ∀ n, pr.space.refuses n = false

/-- What a change does to a process: its pages, its table and its mappings afterwards. -/
inductive Process.Turns (pr : Process) : Pager.Change → Process → Prop
  /-- The table stays, since the pages that come and go are in no frame. -/
  | idle {change : Pager.Change} {pages : PageMap} {mappings : MappingTable}
      (same : ∀ k : Nat, PageEntry.mapping pages.entries[k]?
        = PageEntry.mapping pr.pages.entries[k]?) :
    Turns pr change { pr with pages, mappings }
  /-- A page is put into a frame. -/
  | mapped {change : Pager.Change} {addr phys f : Nat} {e : PageEntry} {space : AddressSpace}
      (address : frameAddress f = .ok phys)
      (mapped : pr.space.setPage addr phys e.writable = .ok (true, space)) :
    Turns pr change
      { pr with space, pages := pr.pages.set addr { e with residency := .resident f } }
  /-- A page is not put into a frame. -/
  | refused {change : Pager.Change} {addr phys : Nat} {writable : Bool} {space : AddressSpace}
      (refused : pr.space.setPage addr phys writable = .ok (false, space)) :
    Turns pr change { pr with space }
  /-- A page is taken out of its frame, and it is moved to swap or goes. -/
  | unmapped {change : Pager.Change} {addr : Nat} {entry : Option PageEntry} {pages : PageMap}
      {space : AddressSpace} (unmapped : pr.space.clearPage addr = .ok space)
      (away : PageEntry.mapping entry = none)
      (pages_eq : ∀ k, pages.entries[k]?
        = if pageFloor addr = k then entry else pr.pages.entries[k]?) :
    Turns pr change { pr with space, pages }
  /-- A new plan of refusals starts. -/
  | plan (refuses : Nat → Bool) : Turns pr .plan { pr with space := pr.space.plan refuses }

namespace Process

variable {pr pr' : Process} {addr phys f : Nat} {e : PageEntry} {space : AddressSpace}
  {change : Pager.Change}

theorem Charted.fresh : Process.fresh.Charted where
  wellFormed := PageTable.wellFormed_empty
  mapping_eq addr _ := by
    show PageTable.empty.mapping (place addr) = _
    rw [PageTable.mapping_empty]
    simp [Process.fresh, PageMap.empty, PageEntry.mapping]

/-- One page of the map changes, and the table follows at its place. -/
theorem Charted.update (h : pr.Charted) (hwf : pr'.space.table.WellFormed) (haddr : addr < 2 ^ 32)
    {entry : Option PageEntry}
    (hpages : ∀ k, pr'.pages.entries[k]?
      = if pageFloor addr = k then entry else pr.pages.entries[k]?)
    (htable : pr'.space.table.mapping
      = Function.update pr.space.table.mapping (place addr) (PageEntry.mapping entry)) :
    pr'.Charted := by
  refine ⟨hwf, fun a ha => ?_⟩
  rw [htable, hpages]
  by_cases hpage : pageFloor addr = pageFloor a
  · rw [if_pos hpage, (VirtualAddress.place_eq_iff ha haddr).2 hpage.symm, Function.update_self]
  · rw [if_neg hpage, Function.update_of_ne, h.mapping_eq a ha]
    exact fun hplace => hpage ((VirtualAddress.place_eq_iff ha haddr).1 hplace).symm

/-- What installing a page does to the table, unless the request was refused. -/
theorem table_of_setPage {writable installed : Bool}
    (h : pr.space.setPage addr phys writable = .ok (installed, space)) :
    (installed = false ∧ space.table = pr.space.table) ∨
      pr.space.table.map phys addr writable true = .ok (installed, space.table) := by
  simp only [AddressSpace.setPage, except_bind_eq_ok, except_pure_eq_ok, except_ite_eq_ok,
    except_throw_ne_ok, false_and, exists_false, and_false, or_false, Prod.mk.injEq] at h
  rcases h with ⟨-, rfl, rfl⟩ | ⟨-, -, ⟨_, table⟩, hmap, rfl, rfl⟩
  · exact .inl ⟨rfl, rfl⟩
  · exact .inr hmap

theorem table_of_clearPage (h : pr.space.clearPage addr = .ok space) :
    pr.space.table.unmap addr = .ok space.table := by
  simp only [AddressSpace.clearPage, except_bind_eq_ok, except_pure_eq_ok] at h
  obtain ⟨table, hunmap, rfl⟩ := h
  exact hunmap

/-- The table follows every change of the pages. -/
theorem Turns.charted (h : pr.Turns change pr') (hpr : pr.Charted) : pr'.Charted := by
  cases h with
  | idle same =>
    exact ⟨hpr.wellFormed, fun addr haddr => (hpr.mapping_eq addr haddr).trans (same _).symm⟩
  | mapped address mapped =>
    rcases table_of_setPage mapped with ⟨h, -⟩ | hmap
    · simp at h
    obtain ⟨haddr, hwf, hmapping⟩ := hpr.wellFormed.map hmap
    rw [if_pos rfl] at hmapping
    refine hpr.update hwf haddr (fun k => PageMap.getElem?_set _ _ _ _) ?_
    rw [hmapping.2, div_of_frameAddress address]
    rfl
  | @refused _ _ _ _ space refused =>
    rcases table_of_setPage refused with ⟨-, htable⟩ | hmap
    · exact ⟨by simpa [htable] using hpr.wellFormed, by simpa [htable] using hpr.mapping_eq⟩
    obtain ⟨-, hwf, hmapping⟩ := hpr.wellFormed.map hmap
    rw [if_neg Bool.false_ne_true] at hmapping
    exact ⟨hwf, fun addr haddr => hmapping.2 ▸ hpr.mapping_eq addr haddr⟩
  | unmapped unmapped away pages_eq =>
    obtain ⟨haddr, hwf, hmapping⟩ := hpr.wellFormed.unmap (table_of_clearPage unmapped)
    exact hpr.update hwf haddr pages_eq (by rw [away]; exact hmapping)
  | plan => exact ⟨hpr.wellFormed, hpr.mapping_eq⟩

/-- The resident pages lie below 4 GiB, where the table reaches. -/
def WithinReach (pr : Process) : Prop :=
  ∀ k : Nat, (PageEntry.mapping pr.pages.entries[k]?).isSome → k < 2 ^ 32

theorem WithinReach.fresh : Process.fresh.WithinReach := fun k h => by
  simp [Process.fresh, PageMap.empty, PageEntry.mapping] at h

theorem Turns.withinReach (h : pr.Turns change pr') (hcharted : pr.Charted)
    (hpr : pr.WithinReach) : pr'.WithinReach := by
  cases h with
  | idle same => exact fun k hk => hpr k (by rwa [← same])
  | mapped address mapped =>
    rcases table_of_setPage mapped with ⟨h, -⟩ | hmap
    · simp at h
    obtain ⟨haddr, -⟩ := hcharted.wellFormed.map hmap
    intro k hk
    rw [PageMap.getElem?_set] at hk
    split at hk
    · rename_i hpage
      exact hpage ▸ Nat.lt_of_le_of_lt (pageFloor_le _) haddr
    · exact hpr k hk
  | refused => exact hpr
  | unmapped unmapped away pages_eq =>
    intro k hk
    rw [pages_eq] at hk
    split at hk
    · simp [away] at hk
    · exact hpr k hk
  | plan => exact hpr

/-- Nothing is refused that was not refused before, unless there is a new plan. -/
theorem Turns.refuses_eq (h : pr.Turns change pr') (hchange : change ≠ .plan) :
    pr'.space.refuses = pr.space.refuses := by
  cases h with
  | idle => rfl
  | mapped address set | refused set =>
    simp only [AddressSpace.setPage, except_bind_eq_ok, except_pure_eq_ok, except_ite_eq_ok,
      except_throw_ne_ok, false_and, exists_false, and_false, or_false, Prod.mk.injEq] at set
    rcases set with ⟨-, -, rfl⟩ | ⟨-, -, _, -, -, rfl⟩ <;> rfl
  | unmapped unmapped =>
    simp only [AddressSpace.clearPage, except_bind_eq_ok, except_pure_eq_ok] at unmapped
    obtain ⟨_, -, rfl⟩ := unmapped
    rfl
  | plan => exact absurd rfl hchange

theorem Turns.mirrored (h : pr.Turns change pr') (hchange : change ≠ .plan) (hpr : pr.Mirrored) :
    pr'.Mirrored where
  toCharted := h.charted hpr.toCharted
  accepts := h.refuses_eq hchange ▸ hpr.accepts

/-- A missing page has an empty place in the table, so the table takes it, and nothing is refused
unless the plan says so. -/
theorem Charted.setPage_ne_false (h : pr.Charted)
    (haccepts : pr.space.refuses pr.space.requests = false)
    (hentry : pr.pages.lookup addr = some e) (hframe : e.frame? = none) :
    pr.space.setPage addr phys e.writable ≠ .ok (false, space) := by
  intro hset
  simp only [AddressSpace.setPage, haccepts, Bool.false_eq_true, if_false, except_bind_eq_ok,
    except_pure_eq_ok, except_ite_eq_ok, except_throw_ne_ok, false_and, exists_false, and_false,
    or_false, Prod.mk.injEq] at hset
  obtain ⟨-, ⟨_, table⟩, hmap, rfl, -⟩ := hset
  obtain ⟨haddr, -, hmapping⟩ := h.wellFormed.map hmap
  rw [if_neg Bool.false_ne_true, h.mapping_eq addr haddr] at hmapping
  rw [PageMap.lookup] at hentry
  rw [hentry, PageEntry.mapping_of_frame hframe] at hmapping
  exact absurd hmapping.1 (by simp)

end Process

/-! ### All processes -/

namespace Pager

variable {p p₁ p' : Pager} {config : Config} {slots pid page f : Nat} {e : PageEntry}
  {o : FrameOwner}

/-- Every process has the property `P`. -/
def All (P : Process → Prop) (p : Pager) : Prop :=
  ∀ (pid : Nat) pr, p.processes[pid]? = some pr → P pr

/-- The tables of all processes map exactly the resident pages. -/
def Charted (p : Pager) : Prop := p.All Process.Charted

/-- The tables of all processes map exactly the resident pages, and nothing is refused. -/
def Mirrored (p : Pager) : Prop := p.All Process.Mirrored

theorem Mirrored.charted (h : p.Mirrored) : p.Charted :=
  fun pid pr hpr => (h pid pr hpr).toCharted

section All

variable {P : Process → Prop}

theorem All.congr (h : p.All P) (hprocesses : p'.processes = p.processes) : p'.All P := by
  rw [All, hprocesses]
  exact h

theorem All.insert {pr : Process} (h : p.All P)
    (hprocesses : p'.processes = p.processes.insert pid pr) (hpr : P pr) : p'.All P := by
  intro q prq hq
  rw [hprocesses, Std.ExtTreeMap.getElem?_insert] at hq
  split at hq
  · cases hq
    exact hpr
  · exact h q prq hq

theorem all_ofConfig (config : Config) (device : Block) : (ofConfig config device).All P := by
  intro pid pr hpr
  simp [ofConfig] at hpr

theorem Acquires.all (h : p.Acquires o f p₁)
    (hturns : ∀ pr pr', P pr → pr.Turns .grow pr' → P pr') (hp : p.All P) : p₁.All P := by
  cases h with
  | free => exact hp
  | evicting none_free victim owner process entry resident unmapped =>
    exact hp.insert rfl (hturns _ _ (hp _ _ process)
      (.unmapped unmapped (PageEntry.mapping_of_frame rfl) fun k => PageMap.getElem?_set _ _ _ _))

theorem Loads.all {result : Except FaultError Nat} (h : p.Loads pid page result p')
    (hturns : ∀ pr pr', P pr → pr.Turns .grow pr' → P pr') (hp : p.All P) : p'.All P := by
  cases h with
  | unreadable acquired => exact (acquired.all hturns hp).congr rfl
  | refused acquired process entry held fetched written address refused =>
    have hp₁ := acquired.all hturns hp
    exact hp₁.insert rfl (hturns _ _ (hp₁ _ _ process) (.refused refused))
  | loaded acquired process entry held fetched written address mapped =>
    have hp₁ := acquired.all hturns hp
    exact hp₁.insert rfl (hturns _ _ (hp₁ _ _ process) (.mapped address mapped))

/-- What new processes have and a process keeps through its turns, every process has. -/
theorem Step.all {change : Change} (h : Step change p p') (hfresh : P .fresh)
    (hturns : ∀ pr pr', P pr → pr.Turns change pr' → P pr') (ho : Owned config slots p)
    (hp : p.All P) : p'.All P := by
  cases h with
  | @declare _ pid page pr source writable process allowed user undeclared =>
    have hfloor := pageFloor_of_pageOffset (PageMap.pageOffset_of_checkDeclaration allowed)
    refine hp.insert rfl (hturns _ _ (hp pid pr process) (.idle fun k => ?_))
    rw [PageMap.getElem?_set, hfloor]
    split
    · rename_i hk
      rw [← hk, undeclared, PageEntry.mapping_of_frame rfl]
      rfl
    · rfl
  | load missing loads => exact loads.all hturns hp
  | pin | unpin | medium | write => exact hp.congr rfl
  | register => exact hp.insert rfl hfresh
  | @remove _ p₁ pid page pr e space process entry releases =>
    have hprocesses := (PagerM.releases_withProcess releases).1
    have hpage : pageFloor page = page := pageFloor_of_pageOffset
      (ho.aligned ⟨pid, page⟩ (by rw [declared_of_getElem? process, entry]; rfl))
    refine (hp.congr hprocesses).insert rfl (hturns _ _ (hp pid pr process) ?_)
    have hidle : e.frame? = none → ∀ k : Nat,
        PageEntry.mapping (pr.pages.entries.erase page)[k]?
          = PageEntry.mapping pr.pages.entries[k]? := by
      intro hframe k
      rw [PageMap.getElem?_erase]
      split
      · rename_i hk
        rw [← hk, entry, PageEntry.mapping_of_frame hframe]
        rfl
      · rfl
    cases releases with
    | resident residency unmapped =>
      have haway : PageEntry.mapping none = none := rfl
      refine .unmapped unmapped haway fun k => ?_
      rw [PageMap.getElem?_erase, hpage]
    | swapped residency => exact .idle (hidle (by rw [PageEntry.frame?, residency]))
    | notPopulated residency => exact .idle (hidle (by rw [PageEntry.frame?, residency]))
  | discard process bare =>
    intro q prq hq
    rw [Std.ExtTreeMap.getElem?_erase] at hq
    split at hq
    · simp at hq
    · exact hp q prq hq
  | mappings mappings nextSerial process =>
    exact hp.insert rfl (hturns _ _ (hp _ _ process) (.idle fun _ => rfl))
  | plan refuses process => exact hp.insert rfl (hturns _ _ (hp _ _ process) (.plan refuses))

end All

theorem Step.charted {change : Change} (h : Step change p p') (ho : Owned config slots p)
    (hp : p.Charted) : p'.Charted :=
  h.all .fresh (fun _ _ hpr hturn => hturn.charted hpr) ho hp

theorem Acquires.mirrored (h : p.Acquires o f p₁) (hp : p.Mirrored) : p₁.Mirrored :=
  h.all (fun _ _ hpr hturn => hturn.mirrored (by simp) hpr) hp

theorem Loads.mirrored {result : Except FaultError Nat} (h : p.Loads pid page result p')
    (ho : Owned config slots p) (hmissing : p.Missing ⟨pid, page⟩) (hp : p.Mirrored) :
    p'.Mirrored ∧ result ≠ .error .mapFailed := by
  refine ⟨h.all (fun _ _ hpr hturn => hturn.mirrored (by simp) hpr) hp, ?_⟩
  cases h with
  | unreadable => simp
  | @refused f phys p₁ pr e old contents swap memory space frames acquired process entry held
      fetched written address refused released =>
    obtain ⟨hpage, e', he', hframe⟩ := acquired.missing ho hmissing
    rw [declared_of_getElem? process] at he'
    rw [PageMap.lookup, pageFloor_of_pageOffset hpage, he'] at entry
    cases entry
    have hlookup : pr.pages.lookup page = some e := by
      rwa [PageMap.lookup, pageFloor_of_pageOffset hpage]
    have hmirrored := acquired.mirrored hp pid pr process
    exact (hmirrored.setPage_ne_false (hmirrored.accepts _) hlookup hframe refused).elim
  | loaded => simp

/-- Every step that plans no refusals keeps the tables in line with the page maps. -/
theorem Step.mirrored {change : Change} (h : Step change p p') (hchange : change ≠ .plan)
    (ho : Owned config slots p) (hp : p.Mirrored) : p'.Mirrored :=
  h.all ⟨.fresh, fun _ => rfl⟩ (fun _ _ hpr hturn => hturn.mirrored hchange hpr) ho hp

/-! ### What processes see -/

/-- What every process sees of its memory through the tables, and that processes are kept apart. -/
structure Translated (p : Pager) : Prop where
  /-- An address translates into the frame of its page, if the page is in one. -/
  translate_eq : ∀ (pid : Nat) pr v, p.processes[pid]? = some pr → v < 2 ^ 32 →
    p.translate pid v = .ok (((pr.pages.lookup v).bind PageEntry.frame?).map fun f =>
      poolBase + f * pageSize + pageOffset v)
  /-- An address may be written exactly when its page is in a frame and writable. -/
  isMappedWritable_eq : ∀ (pid : Nat) pr v, p.processes[pid]? = some pr → v < 2 ^ 32 →
    p.isMappedWritable pid v
      = .ok ((pr.pages.lookup v).any fun e => e.frame?.isSome && e.writable)
  /-- Two addresses that translate into one frame lie on one page of one process. -/
  apart : ∀ pid pid' v v' a a', p.translate pid v = .ok (some a) →
    p.translate pid' v' = .ok (some a') → a / pageSize = a' / pageSize →
    pid = pid' ∧ pageFloor v = pageFloor v'
  /-- No address translates into a frame that is free. -/
  allocated : ∀ pid v a, p.translate pid v = .ok (some a) →
    ∃ f, a / pageSize = poolBase / pageSize + f ∧ p.frames.isAllocated f = true

theorem process_eq_ok {pr : Process} : p.process pid = .ok pr ↔ p.processes[pid]? = some pr := by
  rw [process]
  cases p.processes[pid]? <;> simp

theorem translate_eq_ok {v : Nat} {answer : Option Nat} :
    p.translate pid v = .ok answer ↔
      ∃ pr, p.processes[pid]? = some pr ∧ pr.space.table.translate v = .ok answer := by
  simp only [translate, AddressSpace.getPage, except_bind_eq_ok, process_eq_ok]

/-- An address of more than 32 bits has no place in the tables. -/
theorem translate_of_wide {pr : Process} {v : Nat} (hpr : p.processes[pid]? = some pr)
    (hv : 2 ^ 32 ≤ v) : p.translate pid v = .error (.virtualTooWide v) := by
  have haddr : VirtualAddress.ofNat v = .error (.virtualTooWide v) := if_neg (Nat.not_lt.2 hv)
  rw [translate, process_eq_ok.2 hpr, except_ok_bind, AddressSpace.getPage, PageTable.translate,
    PageTable.entry?, haddr]
  rfl

theorem Charted.translate_eq (h : p.Charted) {pr : Process} {v : Nat}
    (hpr : p.processes[pid]? = some pr) (hv : v < 2 ^ 32) :
    p.translate pid v = .ok (((pr.pages.lookup v).bind PageEntry.frame?).map fun f =>
      poolBase + f * pageSize + pageOffset v) := by
  have hcharted := h pid pr hpr
  refine translate_eq_ok.2 ⟨pr, hpr, ?_⟩
  rw [hcharted.wellFormed.translate_eq hv, hcharted.mapping_eq v hv, PageEntry.mapping,
    PageMap.lookup]
  cases he : pr.pages.entries[pageFloor v]? with
  | none => rfl
  | some e =>
    simp only [Option.bind_some, Option.map_map]
    congr 1
    refine Option.map_congr fun f _ => ?_
    simp only [Function.comp, poolBase, pageSize]
    omega

theorem Charted.isMappedWritable_eq (h : p.Charted) {pr : Process} {v : Nat}
    (hpr : p.processes[pid]? = some pr) (hv : v < 2 ^ 32) :
    p.isMappedWritable pid v
      = .ok ((pr.pages.lookup v).any fun e => e.frame?.isSome && e.writable) := by
  have hcharted := h pid pr hpr
  simp only [isMappedWritable, AddressSpace.isWritable, except_bind_eq_ok, process_eq_ok]
  refine ⟨pr, hpr, ?_⟩
  rw [hcharted.wellFormed.isWritable_eq hv, hcharted.mapping_eq v hv, PageEntry.mapping,
    PageMap.lookup]
  cases he : pr.pages.entries[pageFloor v]? with
  | none => rfl
  | some e => cases hframe : e.frame? <;> simp [hframe]

/-- An address that translates is on a page that is in a frame. -/
theorem Charted.of_translate (h : p.Charted) {v a : Nat}
    (ht : p.translate pid v = .ok (some a)) :
    ∃ f, p.residency ⟨pid, pageFloor v⟩ = some (.resident f) ∧
      a / pageSize = poolBase / pageSize + f := by
  obtain ⟨pr, hpr, htable⟩ := translate_eq_ok.1 ht
  have hv : v < 2 ^ 32 := by
    simp only [PageTable.translate, PageTable.entry?, except_bind_eq_ok,
      VirtualAddress.ofNat_eq_ok] at htable
    obtain ⟨_, ⟨_, ⟨hv, -⟩, -⟩, -⟩ := htable
    exact hv
  rw [h.translate_eq hpr hv, Except.ok.injEq, Option.map_eq_some_iff] at ht
  obtain ⟨f, hf, rfl⟩ := ht
  rw [Option.bind_eq_some_iff] at hf
  obtain ⟨e, he, hframe⟩ := hf
  refine ⟨f, ?_, ?_⟩
  · rw [residency, declared_of_getElem? hpr, ← PageMap.lookup, he, Option.map_some,
      frame_eq_some.1 hframe]
  · have := pageOffset_lt v
    simp only [poolBase, pageSize] at *
    omega

theorem Charted.translated (h : p.Charted) (ho : Owned config slots p) : p.Translated where
  translate_eq _ _ _ := h.translate_eq
  isMappedWritable_eq _ _ _ := h.isMappedWritable_eq
  apart pid pid' v v' a a' ht ht' heq := by
    obtain ⟨f, hf, ha⟩ := h.of_translate ht
    obtain ⟨f', hf', ha'⟩ := h.of_translate ht'
    obtain rfl : f = f' := by omega
    have howner := (ho.frames.owners f _).2 hf
    rw [(ho.frames.owners f _).2 hf', Option.some.injEq, FrameOwner.mk.injEq] at howner
    exact ⟨howner.1.symm, howner.2.symm⟩
  allocated pid v a ht := by
    obtain ⟨f, hf, ha⟩ := h.of_translate ht
    refine ⟨f, ha, ?_⟩
    rw [← ho.frames.consistent.isSome_ownerOf, (ho.frames.owners f _).2 hf]
    rfl

/-! ### Runs -/

theorem Steps.mirrored {kinds : Change → Prop} (h : Steps kinds p p')
    (hkinds : ∀ change, kinds change → change ≠ .plan) (ho : Owned config slots p)
    (hp : p.Mirrored) : p'.Mirrored :=
  h.keeps_owned ho (fun hk hstep => hstep.mirrored (hkinds _ hk)) hp

/-- Tables that are in line with the page maps refuse nothing. -/
theorem Mirrored.not_refuses {kinds : Change → Prop}
    (hkinds : ∀ change, kinds change → change ≠ .plan) (ho : Owned config slots p)
    (hp : p.Mirrored) : ¬ Refuses kinds p p' := by
  rintro ⟨q, q', pid, page, hsteps, hmissing, hloads, -⟩
  exact (hloads.mirrored (hsteps.owned ho) hmissing (hsteps.mirrored hkinds ho hp)).2 rfl

end Pager

namespace PagerM

open Pager (Owned)

theorem ensures_run_mirrored {config : Config} {slots : Nat} (ops : List Op)
    (hops : ∀ op ∈ ops, op.plans = false) (t : Traced) (ho : Owned config slots t.pager)
    (hp : t.pager.Mirrored) :
    Ensures (Pager.run ops) (fun answers t' => Owned config slots t'.pager ∧ t'.pager.Mirrored ∧
      ∀ answer ∈ answers, ¬ answer.mapFailed) t := by
  induction ops generalizing t with
  | nil =>
    rw [Pager.run]
    exact ensures_pure.2 ⟨ho, hp, by simp⟩
  | cons op rest ih =>
    rw [Pager.run]
    simp only [ensures_bind, ensures_pure]
    refine (ensures_perform op t).mono ?_
    intro answer t₁ hop
    have hkinds : ∀ change, op.changes change → change ≠ .plan := fun _ =>
      Op.ne_plan (hops op List.mem_cons_self)
    refine (ih (fun op' hop' => hops op' (List.mem_cons_of_mem op hop')) t₁
      (hop.steps.owned ho) (hop.steps.mirrored hkinds ho hp)).mono fun answers t' hrest => ?_
    refine ⟨hrest.1, hrest.2.1, fun a ha => ?_⟩
    rcases List.mem_cons.1 ha with rfl | ha
    · exact fun hfailed => hp.not_refuses hkinds ho (hop.refuses hfailed)
    · exact hrest.2.2 a ha

end PagerM

namespace Pager

theorem mirrored_ofConfig (config : Config) (device : Block) :
    (ofConfig config device).Mirrored := all_ofConfig config device

/-- After every run in which no refusals are planned, the tables map exactly the resident pages,
and no request has failed because a page could not be mapped. -/
theorem translated_of_run {config : Config} {device : Block} {ops : List Op}
    {answers : List Answer} {t : Traced} (hops : ∀ op ∈ ops, op.plans = false)
    (h : (run ops).run (.start config device) = .ok answers t) :
    t.pager.Translated ∧ ∀ answer ∈ answers, ¬ answer.mapFailed := by
  obtain ⟨ho, hp, hanswers⟩ := PagerM.ensures_run_mirrored ops hops (.start config device)
    (owned_ofConfig config device) (mirrored_ofConfig config device) answers t h
  exact ⟨hp.charted.translated ho, hanswers⟩

/-- Two processes have a page at the same address, in two frames. -/
theorem translated_two_processes : ∃ answers t,
    (run [.register 1, .register 2, .declareZero 1 0x1000 true, .declareZero 2 0x1000 false,
      .pageFault 1 0x1234 0, .pageFault 2 0x1000 0]).run
        (.start { userFrames := 2, swapSlots := 4 } (.attach .swap "swap" (.ram (.blank 64))))
      = .ok answers t ∧ t.pager.Translated ∧ ∀ answer ∈ answers, ¬ answer.mapFailed := by
  have hops : ∀ op ∈ [Op.register 1, .register 2, .declareZero 1 0x1000 true,
      .declareZero 2 0x1000 false, .pageFault 1 0x1234 0, .pageFault 2 0x1000 0],
      op.plans = false := by decide
  have hends : PagerM.Ends (run [.register 1, .register 2, .declareZero 1 0x1000 true,
      .declareZero 2 0x1000 false, .pageFault 1 0x1234 0, .pageFault 2 0x1000 0])
      (.start { userFrames := 2, swapSlots := 4 } (.attach .swap "swap" (.ram (.blank 64)))) := by
    decide +kernel
  obtain ⟨answers, t, h⟩ := hends
  exact ⟨answers, t, h, translated_of_run hops h⟩

end Pager

end DemandPaging
