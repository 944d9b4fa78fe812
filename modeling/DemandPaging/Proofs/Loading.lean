import DemandPaging.Elf.Encode
import DemandPaging.Pager.Load
import DemandPaging.Proofs.Images
import DemandPaging.Proofs.PageMap
import DemandPaging.Proofs.Steps
import Mathlib.Data.List.Nodup

/-!
# What loading an executable declares

A loader only ever adds pages to the page map of one process, so what it does can be told without
the pager: it walks down a list of pages and stops at the first one that is in use. The list of a
segment is computed here in closed form. The loop that declares it counts down two numbers, the
bytes that are still to be read and the zeros behind them, and in the closed form a page gets its
place in the file and its share of the bytes from its distance to the first page.

That an image is accepted does not depend on the order of its segments. Every check has to pass and
every page of the whole list has to be free and different from the others, which is to say that
the segments, the stack page and what was declared before have no page in common.

## Main definitions

* `ProgramHeader.Spans`, `ProgramHeader.source` — the pages of a segment and what they read.
* `PageMap.declareAll`, `PageMap.loadAll`, `PageMap.loadImage`, `PageMap.loadFile` — loading, told
  of a page map.
* `ElfImage.FitsInto`, `ElfImage.LoadableFrom` — an image that can be loaded beside what is
  declared.
* `ElfImage.LoadedInto` — the page map after a load that went through.

## Main results

* `PagerM.meets_loadElf` — loading does to the page map what `PageMap.loadFile` does, and never
  panics.
* `PageMap.exists_loadImage`, `PageMap.loadedInto_of_loadImage` — the images that are loaded, and
  the page map then.
* `Pager.loadElf_accepts` — loading ends, and it accepts exactly the images that fit.
-/

namespace DemandPaging

theorem pageCeil_of_lt {addr : Nat} (h : addr + pageSize < 2 ^ 64) :
    pageCeil addr = .ok (pageFloor (addr + (pageSize - 1))) := by
  rw [pageCeil, checkedAdd_of_lt h, except_ok_bind]
  rfl

/-! ### Segments as lists of pages -/

namespace ProgramHeader

/-- The bytes of the segment's pages that come from the file, counted from the start of the first
page. -/
def read (h : ProgramHeader) : Nat :=
  if 0 < h.fileSize.toNat then pageOffset h.virtualAddress.toNat + h.fileSize.toNat else 0

/-- The first byte of the file that the segment's pages read. -/
def start (h : ProgramHeader) : Nat := h.fileOffset.toNat - pageOffset h.virtualAddress.toNat

/-- The number of pages of the segment. -/
def pageCount (h : ProgramHeader) : Nat :=
  (pageOffset h.virtualAddress.toNat + h.memorySize.toNat + (pageSize - 1)) / pageSize

/-- A page of the segment: from its address rounded down to its end rounded up. -/
def Spans (h : ProgramHeader) (page : Nat) : Prop :=
  pageOffset page = 0 ∧ pageFloor h.virtualAddress.toNat ≤ page ∧
    page < pageFloor (h.virtualAddress.toNat + h.memorySize.toNat + (pageSize - 1))

/-- What a page of the segment holds at first. -/
def source (h : ProgramHeader) (file : Handle) (page : Nat) : PageSource :=
  .image file (h.start + min (page - pageFloor h.virtualAddress.toNat) h.read)
    (min (h.read - (page - pageFloor h.virtualAddress.toNat)) pageSize)

end ProgramHeader

/-- The entries of `count` image pages from `page` on that read the first `read` of their bytes
from a file at `offset`. -/
def imageEntries (file : Handle) (writable : Bool) (page offset read count : Nat) :
    List (Nat × PageEntry) :=
  (List.range count).map fun i =>
    (page + i * pageSize, .fresh (.image file (offset + min (i * pageSize) read)
      (min (read - i * pageSize) pageSize)) writable)

/-- The first page takes its share of the bytes, and the others go on where it stops. -/
theorem imageEntries_succ (file : Handle) (writable : Bool) (page offset read count : Nat) :
    imageEntries file writable page offset read (count + 1)
      = (page, .fresh (.image file offset (min read pageSize)) writable)
        :: imageEntries file writable (page + pageSize) (offset + min read pageSize)
          (read - min read pageSize) count := by
  rw [imageEntries, List.range_succ_eq_map, List.map_cons, List.map_map, imageEntries]
  refine congrArg₂ _ (by simp) (List.map_congr_left fun i _ => ?_)
  have hpage : page + (i + 1) * pageSize = page + pageSize + i * pageSize := by
    rw [Nat.succ_mul]
    omega
  have hoffset : offset + min ((i + 1) * pageSize) read
      = offset + min read pageSize + min (i * pageSize) (read - min read pageSize) := by
    rw [Nat.succ_mul]
    omega
  have hleft : read - (i + 1) * pageSize = read - min read pageSize - i * pageSize := by
    rw [Nat.succ_mul]
    omega
  simp only [Function.comp]
  rw [hpage, hoffset, hleft]

namespace ProgramHeader

variable {h : ProgramHeader} {file : Handle} {writable : Bool} {fileLength physBase page : Nat}

/-- The pages of the segment with their entries. -/
def entries (h : ProgramHeader) (file : Handle) (writable : Bool) : List (Nat × PageEntry) :=
  imageEntries file writable (pageFloor h.virtualAddress.toNat) h.start h.read h.pageCount

theorem mem_entries {e : PageEntry} :
    (page, e) ∈ h.entries file writable ↔
      h.Spans page ∧ e = .fresh (h.source file page) writable := by
  have hfloor := pageFloor_add_pageOffset h.virtualAddress.toNat
  have haligned := pageOffset_pageFloor h.virtualAddress.toNat
  simp only [entries, imageEntries, List.mem_map, List.mem_range, Prod.mk.injEq]
  constructor
  · rintro ⟨i, hi, rfl, rfl⟩
    refine ⟨⟨?_, by omega, ?_⟩, by rw [source, Nat.add_sub_cancel_left]⟩
    · simp only [pageOffset, pageSize] at haligned ⊢
      omega
    · simp only [pageCount, pageFloor, pageOffset, pageSize] at *
      omega
  · rintro ⟨⟨hpage, hlow, hhigh⟩, rfl⟩
    have hstep : (page - pageFloor h.virtualAddress.toNat) / pageSize * pageSize
        = page - pageFloor h.virtualAddress.toNat := by
      simp only [pageOffset, pageSize] at hpage haligned ⊢
      omega
    refine ⟨(page - pageFloor h.virtualAddress.toNat) / pageSize, ?_, by omega, ?_⟩
    · simp only [pageCount, pageFloor, pageOffset, pageSize] at *
      omega
    · rw [source, hstep]

theorem mem_map_fst_entries :
    page ∈ (h.entries file writable).map Prod.fst ↔ h.Spans page := by
  constructor
  · intro hmem
    obtain ⟨⟨_, e⟩, hentry, rfl⟩ := List.mem_map.1 hmem
    exact (mem_entries.1 hentry).1
  · intro hspans
    exact List.mem_map_of_mem (f := Prod.fst) (mem_entries.2 ⟨hspans, rfl⟩)

/-- The segment does not start before its page in the file. -/
theorem Loadable.offset_le (hload : h.Loadable fileLength physBase) :
    pageOffset h.virtualAddress.toNat ≤ h.fileOffset.toNat := by
  rw [← hload.same_offset]
  exact Nat.mod_le _ _

theorem Loadable.read_le (hload : h.Loadable fileLength physBase) :
    h.read ≤ h.pageCount * pageSize := by
  have hsizes := hload.fileSize_le
  simp only [read, pageCount, pageSize]
  split <;> omega

theorem Loadable.pages_below (hload : h.Loadable fileLength physBase) :
    pageFloor h.virtualAddress.toNat + h.pageCount * pageSize < physBase + pageSize := by
  have hbelow := hload.below_kernel
  have hfloor := pageFloor_add_pageOffset h.virtualAddress.toNat
  simp only [pageCount, pageSize]
  omega

/-- No page is listed twice. -/
theorem nodup_entries : ((h.entries file writable).map Prod.fst).Nodup := by
  rw [entries, imageEntries, List.map_map]
  refine List.Nodup.map (fun i j hij => ?_) List.nodup_range
  simp only [Function.comp, pageSize] at hij
  omega

end ProgramHeader

/-! ### Declaring a list of pages -/

namespace PageMap

variable {m m' : PageMap} {l l' : List (Nat × PageEntry)}

/-- Adds the given pages in turn, and stops at a page that is declared already. -/
def declareAll : List (Nat × PageEntry) → PageMap → Except LoadError Unit × PageMap
  | [], m => (.ok (), m)
  | (page, e) :: rest, m =>
    if m.entries.contains page then (.error (.segmentOverlap page), m)
    else declareAll rest (m.set page e)

theorem declareAll_cons_eq_ok {page : Nat} {e : PageEntry} :
    declareAll ((page, e) :: l) m = (.ok (), m') ↔
      m.entries[page]? = none ∧ declareAll l (m.set page e) = (.ok (), m') := by
  rw [declareAll, Std.ExtTreeMap.contains_eq_isSome_getElem?]
  cases m.entries[page]? with
  | none => simp
  | some found => simp

theorem declareAll_append_eq_ok :
    declareAll (l ++ l') m = (.ok (), m') ↔
      ∃ m₁, declareAll l m = (.ok (), m₁) ∧ declareAll l' m₁ = (.ok (), m') := by
  induction l generalizing m with
  | nil => simp [declareAll]
  | cons x l ih =>
    obtain ⟨page, e⟩ := x
    simp only [List.cons_append, declareAll_cons_eq_ok, ih]
    constructor
    · rintro ⟨hfree, m₁, h, h'⟩
      exact ⟨m₁, ⟨hfree, h⟩, h'⟩
    · rintro ⟨m₁, ⟨hfree, h⟩, h'⟩
      exact ⟨hfree, m₁, h, h'⟩

/-- A list of pages is declared if none of them is in use and none is listed twice. -/
theorem exists_declareAll (haligned : ∀ x ∈ l, pageOffset x.1 = 0) :
    (∃ m', declareAll l m = (.ok (), m')) ↔
      (l.map Prod.fst).Nodup ∧ ∀ x ∈ l, m.entries[x.1]? = none := by
  induction l generalizing m with
  | nil => simp [declareAll]
  | cons x l ih =>
    obtain ⟨page, e⟩ := x
    have hpage := pageFloor_of_pageOffset (haligned (page, e) List.mem_cons_self)
    simp only [declareAll_cons_eq_ok, exists_and_left,
      ih fun x hx => haligned x (List.mem_cons_of_mem _ hx), getElem?_set, hpage, List.map_cons,
      List.nodup_cons, List.forall_mem_cons]
    constructor
    · rintro ⟨hfree, hnodup, hrest⟩
      refine ⟨⟨fun hmem => ?_, hnodup⟩, hfree, fun x hx => ?_⟩
      · obtain ⟨x, hx, hx₁⟩ := List.mem_map.1 hmem
        simpa [hx₁] using hrest x hx
      · have hother := hrest x hx
        split at hother
        · cases hother
        · exact hother
    · rintro ⟨⟨hnew, hnodup⟩, hfree, hrest⟩
      refine ⟨hfree, hnodup, fun x hx => ?_⟩
      have hne : page ≠ x.1 := fun heq => hnew (heq ▸ List.mem_map_of_mem hx)
      rw [if_neg hne]
      exact hrest x hx

/-- After a list of pages was declared they have the listed entries, and the others are as they
were. -/
theorem getElem?_declareAll (haligned : ∀ x ∈ l, pageOffset x.1 = 0)
    (h : declareAll l m = (.ok (), m')) :
    (∀ x ∈ l, m'.entries[x.1]? = some x.2) ∧
      ∀ k, (∀ x ∈ l, k ≠ x.1) → m'.entries[k]? = m.entries[k]? := by
  induction l generalizing m with
  | nil =>
    cases h
    exact ⟨fun x hx => absurd hx List.not_mem_nil, fun k _ => rfl⟩
  | cons x l ih =>
    obtain ⟨page, e⟩ := x
    have hpage := pageFloor_of_pageOffset (haligned (page, e) List.mem_cons_self)
    have hrest := fun x hx => haligned x (List.mem_cons_of_mem _ hx)
    obtain ⟨hfree, h⟩ := declareAll_cons_eq_ok.1 h
    have hlater := ((exists_declareAll hrest).1 ⟨m', h⟩).2
    obtain ⟨hnew, hold⟩ := ih hrest h
    constructor
    · rintro x (_ | ⟨_, hx⟩)
      · rw [hold page, getElem?_set, if_pos hpage]
        intro x hx heq
        have hunused := hlater x hx
        rw [← heq, getElem?_set, if_pos hpage] at hunused
        cases hunused
      · exact hnew x hx
    · intro k hk
      rw [hold k fun x hx => hk x (List.mem_cons_of_mem _ hx), getElem?_set, hpage,
        if_neg fun heq => hk (page, e) List.mem_cons_self heq.symm]

/-! ### Whole images -/

/-- What loading the segments of a file does to a page map. -/
def loadAll (file : Handle) (config : Config) :
    List ProgramHeader → PageMap → Except LoadError Unit × PageMap
  | [], m => (.ok (), m)
  | h :: rest, m =>
    match h.kind with
    | .load =>
      match h.validate file.file.length config.physBase with
      | .error e => (.error (.elf (.segment e)), m)
      | .ok () =>
        match declareAll (h.entries file (h.writable || config.writableImages)) m with
        | (.error e, m) => (.error e, m)
        | (.ok (), m) => loadAll file config rest m
    | .dynamic | .interpret | .shlib => (.error (.elf .dynamicSegment), m)
    | _ => loadAll file config rest m

/-- The first page of a stack below `physBase`. -/
def stackEntry (physBase : Nat) : Nat × PageEntry := (physBase - pageSize, .fresh .zero true)

/-- What loading an image from a file does to a page map. -/
def loadImage (file : Handle) (config : Config) (image : ElfImage) (m : PageMap) :
    Except LoadError Unit × PageMap :=
  match loadAll file config image.segments m with
  | (.error e, m) => (.error e, m)
  | (.ok (), m) => declareAll [stackEntry config.physBase] m

/-- What loading a file does to a page map, if `view` is what reads of the file see. -/
def loadFile (view : File) (file : Handle) (config : Config) (m : PageMap) :
    Except LoadError Program × PageMap :=
  match ElfImage.ofFile view with
  | .error e => (.error e, m)
  | .ok image =>
    match loadImage file config image m with
    | (r, m) => (r.map fun _ => ⟨image.header.programEntry.toNat, config.physBase⟩, m)

end PageMap

/-! ### The loader -/

/-- The page map of `pid` is `result.2` now and nothing else of the pager has changed since `t`;
the answer is `result.1`. -/
def Traced.Loaded {α : Type} (t : Traced) (pid : Nat) (pr : Process) (result : α × PageMap) (r : α)
    (t' : Traced) : Prop :=
  r = result.1 ∧ t'.pager = t.pager.withProcess pid { pr with pages := result.2 }

theorem Pager.getElem?_of_eq_withProcess {p p' : Pager} {pid : Nat} {pr : Process}
    (h : p' = p.withProcess pid pr) : p'.processes[pid]? = some pr := by
  rw [h]
  exact Pager.getElem?_withProcess_self ..

/-- What is loaded later is loaded on top of what was declared before. -/
theorem Traced.Loaded.after {α : Type} {t t₁ t' : Traced} {pid : Nat} {pr : Process}
    {pages : PageMap} {result : α × PageMap} {r : α}
    (h : t₁.Loaded pid { pr with pages } result r t')
    (ht₁ : t₁.pager = t.pager.withProcess pid { pr with pages }) : t.Loaded pid pr result r t' := by
  obtain ⟨hr, ht'⟩ := h
  rw [ht₁, Pager.withProcess_withProcess] at ht'
  exact ⟨hr, ht'⟩

namespace PagerM

open PageMap (declareAll loadAll loadImage loadFile stackEntry)

variable {t : Traced} {pid : Nat} {pr : Process} {file : Handle}

/-- Declaring a user page adds it unless it is there. -/
theorem meets_tryDeclare {page : Nat} {source : PageSource} {writable : Bool}
    (hpr : t.pager.processes[pid]? = some pr) (huser : page < t.pager.config.physBase)
    (hcheck : PageMap.checkDeclaration page source = .ok ()) :
    Meets (tryDeclare pid page source writable)
      (fun added t' =>
        (pr.pages.entries.contains page = true ∧ added = false ∧ t'.pager = t.pager) ∨
        (pr.pages.entries.contains page = false ∧ added = true ∧ t'.pager
          = t.pager.withProcess pid
            { pr with pages := pr.pages.set page (.fresh source writable) }))
      (fun _ _ => False) t := by
  have huser : t.pager.config.isUser page = true := by simpa [Config.isUser] using huser
  rw [tryDeclare]
  simp only [meets_bind, meets_pager, meets_ite, huser, not_true_eq_false, false_implies,
    meets_throw, meets_pure, true_implies, meets_process_of_getElem? hpr]
  rw [Std.ExtTreeMap.contains_eq_isSome_getElem?]
  cases hin : pr.pages.entries[page]? with
  | none =>
    have hdecl : pr.pages.tryDeclare page source writable
        = .ok (true, pr.pages.set page (.fresh source writable)) :=
      PageMap.tryDeclare_eq_ok.2 ⟨hcheck, .inr ⟨rfl, hin, rfl⟩⟩
    simp only [meets_lift_of_ok hdecl, meets_setProcess]
    exact ⟨.inr ⟨rfl, trivial, rfl⟩, trivial⟩
  | some e =>
    have hdecl : pr.pages.tryDeclare page source writable = .ok (false, pr.pages) :=
      PageMap.tryDeclare_eq_ok.2 ⟨hcheck, .inl ⟨rfl, by rw [hin]; rfl, rfl⟩⟩
    simp only [meets_lift_of_ok hdecl, meets_setProcess]
    exact ⟨.inl ⟨rfl, trivial, Pager.withProcess_self hpr⟩, trivial⟩

/-- The loop over the pages of a segment declares them one by one. The two numbers that it counts
down add up to whole pages at every turn, which is why neither of them goes below zero. -/
theorem meets_declareSegment (writable : Bool) {page offset read zeros count : Nat}
    (hpr : t.pager.processes[pid]? = some pr) (hpage : pageOffset page = 0)
    (hsum : read + zeros = count * pageSize)
    (huser : page + count * pageSize < t.pager.config.physBase + pageSize) :
    Meets (declareSegment pid file writable page offset read zeros)
      (t.Loaded pid pr (declareAll (imageEntries file
        (writable || t.pager.config.writableImages) page offset read count) pr.pages))
      (fun _ _ => False) t := by
  induction count generalizing t pr page offset read zeros with
  | zero =>
    rw [declareSegment, dif_neg (by omega), meets_pure]
    exact ⟨rfl, (Pager.withProcess_self hpr).symm⟩
  | succ count ih =>
    rw [Nat.succ_mul] at hsum huser
    have hleft : 0 < read ∨ 0 < zeros := by
      rw [pageSize] at hsum
      omega
    have hfits : pageSize - min read pageSize ≤ zeros := by omega
    have hcheck : PageMap.checkDeclaration page (.image file offset (min read pageSize))
        = .ok () := by
      rw [PageMap.checkDeclaration, if_neg (by omega), if_pos (Nat.min_le_right _ _)]
    rw [declareSegment, dif_pos hleft, imageEntries_succ, declareAll]
    simp only [Pager.tryDeclareImage, meets_bind, meets_pager]
    refine (meets_tryDeclare hpr (by omega) hcheck).mono ?_ fun _ _ => id
    rintro added t₁ (⟨hin, rfl, ht₁⟩ | ⟨hout, rfl, ht₁⟩)
    · rw [if_pos hin]
      exact ⟨rfl, ht₁.trans (Pager.withProcess_self hpr).symm⟩
    · have hconfig : t₁.pager.config = t.pager.config := by rw [ht₁]; rfl
      have hfree : ¬ pr.pages.entries.contains page = true := Bool.not_eq_true _ ▸ hout
      have hpr₁ := Pager.getElem?_of_eq_withProcess ht₁
      rw [if_pos rfl, dif_pos hfits, if_neg hfree, ← hconfig]
      refine (ih hpr₁ (pageOffset_add_pageSize hpage) ?_ ?_).mono (fun r t' h => ?_) fun _ _ => id
      · omega
      · rw [hconfig]
        omega
      rw [hconfig] at h ⊢
      exact h.after ht₁

theorem lift_ok_bind {α β : Type} {x : Except Panic α} {a : α} (h : x = .ok a)
    (f : α → PagerM β) : ((liftM x : PagerM α) >>= f) = f a := by
  subst h
  rfl

/-- The numbers of a segment that passed its checks can be computed, and its pages are declared. -/
theorem loadSegment_eq {h : ProgramHeader} {fileLength physBase : Nat}
    (hload : h.Loadable fileLength physBase) :
    loadSegment pid file h = declareSegment pid file h.writable (pageFloor h.virtualAddress.toNat)
      h.start h.read (h.pageCount * pageSize - h.read) := by
  have hlead := pageOffset_lt h.virtualAddress.toNat
  have hsize := h.memorySize.toNat_lt
  have hceil : pageCeil (pageOffset h.virtualAddress.toNat + h.memorySize.toNat)
      = .ok (h.pageCount * pageSize) := by
    rw [pageCeil_of_lt (by rw [pageSize] at *; omega), pageFloor_eq_mul, Nat.mul_comm]
    rfl
  rw [loadSegment]
  simp only [lift_ok_bind hceil]
  rw [← ProgramHeader.read, lift_ok_bind (checkedSub_of_le hload.read_le),
    lift_ok_bind (checkedSub_of_le hload.offset_le), ProgramHeader.start]

/-- Loading segments is a matter of the page map. -/
theorem meets_loadSegments (segments : List ProgramHeader)
    (hpr : t.pager.processes[pid]? = some pr) :
    Meets (loadSegments pid file segments)
      (t.Loaded pid pr (loadAll file t.pager.config segments pr.pages)) (fun _ _ => False) t := by
  induction segments generalizing t pr with
  | nil => exact meets_pure.2 ⟨rfl, (Pager.withProcess_self hpr).symm⟩
  | cons h rest ih =>
    rw [loadSegments, loadAll]
    cases h.kind with
    | load =>
      simp only [meets_bind, meets_pager]
      cases hvalid : h.validate file.file.length t.pager.config.physBase with
      | error e => exact meets_pure.2 ⟨rfl, (Pager.withProcess_self hpr).symm⟩
      | ok _ =>
        have hload := ProgramHeader.validate_eq_ok.1 hvalid
        simp only [meets_bind]
        rw [loadSegment_eq hload]
        refine (meets_declareSegment h.writable hpr (pageOffset_pageFloor _)
          (Nat.add_sub_cancel' hload.read_le) hload.pages_below).mono ?_ fun _ _ => id
        rw [← ProgramHeader.entries]
        rintro r t₁ ⟨rfl, ht₁⟩
        cases hdecl : declareAll (h.entries file (h.writable || t.pager.config.writableImages))
            pr.pages with
        | mk r pages =>
          rw [hdecl] at ht₁
          cases r with
          | error e => exact meets_pure.2 ⟨rfl, ht₁⟩
          | ok _ =>
            have hconfig : t₁.pager.config = t.pager.config := by rw [ht₁]; rfl
            have hpr₁ := Pager.getElem?_of_eq_withProcess ht₁
            simp only [meets_bind, meets_emit, ← hconfig]
            refine (ih ?_).mono (fun r t' h => Traced.Loaded.after h ht₁) fun _ _ => id
            exact hpr₁
    | dynamic | interpret | shlib =>
      exact meets_pure.2 ⟨rfl, (Pager.withProcess_self hpr).symm⟩
    | _ => exact ih hpr

/-- Loading is a matter of what reads of the file see and of the page map, and it never panics. -/
theorem meets_loadElf (hpr : t.pager.processes[pid]? = some pr)
    (hbase : pageOffset t.pager.config.physBase = 0)
    (hstack : pageSize ≤ t.pager.config.physBase) :
    Meets (Pager.loadElf pid file)
      (t.Loaded pid pr (loadFile (t.pager.view file) file t.pager.config pr.pages))
      (fun _ _ => False) t := by
  have hsub := checkedSub_of_le hstack
  have hcheck : PageMap.checkDeclaration (t.pager.config.physBase - pageSize) .zero = .ok () := by
    simp [PageMap.checkDeclaration, pageOffset_sub_pageSize hstack, hbase]
  rw [Pager.loadElf, loadFile]
  simp only [meets_bind, meets_pager]
  cases ElfImage.ofFile (t.pager.view file) with
  | error e => exact meets_pure.2 ⟨rfl, (Pager.withProcess_self hpr).symm⟩
  | ok image =>
    simp only [meets_bind]
    refine (meets_loadSegments image.segments hpr).mono ?_ fun _ _ => id
    rintro r t₁ ⟨rfl, ht₁⟩
    rw [loadImage]
    cases hload : loadAll file t.pager.config image.segments pr.pages with
    | mk r pages =>
      rw [hload] at ht₁
      cases r with
      | error e => exact meets_pure.2 ⟨rfl, ht₁⟩
      | ok _ =>
        have hconfig : t₁.pager.config = t.pager.config := by rw [ht₁]; rfl
        have hpr₁ := Pager.getElem?_of_eq_withProcess ht₁
        have huser : t.pager.config.physBase - pageSize < t₁.pager.config.physBase := by
          rw [hconfig, pageSize] at *
          omega
        simp only [meets_bind, meets_pager, hconfig, meets_lift_of_ok hsub, Pager.tryDeclareZero]
        refine (meets_tryDeclare hpr₁ huser hcheck).mono ?_ fun _ _ => id
        rw [stackEntry, declareAll, declareAll]
        rintro added t' (⟨hin, rfl, ht'⟩ | ⟨hout, rfl, ht'⟩)
        · rw [if_pos hin]
          exact meets_pure.2 ⟨rfl, ht'.trans ht₁⟩
        · have hfree : ¬ pages.entries.contains (t.pager.config.physBase - pageSize) = true :=
            Bool.not_eq_true _ ▸ hout
          rw [ht₁, Pager.withProcess_withProcess] at ht'
          rw [if_neg hfree]
          exact meets_pure.2 ⟨rfl, ht'⟩

end PagerM

/-! ### The images that are loaded -/

/-- A program header that does not make the loader give up. -/
structure ProgramHeader.Accepted (h : ProgramHeader) (fileLength physBase : Nat) : Prop where
  static : h.kind ≠ .dynamic ∧ h.kind ≠ .interpret ∧ h.kind ≠ .shlib
  loadable : h.kind = .load → h.Loadable fileLength physBase

namespace ElfImage

/-- The segments that are loaded. -/
def loads (image : ElfImage) : List ProgramHeader := image.segments.filter (·.kind = .load)

/-- An image that can be loaded from a file of the given length into the memory below `physBase`,
beside the pages of `m`. -/
structure FitsInto (image : ElfImage) (fileLength physBase : Nat) (m : PageMap) : Prop where
  accepted : ∀ h ∈ image.segments, h.Accepted fileLength physBase
  /-- No two segments have a page in common. -/
  apart : image.loads.Pairwise fun h h' => ∀ page, ¬ (h.Spans page ∧ h'.Spans page)
  /-- The pages of the segments are not in use. -/
  free : ∀ h ∈ image.loads, ∀ page, h.Spans page → m.entries[page]? = none
  /-- No segment reaches into the stack page. -/
  below_stack : ∀ h ∈ image.loads, ¬ h.Spans (physBase - pageSize)
  /-- The stack page is not in use. -/
  stack_free : m.entries[physBase - pageSize]? = none

/-- An image that a file with the bytes `data` holds and that can be loaded into the memory below
`physBase`, beside the pages of `m`. -/
structure LoadableFrom (image : ElfImage) (data : Bytes) (physBase : Nat) (m : PageMap) :
    Prop where
  supported : image.header.Supported
  read_from : image.ReadFrom data
  fits : image.FitsInto data.size physBase m

/-- The page map after `image` was loaded from `file` beside the pages of `m`. -/
structure LoadedInto (image : ElfImage) (file : Handle) (config : Config) (m m' : PageMap) :
    Prop where
  /-- The pages that were declared before are as they were. -/
  kept : ∀ (page : Nat) (e : PageEntry), m.entries[page]? = some e → m'.entries[page]? = some e
  /-- The pages of the segments read their part of the file when they are touched. -/
  segment : ∀ h ∈ image.loads, ∀ page, h.Spans page → m'.entries[page]?
    = some (.fresh (h.source file page) (h.writable || config.writableImages))
  stack : m'.entries[config.physBase - pageSize]? = some (.fresh .zero true)
  /-- No other page is declared. -/
  declared : ∀ page, m'.entries[page]?.isSome ↔ m.entries[page]?.isSome ∨
    (∃ h ∈ image.loads, h.Spans page) ∨ page = config.physBase - pageSize

/-- The pages that loading an image declares, with their entries. -/
def entries (image : ElfImage) (file : Handle) (config : Config) : List (Nat × PageEntry) :=
  image.loads.flatMap (fun h => h.entries file (h.writable || config.writableImages))
    ++ [PageMap.stackEntry config.physBase]

variable {image : ElfImage} {file : Handle} {config : Config} {page : Nat} {e : PageEntry}

theorem mem_entries : (page, e) ∈ image.entries file config ↔
    (∃ h ∈ image.loads, h.Spans page ∧
      e = .fresh (h.source file page) (h.writable || config.writableImages)) ∨
    (page = config.physBase - pageSize ∧ e = .fresh .zero true) := by
  simp only [entries, List.mem_append, List.mem_flatMap, ProgramHeader.mem_entries,
    List.mem_singleton, PageMap.stackEntry, Prod.mk.injEq]

theorem nodup_entries : ((image.entries file config).map Prod.fst).Nodup ↔
    (image.loads.Pairwise fun h h' => ∀ page, ¬ (h.Spans page ∧ h'.Spans page)) ∧
      ∀ h ∈ image.loads, ¬ h.Spans (config.physBase - pageSize) := by
  rw [entries, List.map_append, List.map_flatMap, List.nodup_append, List.nodup_flatMap]
  simp only [ProgramHeader.nodup_entries, implies_true, true_and,
    ProgramHeader.mem_map_fst_entries, List.mem_flatMap, List.map_cons, List.map_nil,
    PageMap.stackEntry, List.nodup_singleton, List.mem_singleton, forall_eq]
  refine and_congr (List.Pairwise.iff fun h h' => ?_) ?_
  · simp only [Function.onFun, List.disjoint_left, ProgramHeader.mem_map_fst_entries, not_and]
  constructor
  · intro h segment hsegment hspans
    exact h _ ⟨segment, hsegment, hspans⟩ rfl
  · rintro h page ⟨segment, hsegment, hspans⟩ hlast
    rw [hlast] at hspans
    exact h segment hsegment hspans

/-- The pages of an image lie on page boundaries. -/
theorem pageOffset_of_mem_entries (hbase : pageOffset config.physBase = 0)
    (hstack : pageSize ≤ config.physBase) :
    ∀ x ∈ image.entries file config, pageOffset x.1 = 0 := by
  rintro ⟨page, e⟩ hmem
  rcases mem_entries.1 hmem with ⟨h, -, hspans, -⟩ | ⟨hlast, -⟩
  · exact hspans.1
  · rw [hlast, pageOffset_sub_pageSize hstack, hbase]

end ElfImage

namespace PageMap

variable {m m' : PageMap} {file : Handle} {config : Config} {image : ElfImage}

/-- Segments are loaded if every program header is accepted and their pages can be declared, all in
one list. -/
theorem loadAll_eq_ok {segments : List ProgramHeader} :
    loadAll file config segments m = (.ok (), m') ↔
      (∀ h ∈ segments, h.Accepted file.file.length config.physBase) ∧
      declareAll ((segments.filter (·.kind = .load)).flatMap fun h =>
        h.entries file (h.writable || config.writableImages)) m = (.ok (), m') := by
  induction segments generalizing m with
  | nil => simp [loadAll, declareAll]
  | cons h rest ih =>
    rw [List.forall_mem_cons]
    by_cases hload : h.kind = .load
    · have haccepted : h.Accepted file.file.length config.physBase ↔
          h.validate file.file.length config.physBase = .ok () := by
        rw [ProgramHeader.validate_eq_ok]
        constructor
        · intro h
          exact h.loadable hload
        · intro h
          exact ⟨by simp [hload], fun _ => h⟩
      rw [List.filter_cons_of_pos (by simp [hload]), List.flatMap_cons, declareAll_append_eq_ok,
        haccepted, loadAll, hload]
      simp only
      cases h.validate file.file.length config.physBase with
      | error e => simp
      | ok _ =>
        cases hdecl : declareAll (h.entries file (h.writable || config.writableImages)) m with
        | mk r m₁ =>
          cases r with
          | error e => simp
          | ok _ => simp [ih]
    · rw [List.filter_cons_of_neg (by simp [hload]), loadAll]
      cases hkind : h.kind with
      | load => exact absurd hkind hload
      | dynamic | interpret | shlib =>
        have hrejected : ¬ h.Accepted file.file.length config.physBase := by
          intro h
          have := h.static
          simp [hkind] at this
        simp [hrejected]
      | _ =>
        have haccepted : h.Accepted file.file.length config.physBase :=
          ⟨by simp [hkind], fun hl => absurd hl hload⟩
        simp only [ih, haccepted, true_and]

theorem loadImage_eq_ok :
    loadImage file config image m = (.ok (), m') ↔
      (∀ h ∈ image.segments, h.Accepted file.file.length config.physBase) ∧
      declareAll (image.entries file config) m = (.ok (), m') := by
  have hseq : loadImage file config image m = (.ok (), m') ↔
      ∃ m₁, loadAll file config image.segments m = (.ok (), m₁) ∧
        declareAll [stackEntry config.physBase] m₁ = (.ok (), m') := by
    rw [loadImage]
    cases loadAll file config image.segments m with
    | mk r m₁ =>
      cases r with
      | error e => simp
      | ok _ => simp
  rw [hseq, ElfImage.entries, declareAll_append_eq_ok, ElfImage.loads]
  simp only [loadAll_eq_ok, and_assoc, exists_and_left]

/-- The images that are loaded are those that fit. -/
theorem exists_loadImage (hbase : pageOffset config.physBase = 0)
    (hstack : pageSize ≤ config.physBase) :
    (∃ m', loadImage file config image m = (.ok (), m')) ↔
      image.FitsInto file.file.length config.physBase m := by
  simp only [loadImage_eq_ok, exists_and_left,
    exists_declareAll (ElfImage.pageOffset_of_mem_entries hbase hstack), ElfImage.nodup_entries,
    Prod.forall, ElfImage.mem_entries]
  constructor
  · rintro ⟨haccepted, ⟨hapart, hbelow⟩, hfree⟩
    refine ⟨haccepted, hapart, fun h hh page hspans => ?_, hbelow, hfree _ _ (.inr ⟨rfl, rfl⟩)⟩
    exact hfree page _ (.inl ⟨h, hh, hspans, rfl⟩)
  · rintro ⟨haccepted, hapart, hfree, hbelow, hlast⟩
    refine ⟨haccepted, ⟨hapart, hbelow⟩, ?_⟩
    rintro page e (⟨h, hh, hspans, rfl⟩ | ⟨heq, -⟩)
    · exact hfree h hh page hspans
    · rw [heq]
      exact hlast

/-- What is declared after an image was loaded. -/
theorem loadedInto_of_loadImage (hbase : pageOffset config.physBase = 0)
    (hstack : pageSize ≤ config.physBase)
    (h : loadImage file config image m = (.ok (), m')) : image.LoadedInto file config m m' := by
  have haligned : ∀ x ∈ image.entries file config, pageOffset x.1 = 0 :=
    ElfImage.pageOffset_of_mem_entries hbase hstack
  have hdecl := (loadImage_eq_ok.1 h).2
  have hfree := ((exists_declareAll haligned).1 ⟨m', hdecl⟩).2
  obtain ⟨hnew, hold⟩ := getElem?_declareAll haligned hdecl
  have hstays : ∀ page : Nat, m.entries[page]?.isSome → m'.entries[page]? = m.entries[page]? := by
    intro page hpage
    refine hold page fun x hx heq => ?_
    rw [heq, hfree x hx] at hpage
    cases hpage
  have hsegment : ∀ h ∈ image.loads, ∀ page : Nat, h.Spans page → m'.entries[page]?
      = some (.fresh (h.source file page) (h.writable || config.writableImages)) :=
    fun h hh page hspans => hnew (page, _) (ElfImage.mem_entries.2 (.inl ⟨h, hh, hspans, rfl⟩))
  have hlast : m'.entries[config.physBase - pageSize]? = some (.fresh .zero true) :=
    hnew (stackEntry config.physBase) (ElfImage.mem_entries.2 (.inr ⟨rfl, rfl⟩))
  refine ⟨fun page e hpage => ?_, hsegment, hlast, fun page => ⟨fun hpage => ?_, ?_⟩⟩
  · rw [hstays page (by rw [hpage]; rfl), hpage]
  · by_cases hlisted : ∃ x ∈ image.entries file config, page = x.1
    · obtain ⟨⟨_, e⟩, hx, rfl⟩ := hlisted
      rcases ElfImage.mem_entries.1 hx with ⟨h, hh, hspans, -⟩ | ⟨hlast, -⟩
      · exact .inr (.inl ⟨h, hh, hspans⟩)
      · exact .inr (.inr hlast)
    · rw [hold page fun x hx heq => hlisted ⟨x, hx, heq⟩] at hpage
      exact .inl hpage
  · rintro (hpage | ⟨h, hh, hspans⟩ | heq)
    · rw [hstays page hpage]
      exact hpage
    · rw [hsegment h hh page hspans]
      rfl
    · rw [heq, hlast]
      rfl

theorem loadFile_eq_ok {view : File} {program : Program} :
    loadFile view file config m = (.ok program, m') ↔ ∃ image, ElfImage.ofFile view = .ok image ∧
      loadImage file config image m = (.ok (), m') ∧
      program = ⟨image.header.programEntry.toNat, config.physBase⟩ := by
  rw [loadFile]
  cases ElfImage.ofFile view with
  | error e => simp
  | ok image =>
    cases hload : loadImage file config image m with
    | mk r m₁ =>
      cases r with
      | error e => simp [Except.map, hload]
      | ok _ => simp [Except.map, hload, eq_comm, and_comm]

/-- The files that are loaded are those with a loadable image. -/
theorem exists_loadFile {view : File} {data : Bytes} (hbase : pageOffset config.physBase = 0)
    (hstack : pageSize ≤ config.physBase) (hview : view.Holds data)
    (hlength : file.file.length = data.size) :
    (∃ program m', loadFile view file config m = (.ok program, m')) ↔
      ∃ image : ElfImage, image.LoadableFrom data config.physBase m := by
  simp only [loadFile_eq_ok]
  constructor
  · rintro ⟨_, m', image, himage, hload, -⟩
    obtain ⟨hsupported, hfrom⟩ := (ElfImage.ofFile_eq_ok hview).1 himage
    have hfits := (exists_loadImage hbase hstack).1 ⟨m', hload⟩
    exact ⟨image, hsupported, hfrom, hlength ▸ hfits⟩
  · rintro ⟨image, hsupported, hfrom, hfits⟩
    obtain ⟨m', hload⟩ := (exists_loadImage hbase hstack).2 (hlength ▸ hfits)
    exact ⟨_, m', image, (ElfImage.ofFile_eq_ok hview).2 ⟨hsupported, hfrom⟩, hload, rfl⟩

end PageMap

namespace Pager

variable {t : Traced} {pid : Nat} {pr : Process} {file : Handle} {data : Bytes}

/-- Reads that do not fail see what the file holds. -/
theorem holds_view {p : Pager} (hholds : file.file.Holds data)
    (hreads : p.failing file.id = false) : (p.view file).Holds data := by
  rw [view, hreads]
  exact hholds

/-- Loading a file whose reads succeed always comes to an answer. It accepts exactly the files with
a loadable image, and then the declared pages are those from before, the pages of the segments and
the stack page. -/
theorem loadElf_accepts (hpr : t.pager.processes[pid]? = some pr)
    (hbase : pageOffset t.pager.config.physBase = 0)
    (hstack : pageSize ≤ t.pager.config.physBase) (hholds : file.file.Holds data)
    (hlength : file.file.length = data.size) (hreads : t.pager.failing file.id = false) :
    ∃ r t', (loadElf pid file).run t = .ok r t' ∧
      ((∃ program, r = .ok program) ↔
        ∃ image : ElfImage, image.LoadableFrom data t.pager.config.physBase pr.pages) ∧
      ∀ program, r = .ok program → ∃ (image : ElfImage) (pages : PageMap),
        image.LoadableFrom data t.pager.config.physBase pr.pages ∧
        t'.pager = t.pager.withProcess pid { pr with pages } ∧
        image.LoadedInto file t.pager.config pr.pages pages ∧
        program = ⟨image.header.programEntry.toNat, t.pager.config.physBase⟩ := by
  have hview := holds_view hholds hreads
  obtain ⟨r, t', hrun, hr, ht'⟩ := (PagerM.meets_loadElf hpr hbase hstack).exists_run
  have haccepts := PageMap.exists_loadFile (m := pr.pages) hbase hstack hview hlength
  cases hload : PageMap.loadFile (t.pager.view file) file t.pager.config pr.pages with
  | mk result pages =>
    rw [hload] at hr ht' haccepts
    subst hr
    refine ⟨r, t', hrun, ?_, ?_⟩
    · rw [← haccepts]
      simp
    · rintro program rfl
      obtain ⟨image, himage, hdeclared, rfl⟩ := PageMap.loadFile_eq_ok.1 hload
      obtain ⟨hsupported, hfrom⟩ := (ElfImage.ofFile_eq_ok hview).1 himage
      have hfits := (PageMap.exists_loadImage hbase hstack).1 ⟨pages, hdeclared⟩
      exact ⟨image, pages, ⟨hsupported, hfrom, hlength ▸ hfits⟩, ht',
        PageMap.loadedInto_of_loadImage hbase hstack hdeclared, rfl⟩

/-- An executable with one segment: four bytes of the file behind the headers and four zeros, at
the end of the headers in the file and in memory. -/
def smallExecutable : Bytes :=
  (ElfHeader.encode ⟨.little, 1, .executable, .x86, 1, 0x1054, 52, 32, 1⟩
      ⟨.replicate 9 0, .replicate 10 0, .replicate 6 0⟩
    ++ ProgramHeader.encode ⟨.load, 84, 0x1054, 4, 8, true, true, true, 4096⟩ .little 0 0
    ++ [1, 2, 3, 4]).toArray

/-- The executable is loaded into three pages of user memory, of which the first one stays free. -/
theorem loadElf_accepts_small :
    ∃ image : ElfImage, image.LoadableFrom smallExecutable 0x3000 .empty := by
  let t : Traced := ⟨(Pager.ofConfig { userFrames := 1, physBase := 0x3000 }
    (.attach .swap "swap" (.ram (.blank 64)))).withProcess 1 .fresh, #[]⟩
  let file : Handle := ⟨7, 0, .ofBytes smallExecutable⟩
  have hrun : ∃ r t', (loadElf 1 file).run t = .ok r t' ∧
      r.toOption = some ⟨0x1054, 0x3000⟩ := by
    decide +kernel
  have hholds : file.file.Holds smallExecutable := File.holds_ofBytes smallExecutable
  obtain ⟨r, t', h, hr⟩ := hrun
  obtain ⟨r', t'', h', haccepts, -⟩ := loadElf_accepts (t := t)
    (getElem?_withProcess_self _ _ _) (by decide) (by decide) hholds rfl rfl
  rw [h] at h'
  cases h'
  cases r with
  | error e => cases hr
  | ok program => exact haccepts.1 ⟨program, rfl⟩

end Pager

end DemandPaging
