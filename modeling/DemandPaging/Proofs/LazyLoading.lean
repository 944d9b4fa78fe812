import DemandPaging.Proofs.Loading

/-!
# Loading depends on the headers only

A load reads the header of a file and its table of program headers, and from then on it goes by what
it has read and by the length of the file. So two files with the same headers and the same length
are loaded alike, whatever else they hold. Which bytes are the table is itself read from the file,
so the bytes that may matter are found in two steps: the header first, and if it is one the loader
supports, the table that it points to.

The two loads start from one pager and are followed side by side. They cannot end in the same
state, since the pages that are declared name the file that was loaded. What is kept up instead is
that the page map of the process has grown alike: the pages from before are as they were, and a new
page is new in both, has not been populated, and reads the same part of its file in both. A step
that fails, or that panics, does so in both loads.

## Main definitions

* `ElfImage.SameHeaders` — two files with the same bytes wherever loading looks.
* `PageMap.GrownAlike` — what two loads make of a page map.
* `PagerM.StopsAlike`, `PagerM.Matches` — two actions side by side.

## Main results

* `ElfImage.ofFile_congr` — the same image is read from files with the same headers.
* `PagerM.Matches.bind` — sequences match if their parts do.
* `Pager.loads_by_headers` — files with the same headers and the same length are loaded alike.
-/

namespace DemandPaging

/-! ### What is read -/

namespace ElfImage

/-- Two files agree wherever loading looks: at the bytes of a header, and if these are a header that
passes the checks, at the table it points to. -/
structure SameHeaders (data data' : Bytes) : Prop where
  header : File.window data 0 ElfHeader.size = File.window data' 0 ElfHeader.size
  table : ∀ (header : ElfHeader) (rest : List UInt8),
    ElfHeader.parse (File.window data 0 ElfHeader.size).toList = .ok (header, rest) →
    header.verify = .ok () →
    File.window data header.programHeadersOffset.toNat
        (header.programHeaderCount.toNat * ProgramHeader.size)
      = File.window data' header.programHeadersOffset.toNat
        (header.programHeaderCount.toNat * ProgramHeader.size)

variable {f f' : File} {data data' : Bytes}

theorem readExact_congr (hf : f.Holds data) (hf' : f'.Holds data') {offset count : Nat}
    (h : File.window data offset count = File.window data' offset count) :
    readExact f offset count = readExact f' offset count := by
  rw [readExact, readExact, hf.readFull, hf'.readFull, h]

/-- The same image is read from files with the same headers, or none for the same reason. -/
theorem ofFile_congr (hf : f.Holds data) (hf' : f'.Holds data') (h : SameHeaders data data') :
    ofFile f = ofFile f' := by
  have hheader : readHeader f = readHeader f' := by
    rw [readHeader, readHeader, readExact_congr hf hf' h.header]
  rw [ofFile, ofFile, ← hheader]
  cases hread : readHeader f with
  | error e => rfl
  | ok header =>
    obtain ⟨hsupported, -, rest, hparse⟩ := (readHeader_eq_ok hf).1 hread
    have htable := h.table header rest hparse (ElfHeader.verify_eq_ok.2 hsupported)
    simp only [except_ok_bind, readExact_congr hf hf' htable]

end ElfImage

/-! ### What is declared -/

/-- The source of one page in two loads: the page reads nothing, or it reads the same part of the
file that was loaded. -/
inductive PageSource.SamePart (file file' : Handle) : PageSource → PageSource → Prop
  | zero : SamePart file file' .zero .zero
  | image (offset read : Nat) : SamePart file file' (.image file offset read)
      (.image file' offset read)

namespace PageMap

/-- The pages of `m₁` and `m₂` are those of `m` and pages that were declared since. -/
structure GrownAlike (file file' : Handle) (m m₁ m₂ : PageMap) : Prop where
  /-- The pages from before are as they were. -/
  kept : ∀ (page : Nat) (e : PageEntry), m.entries[page]? = some e →
    m₁.entries[page]? = some e ∧ m₂.entries[page]? = some e
  /-- A page is declared in both or in none, for the same part of the file and with the same rights,
  and it has not been populated. -/
  declared : ∀ page : Nat, m.entries[page]? = none →
    (m₁.entries[page]? = none ∧ m₂.entries[page]? = none) ∨
    ∃ source source' writable, m₁.entries[page]? = some (.fresh source writable) ∧
      m₂.entries[page]? = some (.fresh source' writable) ∧ source.SamePart file file' source'

variable {file file' : Handle} {m m₁ m₂ : PageMap} {page : Nat} {source source' : PageSource}
  {writable : Bool}

theorem GrownAlike.refl (file file' : Handle) (m : PageMap) : m.GrownAlike file file' m m where
  kept _ _ h := ⟨h, h⟩
  declared _ h := .inl ⟨h, h⟩

/-- The same pages are in use. -/
theorem GrownAlike.isSome_eq (h : m.GrownAlike file file' m₁ m₂) (page : Nat) :
    m₁.entries[page]?.isSome = m₂.entries[page]?.isSome := by
  cases hpage : m.entries[page]? with
  | some e =>
    obtain ⟨h₁, h₂⟩ := h.kept page e hpage
    rw [h₁, h₂]
  | none =>
    rcases h.declared page hpage with ⟨h₁, h₂⟩ | ⟨_, _, _, h₁, h₂, -⟩
    · rw [h₁, h₂]
    · rw [h₁, h₂]
      rfl

/-- One more page is declared in both. -/
theorem GrownAlike.set (h : m.GrownAlike file file' m₁ m₂) (hpage : pageOffset page = 0)
    (hfree : m₁.entries[page]? = none) (hsource : source.SamePart file file' source') :
    m.GrownAlike file file' (m₁.set page (.fresh source writable))
      (m₂.set page (.fresh source' writable)) := by
  have hfloor := pageFloor_of_pageOffset hpage
  constructor
  case kept =>
    intro other e hother
    have hne : page ≠ other := by
      rintro rfl
      rw [(h.kept page e hother).1] at hfree
      cases hfree
    rw [getElem?_set, getElem?_set, hfloor, if_neg hne, if_neg hne]
    exact h.kept other e hother
  case declared =>
    intro other hother
    rw [getElem?_set, getElem?_set, hfloor]
    by_cases heq : page = other
    · rw [if_pos heq, if_pos heq]
      exact .inr ⟨source, source', writable, rfl, rfl, hsource⟩
    · rw [if_neg heq, if_neg heq]
      exact h.declared other hother

/-- Whether a page may be declared does not depend on the file that it reads. -/
theorem checkDeclaration_congr (page : Nat) (h : source.SamePart file file' source') :
    checkDeclaration page source = checkDeclaration page source' := by
  cases h <;> rfl

/-- Declaring a page in both panics in both, finds the page in use in both, or adds it to both. -/
theorem GrownAlike.tryDeclare (h : m.GrownAlike file file' m₁ m₂) (page : Nat) (writable : Bool)
    (hsource : source.SamePart file file' source') :
    (∃ e, m₁.tryDeclare page source writable = .error e ∧
      m₂.tryDeclare page source' writable = .error e) ∨
    ∃ added m₁' m₂', m₁.tryDeclare page source writable = .ok (added, m₁') ∧
      m₂.tryDeclare page source' writable = .ok (added, m₂') ∧
      m.GrownAlike file file' m₁' m₂' := by
  have hcheck := checkDeclaration_congr page hsource
  have hused := h.isSome_eq page
  cases hdecl : checkDeclaration page source with
  | error e =>
    rw [hdecl] at hcheck
    refine .inl ⟨e, ?_, ?_⟩
    · rw [PageMap.tryDeclare, hdecl]
      rfl
    · rw [PageMap.tryDeclare, ← hcheck]
      rfl
  | ok _ =>
    rw [hdecl] at hcheck
    cases hfree : m₁.entries[page]? with
    | some e =>
      rw [hfree] at hused
      exact .inr ⟨false, m₁, m₂, tryDeclare_eq_ok.2 ⟨hdecl, .inl ⟨rfl, by rw [hfree]; rfl, rfl⟩⟩,
        tryDeclare_eq_ok.2 ⟨hcheck.symm, .inl ⟨rfl, hused.symm, rfl⟩⟩, h⟩
    | none =>
      rw [hfree] at hused
      have hfree₂ := Option.not_isSome_iff_eq_none.1 (ne_true_of_eq_false hused.symm)
      exact .inr ⟨true, _, _, tryDeclare_eq_ok.2 ⟨hdecl, .inr ⟨rfl, hfree, rfl⟩⟩,
        tryDeclare_eq_ok.2 ⟨hcheck.symm, .inr ⟨rfl, hfree₂, rfl⟩⟩,
        h.set (pageOffset_of_checkDeclaration hdecl) hfree hsource⟩

end PageMap

/-! ### Two runs side by side -/

namespace PagerM

variable {α β : Type} {R : Traced → Traced → Prop}

/-- Two runs end with the same answer, or in the same panic, in states that `R` relates. -/
inductive StopsAlike (R : Traced → Traced → Prop) :
    EStateM.Result Panic Traced α → EStateM.Result Panic Traced α → Prop
  | ok {a : α} {t u : Traced} (related : R t u) : StopsAlike R (.ok a t) (.ok a u)
  | error {e : Panic} {t u : Traced} (related : R t u) : StopsAlike R (.error e t) (.error e u)

/-- From states that `R` relates, `x` and `y` stop in the same way, in states that it relates. -/
def Matches (R : Traced → Traced → Prop) (x y : PagerM α) : Prop :=
  ∀ t u, R t u → StopsAlike R (x.run t) (y.run u)

theorem matches_pure (a : α) : Matches R (pure a) (pure a) := fun _ _ h => .ok h

theorem matches_throw (e : Panic) : Matches R (throw e : PagerM α) (throw e) :=
  fun _ _ h => .error h

theorem matches_lift (x : Except Panic α) : Matches R (liftM x) (liftM x) := by
  cases x with
  | error e => exact matches_throw e
  | ok a => exact matches_pure a

theorem Matches.bind {x y : PagerM α} {f g : α → PagerM β} (hxy : Matches R x y)
    (hfg : ∀ a, Matches R (f a) (g a)) : Matches R (x >>= f) (y >>= g) := by
  intro t u htu
  have h := hxy t u htu
  rw [EStateM.run_bind, EStateM.run_bind]
  generalize x.run t = r at h
  generalize y.run u = r' at h
  cases h with
  | ok related => exact hfg _ _ _ related
  | error related => exact .error related

theorem Matches.ite {c : Prop} [Decidable c] {x x' y y' : PagerM α} (hx : Matches R x x')
    (hy : Matches R y y') : Matches R (if c then x else y) (if c then x' else y') := by
  split
  · exact hx
  · exact hy

/-- Two actions may look at their pagers, if they go by what related states have in common. -/
theorem matches_pager_bind {f g : Pager → PagerM β}
    (h : ∀ t u, R t u → Matches R (f t.pager) (g u.pager)) :
    Matches R (pager >>= f) (pager >>= g) := fun t u htu => h t u htu t u htu

end PagerM

/-! ### Two loads -/

/-- Since `start`, two loads have reported the same and changed nothing but the page map of process
`pid`, which has grown alike. -/
structure Traced.LoadsAlike (start : Traced) (pid : Nat) (pr : Process) (file file' : Handle)
    (t u : Traced) : Prop where
  log_eq : t.log = u.log
  pages : ∃ m₁ m₂, t.pager = start.pager.withProcess pid { pr with pages := m₁ } ∧
    u.pager = start.pager.withProcess pid { pr with pages := m₂ } ∧
    pr.pages.GrownAlike file file' m₁ m₂

/-- What is recorded last is what counts. -/
theorem Pager.withProcess_of_eq {p p' : Pager} {pid : Nat} {pr : Process}
    (h : p' = p.withProcess pid pr) (pr' : Process) :
    p'.withProcess pid pr' = p.withProcess pid pr' := by
  rw [h, withProcess_withProcess]

namespace PagerM

open PageSource (SamePart)

variable {start : Traced} {pid : Nat} {pr : Process} {file file' : Handle}

theorem config_eq_of_loadsAlike {t u : Traced} (h : start.LoadsAlike pid pr file file' t u) :
    t.pager.config = start.pager.config ∧ u.pager.config = start.pager.config := by
  obtain ⟨-, _, _, ht, hu, -⟩ := h
  exact ⟨by rw [ht]; rfl, by rw [hu]; rfl⟩

theorem matches_emit (e : PagerEvent) :
    Matches (start.LoadsAlike pid pr file file') (emit e) (emit e) := fun _ _ htu =>
  .ok ⟨congrArg (·.push e) htu.log_eq, htu.pages⟩

/-- An action on a process that is registered starts with what is tracked of it. -/
theorem run_process_bind {t : Traced} (h : t.pager.processes[pid]? = some pr)
    (f : Process → PagerM α) : (process pid >>= f).run t = (f pr).run t := by
  have hprocess : Meets (process pid) (fun p t' => p = pr ∧ t' = t) (fun _ _ => False) t :=
    (meets_process_of_getElem? h).2 ⟨rfl, rfl⟩
  obtain ⟨_, _, hrun, rfl, rfl⟩ := hprocess.exists_run
  rw [EStateM.run_bind, hrun]

/-- One more page is declared in both loads, or in none. -/
theorem matches_tryDeclare (page : Nat) (writable : Bool) {source source' : PageSource}
    (hsource : SamePart file file' source source') :
    Matches (start.LoadsAlike pid pr file file') (tryDeclare pid page source writable)
      (tryDeclare pid page source' writable) := by
  rw [tryDeclare, tryDeclare]
  refine matches_pager_bind fun t u htu => ?_
  obtain ⟨ht, hu⟩ := config_eq_of_loadsAlike htu
  rw [ht, hu]
  refine .ite ?declare ((matches_throw _).bind fun _ => ?declare)
  rintro t u ⟨hlog, m₁, m₂, ht, hu, hgrown⟩
  rw [run_process_bind (Pager.getElem?_of_eq_withProcess ht),
    run_process_bind (Pager.getElem?_of_eq_withProcess hu)]
  rcases hgrown.tryDeclare page writable hsource with ⟨e, h₁, h₂⟩ | ⟨added, m₁', m₂', h₁, h₂, hset⟩
  · rw [h₁, h₂]
    exact .error ⟨hlog, m₁, m₂, ht, hu, hgrown⟩
  · rw [lift_ok_bind h₁, lift_ok_bind h₂]
    refine .ok ⟨hlog, m₁', m₂', ?_, ?_, hset⟩
    · exact Pager.withProcess_of_eq ht _
    · exact Pager.withProcess_of_eq hu _

theorem matches_declareSegment (writable : Bool) (page offset read zeros : Nat) :
    Matches (start.LoadsAlike pid pr file file')
      (declareSegment pid file writable page offset read zeros)
      (declareSegment pid file' writable page offset read zeros) := by
  rw [declareSegment, declareSegment]
  split
  · rename_i hleft
    have hdeclare : Matches (start.LoadsAlike pid pr file file')
        (Pager.tryDeclareImage pid page file offset (min read pageSize) writable)
        (Pager.tryDeclareImage pid page file' offset (min read pageSize) writable) := by
      refine matches_pager_bind fun t u htu => ?_
      obtain ⟨ht, hu⟩ := config_eq_of_loadsAlike htu
      rw [ht, hu]
      exact matches_tryDeclare page _ (.image offset _)
    refine hdeclare.bind fun added => .ite ?_ (matches_pure _)
    split
    · rename_i hfits
      have := left_after_page_lt hleft hfits
      exact matches_declareSegment writable _ _ _ _
    · exact matches_throw _
  · exact matches_pure _
  termination_by read + zeros

theorem matches_loadSegments (hlength : file.file.length = file'.file.length)
    (segments : List ProgramHeader) :
    Matches (start.LoadsAlike pid pr file file') (loadSegments pid file segments)
      (loadSegments pid file' segments) := by
  induction segments with
  | nil => exact matches_pure _
  | cons h rest ih =>
    rw [loadSegments, loadSegments]
    cases h.kind with
    | load =>
      refine matches_pager_bind fun t u htu => ?_
      obtain ⟨ht, hu⟩ := config_eq_of_loadsAlike htu
      rw [ht, hu, hlength]
      cases h.validate file'.file.length start.pager.config.physBase with
      | error e => exact matches_pure _
      | ok _ =>
        have hsegment : Matches (start.LoadsAlike pid pr file file') (loadSegment pid file h)
            (loadSegment pid file' h) :=
          (matches_lift _).bind fun _ => (matches_lift _).bind fun _ =>
            (matches_lift _).bind fun _ => matches_declareSegment _ _ _ _ _
        refine hsegment.bind fun r => ?_
        cases r with
        | error e => exact matches_pure _
        | ok _ => exact (matches_emit _).bind fun _ => ih
    | dynamic | interpret | shlib => exact matches_pure _
    | _ => exact ih

/-- Loads that read the same image match. -/
theorem matches_loadElf (hlength : file.file.length = file'.file.length)
    (himage : ElfImage.ofFile (start.pager.view file)
      = ElfImage.ofFile (start.pager.view file')) :
    Matches (start.LoadsAlike pid pr file file') (Pager.loadElf pid file)
      (Pager.loadElf pid file') := by
  rw [Pager.loadElf, Pager.loadElf]
  refine matches_pager_bind fun t u htu => ?_
  obtain ⟨-, _, _, ht, hu, -⟩ := htu
  have hview : t.pager.view file = start.pager.view file := by rw [ht]; rfl
  have hview' : u.pager.view file' = start.pager.view file' := by rw [hu]; rfl
  rw [hview, hview', ← himage]
  cases ElfImage.ofFile (start.pager.view file) with
  | error e => exact matches_pure _
  | ok image =>
    refine (matches_loadSegments hlength image.segments).bind fun r => ?_
    cases r with
    | error e => exact matches_pure _
    | ok _ =>
      refine matches_pager_bind fun t u htu => ?_
      obtain ⟨ht, hu⟩ := config_eq_of_loadsAlike htu
      rw [ht, hu]
      refine (matches_lift _).bind fun stackPage => ?_
      exact (matches_tryDeclare stackPage true .zero).bind fun _ =>
        .ite (matches_pure _) (matches_pure _)

end PagerM

namespace Pager

variable {t : Traced} {pid : Nat} {pr : Process} {file file' : Handle} {data data' : Bytes}

/-- Two files of the same length with the same headers are loaded alike, in every pager and whatever
else they hold: with the same program, the same error or the same panic, and with the same pages up
to the file they read. Where the kernel begins at a page boundary, behind the first page, there is
no panic. -/
theorem loads_by_headers (hpr : t.pager.processes[pid]? = some pr)
    (hholds : file.file.Holds data) (hholds' : file'.file.Holds data')
    (hreads : t.pager.failing file.id = false) (hreads' : t.pager.failing file'.id = false)
    (hlength : file.file.length = file'.file.length)
    (hheaders : ElfImage.SameHeaders data data') :
    PagerM.StopsAlike (t.LoadsAlike pid pr file file') ((loadElf pid file).run t)
        ((loadElf pid file').run t) ∧
      (pageOffset t.pager.config.physBase = 0 → pageSize ≤ t.pager.config.physBase →
        PagerM.Ends (loadElf pid file) t) := by
  have himage : ElfImage.ofFile (t.pager.view file) = ElfImage.ofFile (t.pager.view file') :=
    ElfImage.ofFile_congr (holds_view hholds hreads) (holds_view hholds' hreads') hheaders
  have hself : t.pager = t.pager.withProcess pid { pr with pages := pr.pages } :=
    (withProcess_self hpr).symm
  have hstart : t.LoadsAlike pid pr file file' t t :=
    ⟨rfl, pr.pages, pr.pages, hself, hself, .refl file file' pr.pages⟩
  refine ⟨PagerM.matches_loadElf hlength himage t t hstart, fun hbase hstack => ?_⟩
  exact (PagerM.meets_loadElf hpr hbase hstack).ends

/-- The headers of the small executable with another segment behind them. -/
def smallTwin : Bytes := smallExecutable.extract 0 84 ++ #[9, 9, 9, 9]

theorem sameHeaders_smallTwin : ElfImage.SameHeaders smallExecutable smallTwin where
  header := by decide +kernel
  table := by
    have hparse : ElfHeader.parse (File.window smallExecutable 0 ElfHeader.size).toList
        = .ok (⟨.little, 1, .executable, .x86, 1, 0x1054, 52, 32, 1⟩, []) := by decide +kernel
    intro header rest h _
    rw [hparse] at h
    cases h
    decide +kernel

/-- The small executable and its twin are loaded as the same program, into the same two pages. -/
theorem loads_by_headers_twins :
    let t : Traced := ⟨(Pager.ofConfig { userFrames := 1, physBase := 0x3000 }
      (.attach .swap "swap" (.ram (.blank 64)))).withProcess 1 .fresh, #[]⟩
    let file : Handle := ⟨7, 0, .ofBytes smallExecutable⟩
    let twin : Handle := ⟨8, 0, .ofBytes smallTwin⟩
    ∃ t₁ t₂, (loadElf 1 file).run t = .ok (.ok ⟨0x1054, 0x3000⟩) t₁ ∧
      (loadElf 1 twin).run t = .ok (.ok ⟨0x1054, 0x3000⟩) t₂ ∧
      t.LoadsAlike 1 .fresh file twin t₁ t₂ ∧ smallExecutable ≠ smallTwin := by
  intro t file twin
  have hrun : ∃ r t', (loadElf 1 file).run t = .ok r t' ∧
      r.toOption = some ⟨0x1054, 0x3000⟩ := by
    decide +kernel
  obtain ⟨r, t₁, h₁, hr⟩ := hrun
  have hholds : file.file.Holds smallExecutable := File.holds_ofBytes smallExecutable
  have hholds' : twin.file.Holds smallTwin := File.holds_ofBytes smallTwin
  obtain ⟨halike, -⟩ := loads_by_headers (t := t) (getElem?_withProcess_self _ _ _) hholds hholds'
    rfl rfl (by decide +kernel) sameHeaders_smallTwin
  rw [h₁] at halike
  generalize (loadElf 1 twin).run t = r₂ at halike ⊢
  cases halike with
  | ok related =>
    cases r with
    | error e => cases hr
    | ok program =>
      cases hr
      exact ⟨_, _, h₁, rfl, related, by decide +kernel⟩

end Pager

end DemandPaging
