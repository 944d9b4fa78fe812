import DemandPaging.Proofs.Loading

/-!
# Loading files that nobody vouches for

An executable comes from a user. Its header, its program headers and the length that the file claims
may be anything, and reads of it may fail or be cut short. Loading such a file ends all the same,
with a program or with the reason why there is none.

The numbers of a segment are computed from its program header without any regard to overflow. They
are safe because of the checks that come before. The segment has the same page offset in the file
and in memory, so its first page does not begin before the file does. It has no more bytes in the
file than in memory, so what is read fits into its pages. The loop then counts down two numbers, the
bytes still to be read and the zeros still to be filled in, and their sum is the room between the
page that is next and the end of the segment.

What a load that fails leaves behind is told as well, since the process is torn down with it. The
segments are declared in the order of the program headers. Each one has all of its pages or, if one
of them is in use, the pages below the first one that is.

## Main definitions

* `ProgramHeader.readFrom`, `ProgramHeader.zerosFrom` — what the loop over a segment counts down.
* `ProgramHeader.InBounds` — what holds of the numbers of a segment.
* `ProgramHeader.loop`, `ProgramHeader.Iterates` — the loop over a segment, and its turns.
* `ProgramHeader.Declares` — what the loop over a segment comes to.
* `PageMap.LoadsSegments`, `PageMap.Loads` — what loading comes to.

## Main results

* `ProgramHeader.Loadable.inBounds`, `ProgramHeader.Loadable.iterates` — a segment that passes the
  checks is in bounds, and the loop goes over it from page to page.
* `PageMap.loads_loadFile` — loading declares page after page, up to the first that is in use.
* `Pager.loadElf_ends` — loading never panics, whatever the file.
-/

namespace DemandPaging

/-! ### The numbers of a segment -/

namespace ProgramHeader

/-- The end of the segment, rounded up to a page boundary. -/
def limit (h : ProgramHeader) : Nat :=
  pageFloor (h.virtualAddress.toNat + h.memorySize.toNat + (pageSize - 1))

/-- The place in the file where `page` goes on. -/
def offsetFrom (h : ProgramHeader) (page : Nat) : Nat :=
  h.start + min (page - pageFloor h.virtualAddress.toNat) h.read

/-- The bytes that are still to be read from `page` on. -/
def readFrom (h : ProgramHeader) (page : Nat) : Nat :=
  h.read - (page - pageFloor h.virtualAddress.toNat)

/-- The zeros that are still to be filled in from `page` on. -/
def zerosFrom (h : ProgramHeader) (page : Nat) : Nat := h.limit - page - h.readFrom page

/-- The bytes that `page` reads. -/
def share (h : ProgramHeader) (page : Nat) : Nat := min (h.readFrom page) pageSize

/-- The numbers that are computed for the segment are what they should be, if its pages have to lie
below `physBase`. -/
structure InBounds (h : ProgramHeader) (physBase : Nat) : Prop where
  /-- The first page does not start before the file. -/
  offset_le : pageOffset h.virtualAddress.toNat ≤ h.fileOffset.toNat
  /-- What is read fits into the pages. -/
  read_le : h.read ≤ h.limit - pageFloor h.virtualAddress.toNat
  aligned : ∀ page, h.Spans page → pageOffset page = 0
  user : ∀ page, h.Spans page → page < physBase
  /-- A page reads its share of the file, which is a page at most. -/
  share_le : ∀ file page, h.Spans page →
    h.source file page = .image file (h.offsetFrom page) (h.share page) ∧ h.share page ≤ pageSize
  /-- There are zeros enough for what a page does not read. -/
  filled : ∀ page, h.Spans page → pageSize - h.share page ≤ h.zerosFrom page

variable {h : ProgramHeader} {file : Handle} {writable : Bool} {fileLength physBase page : Nat}

/-- The pages end where the segment ends, rounded up. -/
theorem limit_eq (h : ProgramHeader) :
    h.limit = pageFloor h.virtualAddress.toNat + h.pageCount * pageSize := by
  simp only [limit, pageCount, pageFloor, pageOffset, pageSize]
  omega

/-- A page of the segment ends before the segment does. -/
theorem Spans.add_pageSize_le (hspans : h.Spans page) : page + pageSize ≤ h.limit := by
  obtain ⟨haligned, -, hbelow⟩ := hspans
  simp only [limit, pageFloor, pageOffset, pageSize] at *
  omega

/-- A segment that passes the checks is in bounds. -/
theorem Loadable.inBounds (hload : h.Loadable fileLength physBase)
    (hbase : pageOffset physBase = 0) : h.InBounds physBase := by
  have hread := hload.read_le
  have hlimit := h.limit_eq
  have hbelow : h.limit ≤ physBase := by
    have := hload.below_kernel
    simp only [limit, pageFloor, pageOffset, pageSize] at *
    omega
  refine ⟨hload.offset_le, by omega, fun _ hspans => hspans.1, fun page hspans => ?_,
    fun _ _ _ => ⟨rfl, Nat.min_le_right _ _⟩, fun page hspans => ?_⟩
  · have := hspans.add_pageSize_le
    rw [pageSize] at this
    omega
  · have := hspans.add_pageSize_le
    have := hspans.2.1
    rw [share, zerosFrom, readFrom]
    omega

/-! ### What the loop counts down -/

/-- The loop over the segment, from `page` on. -/
def loop (h : ProgramHeader) (pid : Nat) (file : Handle) (page : Nat) :
    PagerM (Except LoadError Unit) :=
  PagerM.declareSegment pid file h.writable page (h.offsetFrom page) (h.readFrom page)
    (h.zerosFrom page)

/-- The loop over the segment passes on the numbers that are in bounds, page after page. -/
structure Iterates (h : ProgramHeader) (file : Handle) : Prop where
  /-- It begins with the first page. -/
  begins : ∀ pid, PagerM.loadSegment pid file h = h.loop pid file (pageFloor h.virtualAddress.toNat)
  /-- It declares a page, and goes on with the next one unless the page is in use. -/
  turns : ∀ pid page, h.Spans page → h.loop pid file page = (do
    unless ← Pager.tryDeclareImage pid page file (h.offsetFrom page) (h.share page) h.writable do
      return .error (.segmentOverlap page)
    h.loop pid file (page + pageSize))
  /-- It is over at the end of the segment. -/
  ends : ∀ pid, h.loop pid file h.limit = pure (.ok ())

theorem loadSegment_eq_loop (pid : Nat) (file : Handle) (hload : h.Loadable fileLength physBase) :
    PagerM.loadSegment pid file h = h.loop pid file (pageFloor h.virtualAddress.toNat) := by
  rw [PagerM.loadSegment_eq hload, loop, zerosFrom, readFrom, offsetFrom, limit_eq]
  simp only [Nat.sub_self, Nat.sub_zero, Nat.zero_min, Nat.add_zero, Nat.add_sub_cancel_left]

/-- The loop takes off both numbers what the page has of them. -/
theorem loop_of_spans (pid : Nat) (file : Handle) (hbounds : h.InBounds physBase)
    (hspans : h.Spans page) :
    h.loop pid file page = (do
      unless ← Pager.tryDeclareImage pid page file (h.offsetFrom page) (h.share page) h.writable do
        return .error (.segmentOverlap page)
      h.loop pid file (page + pageSize)) := by
  have hfirst := hspans.2.1
  have hroom := hspans.add_pageSize_le
  have hread := hbounds.read_le
  have hleft : 0 < h.readFrom page ∨ 0 < h.zerosFrom page := by
    simp only [zerosFrom, readFrom, pageSize] at *
    omega
  have hoffset : h.offsetFrom (page + pageSize) = h.offsetFrom page + h.share page := by
    simp only [offsetFrom, share, readFrom]
    omega
  have hreads : h.readFrom (page + pageSize) = h.readFrom page - h.share page := by
    simp only [share, readFrom]
    omega
  have hzeros : h.zerosFrom (page + pageSize)
      = h.zerosFrom page - (pageSize - h.share page) := by
    simp only [zerosFrom, share, readFrom]
    omega
  have hfilled := hbounds.filled page hspans
  rw [loop, loop, hoffset, hreads, hzeros, PagerM.declareSegment, dif_pos hleft]
  simp only [share] at hfilled ⊢
  simp only [dif_pos hfilled]

theorem loop_limit (pid : Nat) (file : Handle) (hbounds : h.InBounds physBase) :
    h.loop pid file h.limit = pure (.ok ()) := by
  have hread := hbounds.read_le
  have hnone : ¬ (0 < h.readFrom h.limit ∨ 0 < h.zerosFrom h.limit) := by
    simp only [zerosFrom, readFrom]
    omega
  rw [loop, PagerM.declareSegment, dif_neg hnone]

theorem Loadable.iterates (hload : h.Loadable fileLength physBase)
    (hbase : pageOffset physBase = 0) (file : Handle) : h.Iterates file where
  begins pid := loadSegment_eq_loop pid file hload
  turns pid _ hspans := loop_of_spans pid file (hload.inBounds hbase) hspans
  ends pid := loop_limit pid file (hload.inBounds hbase)

end ProgramHeader

/-! ### Stopping at a page that is in use -/

namespace PageMap

variable {m m' : PageMap} {l : List (Nat × PageEntry)}

/-- If not all of a list of pages is declared, what comes before the first page in use is. -/
theorem declareAll_eq_error {error : LoadError} (h : declareAll l m = (.error error, m')) :
    ∃ before page e after, l = before ++ (page, e) :: after ∧ error = .segmentOverlap page ∧
      declareAll before m = (.ok (), m') ∧ m'.entries[page]?.isSome := by
  induction l generalizing m with
  | nil => cases h
  | cons x l ih =>
    obtain ⟨page, e⟩ := x
    rw [declareAll, Std.ExtTreeMap.contains_eq_isSome_getElem?] at h
    split at h
    · rename_i hused
      cases h
      exact ⟨[], page, e, l, rfl, rfl, rfl, hused⟩
    · rename_i hfree
      obtain ⟨before, stop, e', after, rfl, herror, hdeclared, hused⟩ := ih h
      refine ⟨(page, e) :: before, stop, e', after, rfl, herror, ?_, hused⟩
      exact declareAll_cons_eq_ok.2 ⟨by simpa using hfree, hdeclared⟩

end PageMap

namespace ProgramHeader

/-- The pages of the segment below `stop` were not in use in `m` and are declared in `m'`. Nothing
else is different. -/
structure DeclaredBelow (h : ProgramHeader) (file : Handle) (writable : Bool) (stop : Nat)
    (m m' : PageMap) : Prop where
  free : ∀ page, h.Spans page → page < stop → m.entries[page]? = none
  declared : ∀ page, h.Spans page → page < stop →
    m'.entries[page]? = some (.fresh (h.source file page) writable)
  kept : ∀ page, ¬ (h.Spans page ∧ page < stop) → m'.entries[page]? = m.entries[page]?

/-- What the loop over the pages of the segment comes to, if the pages of `m` are in use. -/
inductive Declares (h : ProgramHeader) (file : Handle) (writable : Bool) (m : PageMap) :
    Except LoadError Unit → PageMap → Prop
  /-- All pages are declared. -/
  | all {m' : PageMap} (declared : h.DeclaredBelow file writable h.limit m m') :
    Declares h file writable m (.ok ()) m'
  /-- One page is in use, and all below it are declared. -/
  | overlap {m' : PageMap} {page : Nat} (spans : h.Spans page) (used : m.entries[page]?.isSome)
      (declared : h.DeclaredBelow file writable page m m') :
    Declares h file writable m (.error (.segmentOverlap page)) m'

variable {h : ProgramHeader} {file : Handle} {writable : Bool} {m m' : PageMap}

/-- Pages are listed in order. -/
theorem pairwise_entries (h : ProgramHeader) (file : Handle) (writable : Bool) :
    (h.entries file writable).Pairwise fun x y => x.1 < y.1 := by
  rw [entries, imageEntries, List.pairwise_map]
  refine List.pairwise_lt_range.imp fun {i j} hij => ?_
  simp only [pageSize]
  omega

theorem declaredBelow_of_declareAll {l : List (Nat × PageEntry)} {stop : Nat}
    (hl : ∀ page e, (page, e) ∈ l ↔
      (h.Spans page ∧ page < stop) ∧ e = .fresh (h.source file page) writable)
    (hdecl : PageMap.declareAll l m = (.ok (), m')) :
    h.DeclaredBelow file writable stop m m' := by
  have haligned : ∀ x ∈ l, pageOffset x.1 = 0 := fun x hx => ((hl x.1 x.2).1 hx).1.1.1
  have hfree := ((PageMap.exists_declareAll haligned).1 ⟨m', hdecl⟩).2
  obtain ⟨hnew, hold⟩ := PageMap.getElem?_declareAll haligned hdecl
  refine ⟨fun page hspans hlt => ?_, fun page hspans hlt => ?_, fun page hpage => ?_⟩
  · exact hfree (page, _) ((hl page _).2 ⟨⟨hspans, hlt⟩, rfl⟩)
  · exact hnew (page, _) ((hl page _).2 ⟨⟨hspans, hlt⟩, rfl⟩)
  · refine hold page fun x hx heq => hpage ?_
    rw [heq]
    exact ((hl x.1 x.2).1 hx).1

/-- The pages of a segment are declared, up to the first that is in use. -/
theorem declares_of_declareAll {r : Except LoadError Unit}
    (hdecl : PageMap.declareAll (h.entries file writable) m = (r, m')) :
    h.Declares file writable m r m' := by
  cases r with
  | ok _ =>
    refine .all (declaredBelow_of_declareAll (fun page e => ?_) hdecl)
    rw [mem_entries]
    exact and_congr_left fun _ => (and_iff_left_of_imp fun hspans => hspans.2.2).symm
  | error error =>
    obtain ⟨before, stop, e₀, after, hl, rfl, hbefore, hused⟩ := PageMap.declareAll_eq_error hdecl
    have hsorted := h.pairwise_entries file writable
    rw [hl] at hsorted
    obtain ⟨-, hafter, hlt⟩ := List.pairwise_append.1 hsorted
    have hstop : h.Spans stop := by
      have hmem : (stop, e₀) ∈ h.entries file writable := by simp [hl]
      exact (mem_entries.1 hmem).1
    have hmem : ∀ page e, (page, e) ∈ before ↔
        (h.Spans page ∧ page < stop) ∧ e = .fresh (h.source file page) writable := by
      intro page e
      rw [and_right_comm, ← mem_entries, hl, List.mem_append]
      constructor
      · intro hin
        exact ⟨.inl hin, hlt _ hin _ List.mem_cons_self⟩
      · rintro ⟨hin | hin, hpage⟩
        · exact hin
        · rcases List.mem_cons.1 hin with heq | hin
          · cases heq
            exact absurd hpage (Nat.lt_irrefl _)
          · have := (List.pairwise_cons.1 hafter).1 _ hin
            exact absurd hpage (Nat.lt_asymm this)
    have hbelow := declaredBelow_of_declareAll hmem hbefore
    refine .overlap hstop ?_ hbelow
    rwa [← hbelow.kept stop fun hself => Nat.lt_irrefl _ hself.2]

end ProgramHeader

/-! ### Whole files -/

namespace PageMap

/-- What loading segments from `file` comes to, if the pages of `m` are in use: the answer and the
pages then. -/
inductive LoadsSegments (file : Handle) (config : Config) :
    List ProgramHeader → PageMap → Except LoadError Unit → PageMap → Prop
  | done {m : PageMap} : LoadsSegments file config [] m (.ok ()) m
  /-- A segment of another kind is passed over. -/
  | passed {h : ProgramHeader} {rest : List ProgramHeader} {m m' : PageMap}
      {r : Except LoadError Unit} (other : h.kind ≠ .load)
      (static : h.kind ≠ .dynamic ∧ h.kind ≠ .interpret ∧ h.kind ≠ .shlib)
      (loads : LoadsSegments file config rest m r m') :
    LoadsSegments file config (h :: rest) m r m'
  | dynamic {h : ProgramHeader} {rest : List ProgramHeader} {m : PageMap}
      (kind : h.kind = .dynamic ∨ h.kind = .interpret ∨ h.kind = .shlib) :
    LoadsSegments file config (h :: rest) m (.error (.elf .dynamicSegment)) m
  /-- A segment that does not pass the checks. -/
  | invalid {h : ProgramHeader} {rest : List ProgramHeader} {m : PageMap} {error : SegmentError}
      (kind : h.kind = .load)
      (invalid : h.validate file.file.length config.physBase = .error error) :
    LoadsSegments file config (h :: rest) m (.error (.elf (.segment error))) m
  /-- A segment whose pages are declared. -/
  | declared {h : ProgramHeader} {rest : List ProgramHeader} {m m₁ m' : PageMap}
      {r : Except LoadError Unit} (kind : h.kind = .load)
      (loadable : h.Loadable file.file.length config.physBase)
      (inBounds : h.InBounds config.physBase) (iterates : h.Iterates file)
      (declares : h.Declares file (h.writable || config.writableImages) m (.ok ()) m₁)
      (loads : LoadsSegments file config rest m₁ r m') :
    LoadsSegments file config (h :: rest) m r m'
  /-- A segment with a page that is in use. -/
  | stopped {h : ProgramHeader} {rest : List ProgramHeader} {m m' : PageMap} {error : LoadError}
      (kind : h.kind = .load) (loadable : h.Loadable file.file.length config.physBase)
      (inBounds : h.InBounds config.physBase) (iterates : h.Iterates file)
      (declares : h.Declares file (h.writable || config.writableImages) m (.error error) m') :
    LoadsSegments file config (h :: rest) m (.error error) m'

/-- What loading a file comes to, if `view` is what reads of it see and the pages of `m` are in use:
the answer and the pages then. -/
inductive Loads (view : File) (file : Handle) (config : Config) (m : PageMap) :
    Except LoadError Program → PageMap → Prop
  /-- No image can be read. -/
  | unread {error : LoadError} (unread : ElfImage.ofFile view = .error error) :
    Loads view file config m (.error error) m
  | segments {image : ElfImage} {m' : PageMap} {error : LoadError}
      (image_eq : ElfImage.ofFile view = .ok image)
      (loads : LoadsSegments file config image.segments m (.error error) m') :
    Loads view file config m (.error error) m'
  /-- The stack page is in use. -/
  | stack {image : ElfImage} {m' : PageMap} (image_eq : ElfImage.ofFile view = .ok image)
      (loads : LoadsSegments file config image.segments m (.ok ()) m')
      (used : m'.entries[config.physBase - pageSize]?.isSome) :
    Loads view file config m (.error (.segmentOverlap (config.physBase - pageSize))) m'
  | loaded {image : ElfImage} {m' : PageMap} (image_eq : ElfImage.ofFile view = .ok image)
      (loads : LoadsSegments file config image.segments m (.ok ()) m')
      (free : m'.entries[config.physBase - pageSize]? = none) :
    Loads view file config m (.ok ⟨image.header.programEntry.toNat, config.physBase⟩)
      (m'.set (config.physBase - pageSize) (.fresh .zero true))

variable {file : Handle} {config : Config} {m m' : PageMap}

/-- Segments are declared in turn, up to the first page that is in use or the first program header
that is refused. -/
theorem loadsSegments_of_loadAll (hbase : pageOffset config.physBase = 0)
    {segments : List ProgramHeader} {r : Except LoadError Unit}
    (h : loadAll file config segments m = (r, m')) :
    LoadsSegments file config segments m r m' := by
  induction segments generalizing m with
  | nil =>
    cases h
    exact .done
  | cons segment rest ih =>
    rw [loadAll] at h
    cases hkind : segment.kind with
    | load =>
      simp only [hkind] at h
      cases hvalid : segment.validate file.file.length config.physBase with
      | error error =>
        rw [hvalid] at h
        cases h
        exact .invalid hkind hvalid
      | ok _ =>
        rw [hvalid] at h
        have hload := ProgramHeader.validate_eq_ok.1 hvalid
        cases hdecl : declareAll (segment.entries file (segment.writable || config.writableImages))
            m with
        | mk answer m₁ =>
          have hdeclares := ProgramHeader.declares_of_declareAll hdecl
          rw [hdecl] at h
          cases answer with
          | error error =>
            cases h
            exact .stopped hkind hload (hload.inBounds hbase) (hload.iterates hbase file) hdeclares
          | ok _ =>
            exact .declared hkind hload (hload.inBounds hbase) (hload.iterates hbase file)
              hdeclares (ih h)
    | dynamic | interpret | shlib =>
      simp only [hkind] at h
      cases h
      exact .dynamic (by simp [hkind])
    | _ =>
      simp only [hkind] at h
      exact .passed (by simp [hkind]) (by simp [hkind]) (ih h)

/-- Loading a file declares its segments in turn and then a stack page, and stops at the first page
that is in use. -/
theorem loads_loadFile (view : File) (hbase : pageOffset config.physBase = 0) :
    Loads view file config m (loadFile view file config m).1 (loadFile view file config m).2 := by
  rw [loadFile]
  cases himage : ElfImage.ofFile view with
  | error error => exact .unread himage
  | ok image =>
    simp only [loadImage]
    cases hsegments : loadAll file config image.segments m with
    | mk r m₁ =>
      have hloads := loadsSegments_of_loadAll hbase hsegments
      cases r with
      | error error => exact .segments himage hloads
      | ok _ =>
        simp only [stackEntry, declareAll, Std.ExtTreeMap.contains_eq_isSome_getElem?]
        split
        · rename_i hused
          exact .stack himage hloads hused
        · rename_i hfree
          exact .loaded himage hloads (by simpa using hfree)

end PageMap

namespace Pager

variable {t : Traced} {pid : Nat} {pr : Process} {file : Handle}

/-- Loading a file never panics, whatever the file claims, holds or refuses to read. It ends with a
program or an error, and it has declared the segments in turn, each one up to the first page that is
in use. Nothing but the pages of the process has changed. -/
theorem loadElf_ends (file : Handle) (hpr : t.pager.processes[pid]? = some pr)
    (hbase : pageOffset t.pager.config.physBase = 0)
    (hstack : pageSize ≤ t.pager.config.physBase) :
    ∃ r t' pages, (loadElf pid file).run t = .ok r t' ∧
      t'.pager = t.pager.withProcess pid { pr with pages } ∧
      PageMap.Loads (t.pager.view file) file t.pager.config pr.pages r pages := by
  obtain ⟨r, t', hrun, rfl, hpager⟩ := (PagerM.meets_loadElf hpr hbase hstack).exists_run
  exact ⟨_, t', _, hrun, hpager, PageMap.loads_loadFile _ hbase⟩

/-- An executable with a note and a segment of two pages, of which four bytes come from the file. -/
def wideExecutable : Bytes :=
  (ElfHeader.encode ⟨.little, 1, .executable, .x86, 1, 0x1074, 52, 32, 2⟩
      ⟨.replicate 9 0, .replicate 10 0, .replicate 6 0⟩
    ++ ProgramHeader.encode ⟨.note, 0, 0, 0, 0, false, false, true, 0⟩ .little 0 0
    ++ ProgramHeader.encode ⟨.load, 116, 0x1074, 4, 0x1800, true, true, true, 4096⟩ .little 0 0
    ++ [1, 2, 3, 4]).toArray

/-- The file claims to be as long as can be, and is read seven bytes at a time. The second page of
its segment is in use, so the first page is all that is declared of it. -/
theorem loadElf_ends_overlap : ∃ answers t, (run [.register 1, .declareZero 1 0x2000 true]).run
    (.start { userFrames := 1, physBase := 0x5000 } (.attach .swap "swap" (.ram (.blank 64))))
      = .ok answers t ∧
    ∃ pr r t' pages, t.pager.processes[1]? = some pr ∧
      (loadElf 1 ⟨7, 0, .unreliable wideExecutable (2 ^ 64 - 1) 7 4096 true⟩).run t = .ok r t' ∧
      r = .error (.segmentOverlap 0x2000) ∧
      t'.pager = t.pager.withProcess 1 { pr with pages } ∧
      pages.toList.map Prod.fst = [0x1000, 0x2000] ∧
      PageMap.Loads (t.pager.view ⟨7, 0, .unreliable wideExecutable (2 ^ 64 - 1) 7 4096 true⟩)
        ⟨7, 0, .unreliable wideExecutable (2 ^ 64 - 1) 7 4096 true⟩ t.pager.config pr.pages r
          pages := by
  have hrun : ∃ answers t, (run [.register 1, .declareZero 1 0x2000 true]).run
      (.start { userFrames := 1, physBase := 0x5000 } (.attach .swap "swap" (.ram (.blank 64))))
        = .ok answers t ∧
      t.pager.processes[1]?.isSome ∧ t.pager.config.physBase = 0x5000 ∧
      ∃ r t', (loadElf 1 ⟨7, 0, .unreliable wideExecutable (2 ^ 64 - 1) 7 4096 true⟩).run t
          = .ok r t' ∧ r = .error (.segmentOverlap 0x2000) ∧
        (t'.pager.processes[1]?.all fun pr => pr.pages.toList.map Prod.fst = [0x1000, 0x2000]) := by
    decide +kernel
  obtain ⟨answers, t, h, hpid, hbase, r, t', hload, hr, hpages⟩ := hrun
  obtain ⟨pr, hpr⟩ := Option.isSome_iff_exists.1 hpid
  obtain ⟨r', t'', pages, hload', hpager, hloads⟩ := loadElf_ends
    ⟨7, 0, .unreliable wideExecutable (2 ^ 64 - 1) 7 4096 true⟩ hpr (by rw [hbase]; decide)
      (by rw [hbase]; decide)
  rw [hload] at hload'
  cases hload'
  rw [hpager, getElem?_withProcess_self] at hpages
  exact ⟨answers, t, h, pr, r, t', pages, hpr, hload, hr, hpager, of_decide_eq_true hpages, hloads⟩

end Pager

end DemandPaging
