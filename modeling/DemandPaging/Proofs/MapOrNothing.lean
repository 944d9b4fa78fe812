import DemandPaging.Proofs.Coherence
import DemandPaging.Proofs.Outcomes

/-!
# Mapping a file is all or nothing

A request to map a file passes six checks in a fixed order. The last one is made page by page while
the pages are declared, so it can fail when most of the mapping is already written, and what was
written is then taken back. To the caller none of this shows: the answer is the first condition
that stands in the way, and a request that is refused leaves the pager as it was.

What a successful or refused request writes is the subject of `Pager.MapsFile`. What is new here is
the answer: which one is given, and that one is always given.

## Main definitions

* `MmapError.Obstructs`, `MmapError.rank` — the conditions that stand in the way of a mapping, and
  the order in which they are checked.
* `Pager.MapsWhole` — a mapping that is made.
* `Pager.MapsOrNot` — the answer and the pager afterwards.

## Main results

* `PageMap.exists_declareMapped`, `PageMap.overlap_of_declareMapped` — declaring the pages of a
  mapping ends, and stops only at a page in use.
* `Pager.mapFile_all_or_nothing` — a file is mapped exactly if nothing stands in the way.
-/

namespace DemandPaging

/-! ### Declaring the pages of a mapping -/

namespace PageMap

variable {m m' : PageMap} {page id i count q : Nat} {file : Handle}

/-- Declaring the pages of a mapping ends, since its pages are page addresses. -/
theorem exists_declareMapped (hpage : pageOffset page = 0) :
    ∃ r, declareMapped id file page i count m = .ok r := by
  induction count generalizing page i m with
  | zero => exact ⟨_, rfl⟩
  | succ count ih =>
    have hcheck : checkDeclaration page (.mapped id file (i * pageSize)) = .ok () := by
      simp [checkDeclaration, hpage]
    rw [declareMapped]
    cases hin : m.entries[page]? with
    | some e =>
      have hdecl : m.tryDeclare page (.mapped id file (i * pageSize)) true = .ok (false, m) :=
        tryDeclare_eq_ok.2 ⟨hcheck, .inl ⟨rfl, by rw [hin]; rfl, rfl⟩⟩
      exact ⟨(some page, m), by rw [hdecl]; rfl⟩
    | none =>
      let m' := m.set page (.fresh (.mapped id file (i * pageSize)) true)
      have hdecl : m.tryDeclare page (.mapped id file (i * pageSize)) true = .ok (true, m') :=
        tryDeclare_eq_ok.2 ⟨hcheck, .inr ⟨rfl, hin, rfl⟩⟩
      obtain ⟨r, hr⟩ := ih (i := i + 1) (m := m') (pageOffset_add_pageSize hpage)
      exact ⟨r, by rw [hdecl]; exact hr⟩

/-- Where it stops there was a page in use. -/
theorem overlap_of_declareMapped (h : declareMapped id file page i count m = .ok (some q, m')) :
    ∃ k < count, (m.entries[page + k * pageSize]?).isSome := by
  induction count generalizing page i m with
  | zero => simp [declareMapped] at h
  | succ count ih =>
    rw [declareMapped] at h
    simp only [except_bind_eq_ok, Prod.exists] at h
    obtain ⟨added, m₁, hdecl, h⟩ := h
    obtain ⟨hcheck, ⟨rfl, hin, rfl⟩ | ⟨rfl, -, rfl⟩⟩ := tryDeclare_eq_ok.1 hdecl
    · exact ⟨0, Nat.succ_pos count, by rwa [Nat.zero_mul, Nat.add_zero]⟩
    · obtain ⟨k, hk, hin⟩ := ih h
      rw [getElem?_set, pageFloor_of_pageOffset (pageOffset_of_checkDeclaration hcheck),
        if_neg (by rw [pageSize]; omega)] at hin
      have hnext : page + (k + 1) * pageSize = page + pageSize + k * pageSize := by
        rw [Nat.succ_mul]
        omega
      exact ⟨k + 1, Nat.succ_lt_succ hk, by rwa [hnext]⟩

/-- A mapping that goes through adds one entry for each of its pages. -/
theorem size_declareMapped (h : declareMapped id file page i count m = .ok (none, m')) :
    m'.size = m.size + count := by
  induction count generalizing page i m with
  | zero =>
    cases h
    rfl
  | succ count ih =>
    rw [declareMapped] at h
    simp only [except_bind_eq_ok, Prod.exists] at h
    obtain ⟨added, m₁, hdecl, h⟩ := h
    obtain ⟨hcheck, ⟨rfl, -, rfl⟩ | ⟨rfl, hnone, rfl⟩⟩ := tryDeclare_eq_ok.1 hdecl
    · simp at h
    have hsize : (m.set page (.fresh (.mapped id file (i * pageSize)) true)).size = m.size + 1 := by
      have hfree : ¬ m.entries.contains page = true := by
        rw [Std.ExtTreeMap.contains_eq_isSome_getElem?, hnone]
        exact Bool.false_ne_true
      rw [size, set, pageFloor_of_pageOffset (pageOffset_of_checkDeclaration hcheck),
        Std.ExtTreeMap.size_insert, if_neg hfree, size]
    rw [ih h, hsize]
    omega

end PageMap

/-- A number that is left goes to the next mapping. -/
theorem MappingTable.exists_insert {table : MappingTable} {m : Mapping}
    (hid : m.id = table.nextId) (hnext : table.nextId + 1 < 2 ^ 32) :
    ∃ table', table.insert m = .ok table' := by
  rw [insert, if_pos hid, checkedAdd_of_lt hnext]
  exact ⟨_, rfl⟩

/-- The last number is not given out: there is none to go on with. -/
theorem MappingTable.insert_of_exhausted {table : MappingTable} {m : Mapping}
    (hid : m.id = table.nextId) (hnext : 2 ^ 32 ≤ table.nextId + 1) :
    table.insert m = .error .arithmetic := by
  have hadd : checkedAdd 32 table.nextId 1 = .error .arithmetic := if_neg (Nat.not_lt.2 hnext)
  rw [insert, if_pos hid, hadd]
  rfl

/-! ### What stands in the way -/

namespace MmapError

/-- The condition under which a cause stands in the way of mapping `file` at `addr` in the memory of
`pid`. -/
def Obstructs (p : Pager) (pid : Nat) (file : Handle) (addr : Nat) : MmapError → Prop
  | nullAddress => addr = 0
  | unaligned => pageOffset addr ≠ 0
  | emptyFile => file.file.length = 0
  | kernelAddress =>
    ¬ (addr + file.file.length < 2 ^ 64 ∧ addr + file.file.length ≤ p.config.physBase)
  | reopen => file.file.reopens = false
  | overlap => ∃ page, pageOffset page = 0 ∧ addr ≤ page ∧ page < addr + file.file.length ∧
      (p.declared ⟨pid, page⟩).isSome

/-- The place of a cause in the order in which they are checked. -/
def rank : MmapError → Nat
  | nullAddress => 0
  | unaligned => 1
  | emptyFile => 2
  | kernelAddress => 3
  | reopen => 4
  | overlap => 5

theorem rank_inj {e e' : MmapError} (h : e.rank = e'.rank) : e = e' := by
  cases e <;> cases e' <;> first | rfl | cases h

/-- None of the first `n` causes stands in the way. -/
def Clear (p : Pager) (pid : Nat) (file : Handle) (addr n : Nat) : Prop :=
  ∀ e : MmapError, e.rank < n → ¬ e.Obstructs p pid file addr

section Clear

variable {p : Pager} {pid addr : Nat} {file : Handle} {e : MmapError}

theorem clear_zero : Clear p pid file addr 0 := fun _ h => absurd h (Nat.not_lt_zero _)

/-- A check that is passed. -/
theorem Clear.next (h : Clear p pid file addr e.rank) (he : ¬ e.Obstructs p pid file addr) :
    Clear p pid file addr (e.rank + 1) := by
  intro e' hlt
  rcases Nat.lt_succ_iff_lt_or_eq.1 hlt with hlt | heq
  · exact h e' hlt
  · rwa [rank_inj heq]

/-- All checks are passed. -/
theorem Clear.not_obstructs (h : Clear p pid file addr 6) (e : MmapError) :
    ¬ e.Obstructs p pid file addr :=
  h e (by cases e <;> decide)

end Clear

end MmapError

/-! ### What a mapping adds -/

namespace Pager

variable {p p' : Pager} {pid addr id : Nat} {file : Handle} {pr : Process}

/-- The whole of `file` is mapped at `addr` in the memory of `pid` as mapping `id`, and nothing else
has changed. -/
structure MapsWhole (p : Pager) (pid : Nat) (file : Handle) (addr id : Nat) (p' : Pager) :
    Prop where
  /-- The pages were free, and each of them will read its own page of the file. -/
  mapped : ∀ i < pagesFor file.file.length, p.declared ⟨pid, addr + i * pageSize⟩ = none ∧
    p'.declared ⟨pid, addr + i * pageSize⟩
      = some (.fresh (.mapped id { file with serial := p.nextSerial } (i * pageSize)) true)
  /-- Every other entry of every process is as it was. -/
  others : ∀ o : FrameOwner, (∀ i < pagesFor file.file.length, o ≠ ⟨pid, addr + i * pageSize⟩) →
    p'.declared o = p.declared o
  count : ∀ n, p.declaredPages pid = .ok n →
    p'.declaredPages pid = .ok (n + pagesFor file.file.length)
  /-- The mapping has the number that was next, and is recorded under it. -/
  recorded : ∀ pr, p.processes[pid]? = some pr → id = pr.mappings.nextId ∧
    ∃ pr', p'.processes[pid]? = some pr' ∧ pr'.mappings.nextId = id + 1 ∧
      pr'.mappings.live[id]?
        = some ⟨id, { file with serial := p.nextSerial }, addr, file.file.length⟩
  translate_eq : ∀ pid a, p'.translate pid a = p.translate pid a
  frames_eq : p'.frames = p.frames
  memory_eq : p'.memory = p.memory
  swap_eq : p'.swap = p.swap

/-- How a request to map a file ends. -/
structure MapsOrNot (p : Pager) (pid : Nat) (file : Handle) (addr : Nat)
    (result : Except MmapError Nat) (p' : Pager) : Prop where
  ok_iff : (∃ id, result = .ok id) ↔ ∀ e : MmapError, ¬ e.Obstructs p pid file addr
  /-- The error is the first condition that stands in the way. -/
  error_iff : ∀ e, result = .error e ↔ e.Obstructs p pid file addr ∧
    ∀ e' : MmapError, e'.rank < e.rank → ¬ e'.Obstructs p pid file addr
  /-- A request that is refused leaves the pager as it was. -/
  nothing : ∀ e, result = .error e → p' = p
  all : ∀ id, result = .ok id → p.MapsWhole pid file addr id p'

/-- Translations are those of the address spaces. -/
theorem translate_withProcess {pr' : Process} (h : p.processes[pid]? = some pr)
    (hspace : pr'.space = pr.space) (q a : Nat) :
    (p.withProcess pid pr').translate q a = p.translate q a := by
  rw [translate, translate, Pager.process, Pager.process, getElem?_withProcess]
  by_cases hq : pid = q
  · rw [if_pos hq, ← hq, h]
    exact congrArg (AddressSpace.getPage · a) hspace
  · rw [if_neg hq]

/-- What is written by a mapping that is made. -/
theorem MapsFile.mapsWhole (h : p.MapsFile pid file addr (.ok id) p') :
    p.MapsWhole pid file addr id p' := by
  generalize hr : (Except.ok id : Except MmapError Nat) = r at h
  cases h with
  | refused => cases hr
  | @mapped pr pages table m mapping process aligned fits declared inserted =>
    cases hr
    obtain ⟨hnew, hold⟩ := PageMap.getElem?_declareMapped declared
    have hsize := PageMap.size_declareMapped declared
    have hfirst : m.pages.first = m.base := pageFloor_of_pageOffset aligned
    rw [Mapping.count_pages aligned fits] at hnew hold hsize
    rw [hfirst] at hnew hold
    obtain ⟨hid, hlive, hnext⟩ := MappingTable.of_insert inserted
    obtain ⟨hfile, hbase, hlength⟩ : m.file = { file with serial := p.nextSerial } ∧
        m.base = addr ∧ m.length = file.file.length := by
      rw [mapping]
      exact ⟨rfl, rfl, rfl⟩
    rw [hbase, hlength] at hnew hold
    rw [hlength] at hsize
    have hentries : ∀ o : FrameOwner, Pager.declared
        { p.withProcess pid { pr with pages, mappings := table } with
          nextSerial := p.nextSerial + 1 } o
        = if pid = o.pid then pages.entries[o.page]? else p.declared o :=
      declared_withProcess p pid _
    constructor
    case mapped =>
      intro i hi
      obtain ⟨hfree, hdeclared⟩ := hnew i hi
      rw [hentries, if_pos rfl, declared_of_getElem? process, ← hfile]
      rw [Nat.zero_add] at hdeclared
      exact ⟨hfree, hdeclared⟩
    case others =>
      rintro ⟨q, page⟩ hother
      rw [hentries]
      split
      · rename_i hq
        obtain rfl : pid = q := hq
        rw [declared_of_getElem? process]
        exact hold page fun i hi heq => hother i hi (by rw [heq])
      · rfl
    case count =>
      intro n hn
      rw [declaredPages, Pager.process, process] at hn
      cases hn
      rw [declaredPages, Pager.process, getElem?_withProcess_self]
      show Except.ok pages.size = _
      rw [hsize]
    case recorded =>
      intro pr₁ hpr₁
      obtain rfl : pr = pr₁ := Option.some.inj (process.symm.trans hpr₁)
      refine ⟨hid, _, getElem?_withProcess_self _ _ _, by rw [hnext, hid], ?_⟩
      rw [← hfile, ← hbase, ← hlength, hlive, if_pos rfl]
    case translate_eq =>
      intro q a
      have hspace : { pr with pages, mappings := table }.space = pr.space := rfl
      exact translate_withProcess process hspace q a
    case frames_eq => rfl
    case memory_eq => rfl
    case swap_eq => rfl

end Pager

/-! ### The answer -/

namespace PagerM

open MmapError (Obstructs Clear)

variable {t : Traced} {pid addr : Nat} {file : Handle} {pr : Process}

/-- The answer that the conditions call for. -/
def Decides (p : Pager) (pid : Nat) (file : Handle) (addr : Nat) : Except MmapError Nat → Prop
  | .error e => e.Obstructs p pid file addr ∧ Clear p pid file addr e.rank
  | .ok _ => Clear p pid file addr 6

/-- A page of the range is declared exactly if the walk over the mapping meets it. -/
theorem obstructs_overlap_iff {p : Pager} (hpr : p.processes[pid]? = some pr) {m : Mapping}
    (hbase : m.base = addr) (hlength : m.length = file.file.length)
    (haligned : pageOffset m.base = 0) (hfits : m.base + m.length < 2 ^ 64) :
    MmapError.overlap.Obstructs p pid file addr ↔
      ∃ i < m.pages.count, (pr.pages.entries[m.pages.first + i * pageSize]?).isSome := by
  simp only [Obstructs, ← hbase, ← hlength, Pager.declared_of_getElem? hpr]
  constructor
  · rintro ⟨page, hpage, hle, hlt, hin⟩
    obtain ⟨i, hi, rfl⟩ := (Mapping.covers_iff haligned hfits).1 ⟨hpage, hle, hlt⟩
    exact ⟨i, hi, hin⟩
  · rintro ⟨i, hi, hin⟩
    obtain ⟨hpage, hle, hlt⟩ := (Mapping.covers_iff haligned hfits).2 ⟨i, hi, rfl⟩
    exact ⟨_, hpage, hle, hlt, hin⟩

/-- A process gets an answer, and the right one, unless nothing stands in the way of the mapping and
the numbers have run out. -/
theorem meets_mapFile_or_exhausted (hpr : t.pager.processes[pid]? = some pr) (file : Handle)
    (addr : Nat) :
    Meets (Pager.mapFile pid file addr) (fun r _ => Decides t.pager pid file addr r)
      (fun e _ => e = .arithmetic ∧ Clear t.pager pid file addr 6 ∧
        2 ^ 32 ≤ pr.mappings.nextId + 1) t := by
  rw [Pager.mapFile]
  simp only [meets_bind, meets_ite, meets_pure, meets_pager]
  have hclear : Clear t.pager pid file addr 0 := MmapError.clear_zero
  -- one condition after the other is in the way or is not
  refine ⟨fun hnull => ⟨hnull, hclear⟩, fun hnull => ?_⟩
  replace hclear := hclear.next (e := .nullAddress) hnull
  refine ⟨fun hoffset => ⟨hoffset, hclear⟩, fun hoffset => ?_⟩
  replace hclear := hclear.next (e := .unaligned) hoffset
  refine ⟨fun hempty => ⟨hempty, hclear⟩, fun hempty => ?_⟩
  replace hclear := hclear.next (e := .emptyFile) hempty
  refine ⟨fun huser => ?_, fun hkernel => ⟨mt isUserRange_iff.2 hkernel, hclear⟩⟩
  replace hclear := hclear.next (e := .kernelAddress) (not_not.2 (isUserRange_iff.1 huser))
  refine ⟨fun hreopens => ?_, fun hreopen => ⟨Bool.eq_false_iff.2 hreopen, hclear⟩⟩
  replace hclear := hclear.next (e := .reopen) (by rw [Obstructs, hreopens]; exact Bool.noConfusion)
  rw [meets_process_of_getElem? hpr]
  generalize hm : (⟨pr.mappings.nextId, { file with serial := t.pager.nextSerial }, addr,
    file.file.length⟩ : Mapping) = m
  have hbase : m.base = addr := by rw [← hm]
  have hlength : m.length = file.file.length := by rw [← hm]
  have haligned : pageOffset m.base = 0 := by rw [hbase]; exact not_not.1 hoffset
  have hfits : m.base + m.length < 2 ^ 64 := by
    rw [hbase, hlength]
    exact (isUserRange_iff.1 huser).1
  have hoverlap := obstructs_overlap_iff hpr hbase hlength haligned hfits
  obtain ⟨⟨found, pages⟩, hdecl⟩ : ∃ r, pr.pages.declareMapped pr.mappings.nextId
      { file with serial := t.pager.nextSerial } m.pages.first 0 m.pages.count = .ok r :=
    PageMap.exists_declareMapped m.pageOffset_first
  rw [meets_lift_of_ok hdecl]
  cases found with
  | some q =>
    simp only [meets_bind, meets_setProcess, meets_emit, meets_pure]
    exact ⟨hoverlap.2 (PageMap.overlap_of_declareMapped hdecl), hclear⟩
  | none =>
    replace hclear : Clear t.pager pid file addr 6 := hclear.next (e := .overlap) fun hin => by
      obtain ⟨i, hi, hin⟩ := hoverlap.1 hin
      rw [((PageMap.getElem?_declareMapped hdecl).1 i hi).1] at hin
      cases hin
    have hid : m.id = pr.mappings.nextId := by rw [← hm]
    by_cases hnext : pr.mappings.nextId + 1 < 2 ^ 32
    · obtain ⟨table, hinsert⟩ := MappingTable.exists_insert hid hnext
      simp only [meets_bind, meets_lift_of_ok hinsert, meets_setProcess, meets_update, meets_emit,
        meets_pure]
      exact hclear
    · have hinsert := MappingTable.insert_of_exhausted hid (Nat.le_of_not_lt hnext)
      rw [meets_bind, meets_lift_of_error hinsert]
      exact ⟨rfl, hclear, Nat.le_of_not_lt hnext⟩

/-- A process that has a number left for one more mapping gets an answer, and the right one. -/
theorem meets_mapFile (hpr : t.pager.processes[pid]? = some pr)
    (hid : pr.mappings.nextId < 2 ^ 32 - 1) :
    Meets (Pager.mapFile pid file addr) (fun r _ => Decides t.pager pid file addr r)
      (fun _ _ => False) t := by
  refine (meets_mapFile_or_exhausted hpr file addr).mono (fun _ _ h => h) ?_
  rintro _ _ ⟨-, -, hnext⟩
  omega

end PagerM

namespace Pager

open MmapError (Obstructs)
open PagerM (Decides)

variable {p p' : Pager} {t : Traced} {pid addr : Nat} {file : Handle} {pr : Process}
  {result : Except MmapError Nat}

/-- The right answer, and what goes with it, is all there is to say. -/
theorem MapsFile.mapsOrNot (hmaps : p.MapsFile pid file addr result p')
    (h : Decides p pid file addr result) : p.MapsOrNot pid file addr result p' := by
  cases result with
  | error e =>
    obtain ⟨he, hclear⟩ := h
    refine ⟨?_, ?_, ?_, nofun⟩
    · constructor
      · rintro ⟨_, ⟨⟩⟩
      · intro hnone
        exact absurd he (hnone e)
    · intro e'
      constructor
      · rintro ⟨⟩
        exact ⟨he, hclear⟩
      · rintro ⟨he', hclear'⟩
        -- of two conditions in the way the earlier one is reported
        rcases Nat.lt_trichotomy e.rank e'.rank with hlt | heq | hlt
        · exact absurd he (hclear' e hlt)
        · rw [MmapError.rank_inj heq]
        · exact absurd he' (hclear e' hlt)
    · intro _ _
      cases hmaps
      rfl
  | ok id =>
    have hnone := MmapError.Clear.not_obstructs h
    refine ⟨⟨fun _ => hnone, fun _ => ⟨id, rfl⟩⟩, ?_, nofun, ?_⟩
    · intro e
      constructor
      · nofun
      · rintro ⟨he, -⟩
        exact absurd he (hnone e)
    · rintro _ ⟨⟩
      exact hmaps.mapsWhole

/-- In every state, a request of a process that has a number left for one more mapping ends. It
answers the first condition that stands in the way and changes nothing, or there is none and all
of the file is mapped. -/
theorem mapFile_all_or_nothing (hpr : t.pager.processes[pid]? = some pr)
    (hid : pr.mappings.nextId < 2 ^ 32 - 1) (file : Handle) (addr : Nat) :
    ∃ result t', (mapFile pid file addr).run t = .ok result t' ∧
      t.pager.MapsOrNot pid file addr result t'.pager := by
  obtain ⟨result, t', hrun, hdecides, hmaps⟩ := ((PagerM.meets_mapFile hpr hid).and_ensures
    (PagerM.ensures_mapFile_cases pid file addr t)).exists_run
  exact ⟨result, t', hrun, hmaps.mapsOrNot hdecides⟩

/-- A file of three pages is mapped so that its last page runs into a mapping that exists. -/
theorem mapFile_into_next : ∃ answers t pr t',
    (run [.register 1, .mapFile 1 ⟨5, 0, .ofBytes #[1, 2]⟩ 0x3000]).run
      (.start { userFrames := 1 } (.attach .swap "swap" (.ram (.blank 8)))) = .ok answers t ∧
    t.pager.processes[1]? = some pr ∧ pr.mappings.nextId < 2 ^ 32 - 1 ∧
    (mapFile 1 ⟨6, 0, .unreliable #[1] 8193 1 8193 true⟩ 0x1000).run t
      = .ok (.error .overlap) t' ∧ t'.pager = t.pager := by
  have hrun : ∃ answers t,
      (run [.register 1, .mapFile 1 ⟨5, 0, .ofBytes #[1, 2]⟩ 0x3000]).run
        (.start { userFrames := 1 } (.attach .swap "swap" (.ram (.blank 8)))) = .ok answers t ∧
      (t.pager.processes[1]?.any fun pr => pr.mappings.nextId < 2 ^ 32 - 1) ∧
      (t.pager.declared ⟨1, 0x3000⟩).isSome ∧ 0x1000 + 8193 ≤ t.pager.config.physBase := by
    decide +kernel
  obtain ⟨answers, t, h, hnext, hdeclared, huser⟩ := hrun
  obtain ⟨pr, hpr, hid⟩ := (Option.any_eq_true _ _).1 hnext
  have hid := of_decide_eq_true hid
  obtain ⟨result, t', hmap, hends⟩ := mapFile_all_or_nothing hpr hid
    ⟨6, 0, .unreliable #[1] 8193 1 8193 true⟩ 0x1000
  have herror : result = .error .overlap := by
    refine (hends.error_iff .overlap).2 ⟨⟨0x3000, by decide, by decide, by decide, hdeclared⟩, ?_⟩
    intro e he
    cases e with
    | kernelAddress => exact not_not.2 ⟨by decide, huser⟩
    | overlap => exact absurd he (by decide)
    | nullAddress | unaligned | emptyFile | reopen =>
      simp [Obstructs, pageOffset, pageSize, File.unreliable]
  subst herror
  exact ⟨answers, t, pr, t', h, hpr, hid, hmap, hends.nothing _ rfl⟩

end Pager

end DemandPaging
