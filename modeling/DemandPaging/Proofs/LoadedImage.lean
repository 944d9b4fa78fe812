import DemandPaging.Proofs.Coherence
import DemandPaging.Proofs.Loading
import DemandPaging.Proofs.Memory

/-!
# A loaded program sees its image

A page of an image that nobody wrote to holds what its source says, whether it was ever touched and
wherever it is. It keeps this as long as its process is neither written to nor torn down: removing
a mapping does not take it, since the page does not say that it belongs to one.

All of this is a matter of the one page and of the one file it reads. What other files hold, or
whether they hold anything for sure, makes no difference, and neither do page tables that refuse a
page now and then: the page stays where it was, and can be mapped later.

## Main definitions

* `ProgramHeader.Shows` — the byte at an address of a segment, by the bytes of the file.
* `Op.disturbs` — the requests that may change what the pages of a process hold.

## Main results

* `PagerM.memory_run` — what a page holds is the same after any run that does not disturb it.
* `PagerM.ensures_copyFromUser_byte` — a read of one byte answers what its page holds.
* `Pager.read_loaded_image` — a read from a loaded program answers the bytes of the image.
-/

namespace DemandPaging

/-! ### The bytes of a segment -/

/-- The byte at `addr` of a segment is `b`, if the file holds `data`: bytes of the file up to the
end of the segment in the file, also those that share the first page with it, and zeros behind. -/
structure ProgramHeader.Shows (h : ProgramHeader) (data : Bytes) (addr : Nat) (b : UInt8) :
    Prop where
  in_file : h.virtualAddress.toNat ≤ addr → addr < h.virtualAddress.toNat + h.fileSize.toNat →
    data[h.fileOffset.toNat + (addr - h.virtualAddress.toNat)]? = some b
  behind : h.virtualAddress.toNat + h.fileSize.toNat ≤ addr → b = 0
  ahead : addr < h.virtualAddress.toNat → 0 < h.fileSize.toNat →
    data[h.fileOffset.toNat - (h.virtualAddress.toNat - addr)]? = some b
  ahead_empty : addr < h.virtualAddress.toNat → h.fileSize.toNat = 0 → b = 0

namespace ProgramHeader

variable {h : ProgramHeader} {file : Handle} {data : Bytes} {addr fileLength physBase : Nat}

/-- The pages of a segment hold the bytes of the segment at first. -/
theorem Loadable.shows_initial (hload : h.Loadable fileLength physBase)
    (hinside : h.fileOffset.toNat + h.fileSize.toNat ≤ data.size)
    (hspans : h.Spans (pageFloor addr)) :
    h.Shows data addr (((h.source file (pageFloor addr)).initial fun _ => data).byteAt addr) := by
  have hlead := hload.offset_le
  have hfirst := pageFloor_add_pageOffset h.virtualAddress.toNat
  have haddr := pageFloor_add_pageOffset addr
  have hlow := hspans.2.1
  have hlt := pageOffset_lt addr
  have hbyte : ((h.source file (pageFloor addr)).initial fun _ => data).byteAt addr
      = if addr < pageFloor h.virtualAddress.toNat + h.read then
          data.getD (h.start + (addr - pageFloor h.virtualAddress.toNat)) 0 else 0 := by
    rw [source, PageSource.initial]
    show (Vector.ofFn _)[pageOffset addr] = _
    rw [Vector.getElem_ofFn]
    dsimp only
    by_cases hread : addr < pageFloor h.virtualAddress.toNat + h.read
    · rw [if_pos hread, if_pos (by omega), Nat.min_eq_left (by omega)]
      exact congrArg (data.getD · 0) (by omega)
    · rw [if_neg hread, if_neg (by omega)]
  -- a byte that is read lies in the file, so no default stands in for it
  have hfile : ∀ k < data.size, some (data.getD k 0) = data[k]? := by
    intro k hk
    rw [Array.getD_eq_getD_getElem?, Array.getElem?_eq_getElem hk, Option.getD_some]
  rw [hbyte]
  by_cases hempty : 0 < h.fileSize.toNat
  · have hread : h.read = pageOffset h.virtualAddress.toNat + h.fileSize.toNat := if_pos hempty
    refine ⟨fun _ hend => ?_, fun hbehind => if_neg (by omega), fun hahead _ => ?_,
      fun _ hzero => by omega⟩
    · rw [if_pos (by omega), hfile _ (by rw [start]; omega), start]
      exact congrArg (data[·]?) (by omega)
    · rw [if_pos (by omega), hfile _ (by rw [start]; omega), start]
      exact congrArg (data[·]?) (by omega)
  · have hread : h.read = 0 := if_neg hempty
    have hzero : ¬ addr < pageFloor h.virtualAddress.toNat + h.read := by omega
    rw [if_neg hzero]
    exact ⟨fun _ _ => by omega, fun _ => rfl, fun _ hpos => absurd hpos hempty, fun _ _ => rfl⟩

/-- The pages of a segment can be read if the segment ends in the file. -/
theorem Loadable.exists_populate (hload : h.Loadable fileLength physBase)
    (hinside : h.fileOffset.toNat + h.fileSize.toNat ≤ data.size) {view : Handle → File}
    (hview : (view file).Holds data) (page : Nat) (old : Page) :
    ∃ contents, (h.source file page).populate view old = .ok contents := by
  have hlead := hload.offset_le
  have hend : min (h.read - (page - pageFloor h.virtualAddress.toNat)) pageSize = 0 ∨
      h.start + min (page - pageFloor h.virtualAddress.toNat) h.read
        + min (h.read - (page - pageFloor h.virtualAddress.toNat)) pageSize ≤ data.size := by
    rw [start, read]
    split <;> omega
  have hsize := File.size_window_eq_iff.2 hend
  rw [source, PageSource.populate, hview.readFull]
  simp only [except_ok_bind, hsize, ne_eq, not_true_eq_false, if_false]
  exact ⟨_, rfl⟩

/-- The bytes of a segment's pages lie in user memory. -/
theorem Loadable.isUserRange {config : Config} (hload : h.Loadable fileLength config.physBase)
    (hbase : pageOffset config.physBase = 0) (hspans : h.Spans (pageFloor addr)) :
    config.isUserRange addr 1 = true := by
  have hbelow := hload.below_kernel
  have hhigh := hspans.2.2
  have haddr := h.virtualAddress.toNat_lt
  have hsize := h.memorySize.toNat_lt
  have hend : addr + 1 < 2 ^ 64 ∧ addr + 1 ≤ config.physBase := by
    simp only [pageFloor, pageOffset, pageSize] at *
    omega
  have hcheck : checkedEnd? addr 1 = some (addr + 1) := if_pos hend.1
  rw [Config.isUserRange, hcheck, Option.any_some]
  exact decide_eq_true hend.2

end ProgramHeader

/-! ### What one page holds -/

/-- A page is populated, if it is not, from a source that can be read. -/
theorem PageView.exists_load {view : Handle → File} {w : PageView}
    (h : ∃ contents, w.source.populate view Page.zero = .ok contents) :
    ∃ w', w.load view = .ok w' := by
  obtain ⟨contents, h⟩ := h
  rw [load]
  cases w.contents with
  | some _ => exact ⟨w, rfl⟩
  | none => exact ⟨_, by rw [h]; rfl⟩

namespace Outlook

variable {held : Nat → Bytes} {v v' : Outlook} {o o' : FrameOwner} {x : PageSource × Page}
  {w w' : PageView} {q : Nat}

theorem memory_congr (h : v'.pages o = v.pages o) : v'.memory held o = v.memory held o := by
  rw [memory, h, memory]

/-- Populating a page changes no page, as long as the file of the page in question holds what it
should. -/
theorem memory_load (hholds : ∀ h, x.1.handle? = some h → h.file.Holds (held h.id))
    (hw : v.pages o' = some w) (hload : w.load v.view = .ok w') (hx : v.memory held o = some x) :
    (v.setPage o' (some w')).memory held o = some x := by
  by_cases ho : o = o'
  · subst ho
    rw [memory_of_pages hw] at hx
    cases hx
    obtain ⟨hsource, hsame, -⟩ := PageView.memory_of_load hholds v.view_eq hload
    rw [memory_setPage, Function.update_self, hsource, hsame]
  · rw [memory_congr (pages_setPage_of_ne v ho _), hx]

/-- What is done to the pages of another process does not matter. -/
theorem Touches.memory_eq (h : Touches q v v') (hq : o.pid ≠ q) :
    v'.memory held o = v.memory held o := by
  obtain ⟨pages, rfl, hpages⟩ := h
  exact memory_congr (hpages o hq)

end Outlook

namespace Pager

variable {p p' : Pager} {config : Config} {slots : Nat} {held : Nat → Bytes}
  {file? : Option Handle} {o : FrameOwner} {x : PageSource × Page}

/-- A change that loses nothing leaves what a page holds, as long as the file of this page holds
what it should. Page tables that begin to refuse pages are such a change. -/
theorem Step.memory {change : Change} (h : Step change p p')
    (hchange : change.Grows file? ∨ change = .plan)
    (hholds : ∀ h, x.1.handle? = some h → h.file.Holds (held h.id)) (ho : Owned config slots p)
    (hroom : slots * sectorsPerPage ≤ 2 ^ 32) (hx : p.outlook.memory held o = some x) :
    p'.outlook.memory held o = some x := by
  cases h with
  | @declare _ pid page pr source writable process allowed user undeclared =>
    have hfloor := pageFloor_of_pageOffset (PageMap.pageOffset_of_checkDeclaration allowed)
    have hne : o ≠ ⟨pid, page⟩ := by
      rintro rfl
      rw [Outlook.memory, pages_of_getElem? process, undeclared] at hx
      cases hx
    rw [outlook_of_declare process, hfloor,
      Outlook.memory_congr (Outlook.pages_setPage_of_ne _ hne _), hx]
  | load missing loads =>
    rcases loads.outlook_or_refused ho hroom missing with ⟨-, hseen⟩ | ⟨w, hw, hloads⟩
    · rwa [hseen]
    · cases hload : w.load p.outlook.view with
      | error e =>
        rw [hload] at hloads
        rwa [hloads.2]
      | ok w' =>
        rw [hload] at hloads
        obtain ⟨f, -, -, hseen⟩ := hloads
        rw [hseen]
        exact Outlook.memory_load hholds hw hload hx
  | pin | unpin | medium => exact hx
  | register unregistered =>
    rw [outlook_of_register unregistered]
    exact hx
  | mappings mappings nextSerial process =>
    rw [outlook_of_mappings process]
    exact hx
  | plan refuses process => rwa [outlook_of_space process]
  | write | remove | discard =>
    rcases hchange with hgrows | hplan
    · exact hgrows.elim
    · cases hplan

theorem Steps.memory (h : Steps (fun change => change.Grows file? ∨ change = .plan) p p')
    (hholds : ∀ h, x.1.handle? = some h → h.file.Holds (held h.id)) (ho : Owned config slots p)
    (hroom : slots * sectorsPerPage ≤ 2 ^ 32) (hx : p.outlook.memory held o = some x) :
    p'.outlook.memory held o = some x :=
  h.keeps_owned (P := fun q => q.outlook.memory held o = some x) ho
    (fun hchange hstep ho => hstep.memory hchange hholds ho hroom) hx

/-- Declaring pages changes neither the tunables nor which processes there are. -/
theorem Steps.registered_of_declares (h : Steps (Change.Declares file?) p p') :
    p'.config = p.config ∧ ∀ pid : Nat, p'.processes[pid]?.isSome = p.processes[pid]?.isSome := by
  refine h.keeps (P := fun q => q.config = p.config ∧
    ∀ pid : Nat, q.processes[pid]?.isSome = p.processes[pid]?.isSome) ?_ ⟨rfl, fun _ => rfl⟩
  intro change q q' hchange hstep hq
  cases hstep with
  | declare writable process =>
    exact ⟨hq.1, fun pid => (isSome_withProcess process _ pid).trans (hq.2 pid)⟩
  | mappings mappings nextSerial process =>
    exact ⟨hq.1, fun pid => (isSome_withProcess process _ pid).trans (hq.2 pid)⟩
  | _ => exact hchange.elim

end Pager

/-! ### Runs -/

/-- Whether a request tears process `pid` down or stores bytes in its memory. -/
def Op.disturbs (op : Op) (pid : Nat) : Bool :=
  match op with
  | .destroy q | .copyToUser q _ _ _ => q == pid
  | _ => false

namespace PagerM

open Pager (Change InOrder Owned Steps)

variable {config : Config} {slots : Nat} {held : Nat → Bytes} {o : FrameOwner}
  {x : PageSource × Page} {t : Traced} {q : Nat}

theorem ensures_writePieces_touches (q start : Nat) (data : Bytes) (esp done : Nat) (t : Traced)
    (ho : Owned config slots t.pager) (hroom : slots * sectorsPerPage ≤ 2 ^ 32) :
    Ensures (writePieces q start data esp done)
      (fun _ t' => t.pager.outlook.Touches q t'.pager.outlook) t := by
  by_cases h : done < data.size
  · rw [writePieces_of_lt h]
    simp only [ensures_bind]
    refine (ensures_writePiece q _ data esp t).mono ?_
    intro r t₁ hpiece
    have htouches := hpiece.touches ho hroom
    cases r with
    | error e => exact ensures_pure.2 htouches
    | ok _ =>
      have := Piece.next_size_pos start h
      exact (ensures_writePieces_touches q start data esp _ t₁ (hpiece.attempts.steps.owned ho)
        hroom).mono fun _ _ => htouches.trans
  · rw [writePieces_of_le (Nat.le_of_not_lt h)]
    exact ensures_pure.2 (.refl _)
  termination_by data.size - done

theorem ensures_copyToUser_touches (q start : Nat) (data : Bytes) (esp : Nat)
    (ho : Owned config slots t.pager) (hroom : slots * sectorsPerPage ≤ 2 ^ 32) :
    Ensures (Pager.copyToUser q start data esp)
      (fun _ t' => t.pager.outlook.Touches q t'.pager.outlook) t := by
  rw [Pager.copyToUser]
  simp only [ensures_bind, ensures_pager, ensures_ite, ensures_pure]
  exact ⟨fun _ => ensures_writePieces_touches q start data esp 0 t ho hroom, fun _ => .refl _⟩

/-- Removing a mapping leaves a page that does not say it belongs to one. -/
theorem ensures_unmapFile_pages (q id : Nat) (hcoherent : t.pager.All Process.Coherent)
    (hsource : x.1.mapped? = none) (hx : t.pager.outlook.memory held o = some x) :
    Ensures (Pager.unmapFile q id)
      (fun _ t' => t'.pager.outlook.pages o = t.pager.outlook.pages o) t := by
  refine ((ensures_unmapFile_outlook q id t).and (ensures_unmapFile_cases q id t)).mono ?_
  rintro _ t' ⟨hseen, pr, m, -, -, hpr, hm, -⟩
  rw [Outlook.unmapFile, Pager.mappings_of_getElem? hpr, Option.bind_some, hm, Option.map_some,
    Option.some.injEq, Prod.mk.injEq] at hseen
  rw [← hseen.2]
  refine if_neg ?_
  rintro ⟨rfl, hrun⟩
  have hcovers := (hcoherent o.pid pr hpr).covers_iff hm |>.2 hrun
  have hmapped := (hcoherent o.pid pr hpr).mapped_of_covers hm hcovers
  obtain ⟨e, he, hsame⟩ := PageMap.mapped?_eq_some.1 hmapped
  rw [Outlook.memory, Pager.pages_of_getElem? hpr, he] at hx
  cases hx
  rw [Pager.pageView, hsame] at hsource
  cases hsource

/-- A request that does not disturb a process leaves what its pages hold, as long as the page in
question belongs to no mapping. -/
theorem memory_perform {op : Op} (hdisturbs : op.disturbs o.pid = false)
    (hsource : x.1.mapped? = none)
    (hholds : ∀ h, x.1.handle? = some h → h.file.Holds (held h.id))
    (hroom : slots * sectorsPerPage ≤ 2 ^ 32) (ht : InOrder config slots t.pager)
    (hx : t.pager.outlook.memory held o = some x) :
    Ensures (Pager.perform op) (fun _ t' => t'.pager.outlook.memory held o = some x) t := by
  have hadds : (∀ change, op.changes change → change.Grows op.handle? ∨ change = .plan) →
      Ensures (Pager.perform op) (fun _ t' => t'.pager.outlook.memory held o = some x) t := by
    intro hchanges
    refine (ensures_perform op t).mono fun _ t' hperforms => ?_
    exact (hperforms.steps.mono hchanges).memory hholds ht.owned hroom hx
  cases op with
  | refuse | refuseBy => exact hadds fun _ => .inr
  | destroy q =>
    have hq : o.pid ≠ q := fun heq => by simp [Op.disturbs, heq] at hdisturbs
    simp only [Pager.perform, ensures_bind, ensures_pure]
    refine (ensures_destroy_outlook q t).mono ?_
    intro _ t' hseen
    rw [hseen, ← hx]
    exact Outlook.memory_congr (if_neg hq)
  | copyToUser q start data esp =>
    have hq : o.pid ≠ q := fun heq => by simp [Op.disturbs, heq] at hdisturbs
    simp only [Pager.perform, ensures_bind, ensures_pure]
    exact (ensures_copyToUser_touches q start data esp ht.owned hroom).mono fun _ _ htouches =>
      (htouches.memory_eq hq).trans hx
  | unmapFile q id =>
    simp only [Pager.perform, ensures_bind, ensures_pure]
    exact (ensures_unmapFile_pages q id ht.coherent hsource hx).mono fun _ _ hsame =>
      (Outlook.memory_congr hsame).trans hx
  | _ => exact hadds fun _ => .inl

/-- What a page of no mapping holds is the same after any run that does not disturb its process,
whatever is paged in and out meanwhile. -/
theorem memory_run {ops : List Op} (hdisturbs : ∀ op ∈ ops, op.disturbs o.pid = false)
    (hsource : x.1.mapped? = none)
    (hholds : ∀ h, x.1.handle? = some h → h.file.Holds (held h.id))
    (hroom : slots * sectorsPerPage ≤ 2 ^ 32) (ht : InOrder config slots t.pager)
    (hx : t.pager.outlook.memory held o = some x) :
    Ensures (Pager.run ops) (fun _ t' => t'.pager.outlook.memory held o = some x) t := by
  have hkeeps : Keeps (fun t => InOrder config slots t.pager ∧
      t.pager.outlook.memory held o = some x) (Pager.run ops) := by
    refine keeps_run fun op hop t₁ ht₁ => ?_
    obtain ⟨horder, hx⟩ := ht₁
    exact (inOrder_perform op horder).and
      (memory_perform (hdisturbs op hop) hsource hholds hroom horder hx)
  exact (hkeeps t ⟨ht, hx⟩).mono fun _ _ h => h.2

/-- A run in which no page table is told what to refuse takes steps that do not tell one. -/
theorem steps_run {ops : List Op} (hops : ∀ op ∈ ops, op.plans = false) (t : Traced) :
    Ensures (Pager.run ops) (fun _ t' => Steps (· ≠ .plan) t.pager t'.pager) t := by
  refine (ensures_run ops t).mono fun _ _ hsteps => hsteps.mono ?_
  rintro change ⟨op, hop, hchange⟩
  exact Op.ne_plan (hops op hop) hchange

/-! ### Reading one byte -/

/-- A read of one byte of a page whose source can be read answers what the page holds, unless the
page tables refuse the page. -/
theorem ensures_copyFromUser_byte {pid addr esp : Nat} (ho : Owned config slots t.pager)
    (hroom : slots * sectorsPerPage ≤ 2 ^ 32)
    (hrange : t.pager.config.isUserRange addr 1 = true)
    (hholds : ∀ h, x.1.handle? = some h → h.file.Holds (held h.id))
    (hreads : ∃ contents, x.1.populate t.pager.outlook.view Page.zero = .ok contents)
    (hx : t.pager.outlook.memory held ⟨pid, pageFloor addr⟩ = some x) :
    Ensures (Pager.copyFromUser pid addr 1 esp)
      (fun r _ => r = .error .mapFailed ∨ r = .ok #[x.2.byteAt addr]) t := by
  obtain ⟨w, hw, rfl⟩ := Option.map_eq_some_iff.1 hx
  obtain ⟨w', hload⟩ := PageView.exists_load hreads
  obtain ⟨-, hkept, hpage⟩ := PageView.memory_of_load hholds t.pager.outlook.view_eq hload
  rw [hkept] at hpage
  have haddr : addr < t.pager.config.physBase := by
    have := (lt_of_isUserRange hrange).2
    omega
  have huser : t.pager.outlook.layout.isUser addr = true := by
    show decide (addr < t.pager.config.physBase) = true
    exact decide_eq_true haddr
  have hfind : t.pager.outlook.find pid addr esp = (some w, t.pager.outlook) := by
    rw [Outlook.find, hw]
  have hsize : (Piece.next addr 1 0).size = 1 := by
    have := pageOffset_lt addr
    simp only [Piece.next, Nat.add_zero]
    omega
  have hslice : ∀ page : Page, slice page (pageOffset addr) 1 = #[page.byteAt addr] := by
    intro page
    have hend : pageOffset addr + 1 ≤ pageSize := pageOffset_lt addr
    refine Array.ext (size_slice page hend) fun i hi _ => ?_
    have hi : i = 0 := by
      rw [size_slice page hend] at hi
      omega
    subst hi
    exact Option.some.inj ((Array.getElem?_eq_getElem _).symm.trans
      (getElem?_slice page Nat.one_pos hend))
  rw [Pager.copyFromUser]
  simp only [ensures_bind, ensures_pager, ensures_ite, ensures_pure, ensures_lift, hrange,
    not_true_eq_false, false_implies, and_true]
  intro _ _ _
  rw [readPieces_of_lt Nat.one_pos]
  simp only [ensures_bind]
  refine (ensures_readPiece pid _ esp t).mono ?_
  intro r t₁ hpiece
  rcases hpiece.outlook_or_refused ho hroom with rfl | hseen
  · exact ensures_pure.2 (.inl rfl)
  · rw [Outlook.readPiece, Piece.addr_next, Nat.add_zero,
      Outlook.faultIn_of_allowed huser hfind rfl, hload] at hseen
    simp only [hpage, Option.getD_some, hsize, hslice] at hseen
    obtain ⟨rfl, -⟩ := Prod.mk.inj hseen
    simp only [hsize, Nat.zero_add]
    rw [readPieces_of_le (Nat.le_refl 1), ensures_pure, Array.empty_append]
    exact .inr rfl

/-- After steps that tell no page table what to refuse, no page of a read is refused. -/
theorem ensures_copyFromUser_mapped {device : Block} (pid start length esp : Nat)
    (h : Steps (· ≠ .plan) (.ofConfig config device) t.pager) :
    Ensures (Pager.copyFromUser pid start length esp) (fun r _ => r ≠ .error .mapFailed) t := by
  have hstart := Pager.owned_ofConfig config device
  have hmirrored := h.mirrored (fun _ h => h) hstart (Pager.mirrored_ofConfig config device)
  refine (ensures_copyFromUser pid start length esp t).mono fun r t' hattempts hr => ?_
  exact hmirrored.not_refuses (fun _ h => h.ne_plan) (h.owned hstart) (hattempts.refuses hr)

/-! ### Loaded programs -/

/-- A load that goes through was asked for by a process whose memory ends on a page boundary, after
at least one page. -/
theorem ensures_loadElf_layout (pid : Nat) (file : Handle) (t : Traced) :
    Ensures (Pager.loadElf pid file) (fun r _ => ∀ program, r = .ok program →
      (∃ pr, t.pager.processes[pid]? = some pr) ∧ pageOffset t.pager.config.physBase = 0 ∧
        pageSize ≤ t.pager.config.physBase) t := by
  rw [Pager.loadElf]
  simp only [ensures_bind, ensures_pager]
  split
  · exact ensures_pure.2 fun _ h => by cases h
  · simp only [ensures_bind]
    refine (ensures_loadSegments pid file _ t).mono ?_
    intro r t₁ hsteps
    cases r with
    | error e => exact ensures_pure.2 fun _ h => by cases h
    | ok _ =>
      simp only [ensures_bind, ensures_pager, ensures_lift, checkedSub_eq_ok, Pager.tryDeclareZero,
        tryDeclare, ensures_ite, ensures_process, ensures_throw, ensures_setProcess, ensures_pure,
        implies_true, and_true]
      rintro _ ⟨hstack, rfl⟩ _ pr hpr ⟨added, pages⟩ hdecl
      have hpage := PageMap.pageOffset_of_checkDeclaration (PageMap.tryDeclare_eq_ok.1 hdecl).1
      obtain ⟨hconfig, hregistered⟩ := hsteps.registered_of_declares
      have hpid := hregistered pid
      rw [hpr, Option.isSome_some, eq_comm, Option.isSome_iff_exists] at hpid
      rw [hconfig] at hstack hpage
      rw [pageOffset_sub_pageSize hstack] at hpage
      exact ⟨fun _ _ _ => ⟨hpid, hpage, hstack⟩, fun _ _ h => by cases h⟩

end PagerM

/-- A file whose medium fails holds no image. -/
theorem ElfImage.ofFile_broken (f : File) (image : ElfImage) : ofFile f.broken ≠ .ok image := by
  intro h
  simp only [ofFile, readHeader, except_bind_eq_ok] at h
  obtain ⟨_, ⟨bytes, hbytes, -⟩, -⟩ := h
  rw [readExact] at hbytes
  cases hread : f.broken.readFull 0 ElfHeader.size with
  | error e =>
    rw [hread] at hbytes
    cases hbytes
  | ok found => cases (File.readFull_broken hread).1

namespace Pager

variable {config : Config} {device : Block} {before after : List Op} {earlier later : List Answer}
  {t₁ t₂ t t' : Traced} {pid addr page esp : Nat} {file : Handle} {data : Bytes}
  {program : Program} {image : ElfImage} {h : ProgramHeader} {r : Except FaultError Bytes}

/-- After a load the pages of a segment hold what their sources say. -/
theorem memory_of_loadElf (hload : (loadElf pid file).run t₁ = .ok (.ok program) t₂)
    (himage : ElfImage.ofFile file.file = .ok image) (hsegment : h ∈ image.loads)
    (hspans : h.Spans page) (held : Nat → Bytes) :
    pageOffset t₁.pager.config.physBase = 0 ∧
      h.Loadable file.file.length t₁.pager.config.physBase ∧
      t₂.pager.outlook.memory held ⟨pid, page⟩
        = some (h.source file page, (h.source file page).initial (held ·.id)) := by
  obtain ⟨⟨pr, hpr⟩, hbase, hstack⟩ :=
    PagerM.ensures_loadElf_layout pid file t₁ _ t₂ hload program rfl
  obtain ⟨hr, ht₂⟩ := (PagerM.meets_loadElf hpr hbase hstack).ensures _ t₂ hload
  cases hresult : PageMap.loadFile (t₁.pager.view file) file t₁.pager.config pr.pages with
  | mk result pages =>
    rw [hresult] at hr ht₂
    subst hr
    obtain ⟨found, hfound, hdeclared, -⟩ := PageMap.loadFile_eq_ok.1 hresult
    obtain rfl : found = image := by
      rw [view] at hfound
      split at hfound
      · exact absurd hfound (ElfImage.ofFile_broken _ _)
      · exact Except.ok.inj (hfound.symm.trans himage)
    have hinto := PageMap.loadedInto_of_loadImage hbase hstack hdeclared
    obtain ⟨hmem, hkind⟩ := List.mem_filter.1 hsegment
    have haccepted := (PageMap.loadImage_eq_ok.1 hdeclared).1 h hmem
    refine ⟨hbase, haccepted.loadable (of_decide_eq_true hkind), ?_⟩
    rw [Outlook.memory, pages_of_getElem? (getElem?_of_eq_withProcess ht₂),
      hinto.segment h hsegment page hspans]
    rfl

/-- A loaded program sees its image. After a load that went through, and whatever happened before
it and since, as long as the process was neither written to nor torn down, a read of one byte in the
pages of a segment that ends in the file answers the byte that the file has there, or the zero
behind it. Only a medium that fails, and page tables that were told to refuse pages and refuse this
one, can keep it from that. -/
theorem read_loaded_image (hdevice : device.size ≤ 2 ^ 32)
    (hbefore : (run before).run (.start config device) = .ok earlier t₁)
    (hload : (loadElf pid file).run t₁ = .ok (.ok program) t₂)
    (hafter : (run after).run t₂ = .ok later t)
    (hdisturbs : ∀ op ∈ after, op.disturbs pid = false)
    (hholds : file.file.Holds data) (himage : ElfImage.ofFile file.file = .ok image)
    (hsegment : h ∈ image.loads) (hinside : h.fileOffset.toNat + h.fileSize.toNat ≤ data.size)
    (hspans : h.Spans (pageFloor addr)) (hreads : t.pager.failing file.id = false)
    (hread : (copyFromUser pid addr 1 esp).run t = .ok r t')
    (htables : (∀ op ∈ before ++ after, op.plans = false) ∨ r ≠ .error .mapFailed) :
    ∃ b, r = .ok #[b] ∧ h.Shows data addr b := by
  have hperform : (perform (.loadElf pid file)).run t₁ = .ok (.loaded (.ok program)) t₂ :=
    PagerM.run_bind_eq_ok.2 ⟨_, t₂, hload, rfl⟩
  have horder₁ := inOrder_of_run hbefore
  have horder₂ := PagerM.inOrder_perform _ horder₁ _ t₂ hperform
  have horder := PagerM.inOrder_run after horder₂ later t hafter
  have hroom := (sound_ofConfig config hdevice).room
  obtain ⟨hbase, hloadable, hx₂⟩ := memory_of_loadElf hload himage hsegment hspans fun _ => data
  have hsource : ∀ h', (h.source file (pageFloor addr)).handle? = some h' →
      h'.file.Holds data := by
    rintro h' ⟨⟩
    exact hholds
  have hx := PagerM.memory_run (o := ⟨pid, pageFloor addr⟩) hdisturbs rfl hsource hroom horder₂ hx₂
    later t hafter
  have hrange : t.pager.config.isUserRange addr 1 = true := by
    rw [horder.owned.config_eq, ← horder₁.owned.config_eq]
    exact hloadable.isUserRange hbase hspans
  have hmapped : r ≠ .error .mapFailed := by
    rcases htables with hplans | hmapped
    · have hearlier := PagerM.steps_run (fun op hop => hplans op (List.mem_append_left after hop))
        _ earlier t₁ hbefore
      have hloads := (PagerM.ensures_perform (.loadElf pid file) t₁ _ t₂ hperform).steps
      have hlater := PagerM.steps_run (fun op hop => hplans op (List.mem_append_right before hop))
        t₂ later t hafter
      exact PagerM.ensures_copyFromUser_mapped pid addr 1 esp
        (hearlier.trans ((hloads.mono fun _ h => h.ne_plan).trans hlater)) r t' hread
    · exact hmapped
  have hanswer := (PagerM.ensures_copyFromUser_byte horder.owned hroom hrange hsource
    (hloadable.exists_populate hinside (holds_view hholds hreads) _ _) hx r t' hread).resolve_left
      hmapped
  have hshows : h.Shows data addr
      (((h.source file (pageFloor addr)).initial fun _ => data).byteAt addr) :=
    hloadable.shows_initial hinside hspans
  exact ⟨_, hanswer, hshows⟩

/-- A program is loaded, and for a while none of its pages can be mapped. Then it reads the end of
its headers, which share a page with its segment, and the second byte of the segment. -/
theorem read_loaded_image_small : ∃ answers later t₁ t₂ t t' program image r,
    (run [.register 1]).run (.start { userFrames := 1, physBase := 0x3000 }
      (.attach .swap "swap" (.ram (.blank 64)))) = .ok answers t₁ ∧
    (loadElf 1 ⟨7, 0, .ofBytes smallExecutable⟩).run t₁ = .ok (.ok program) t₂ ∧
    (run [.refuse 1 true, .copyFromUser 1 0x1055 1 0, .refuse 1 false, .copyFromUser 1 0x104c 8 0,
      .failReads 5 true]).run t₂ = .ok later t ∧
    ElfImage.ofFile (.ofBytes smallExecutable) = .ok image ∧
    image.loads = [⟨.load, 84, 0x1054, 4, 8, true, true, true, 4096⟩] ∧
    (copyFromUser 1 0x1055 1 0).run t = .ok r t' ∧
    ∃ b, r = .ok #[b] ∧ ProgramHeader.Shows
      ⟨.load, 84, 0x1054, 4, 8, true, true, true, 4096⟩ smallExecutable 0x1055 b := by
  have hruns : ∃ answers t₁, (run [.register 1]).run (.start
      { userFrames := 1, physBase := 0x3000 } (.attach .swap "swap" (.ram (.blank 64))))
        = .ok answers t₁ ∧
      ∃ loaded t₂, (loadElf 1 ⟨7, 0, .ofBytes smallExecutable⟩).run t₁ = .ok loaded t₂ ∧
        loaded.isOk = true ∧
      ∃ later t, (run [.refuse 1 true, .copyFromUser 1 0x1055 1 0, .refuse 1 false,
        .copyFromUser 1 0x104c 8 0, .failReads 5 true]).run t₂ = .ok later t ∧
        t.pager.failing 7 = false ∧
      ∃ r t', (copyFromUser 1 0x1055 1 0).run t = .ok r t' ∧ r.isOk = true := by
    decide +kernel
  have himage : (ElfImage.ofFile (.ofBytes smallExecutable)).toOption.map ElfImage.loads
      = some [⟨.load, 84, 0x1054, 4, 8, true, true, true, 4096⟩] := by
    decide +kernel
  obtain ⟨answers, t₁, hbefore, loaded, t₂, hload, hok, later, t, hafter, hreads, r, t', hread,
    hanswered⟩ := hruns
  obtain ⟨image, hfound, hloads⟩ := Option.map_eq_some_iff.1 himage
  have himage : ElfImage.ofFile (.ofBytes smallExecutable) = .ok image := by
    cases h : ElfImage.ofFile (.ofBytes smallExecutable) with
    | error e =>
      rw [h] at hfound
      cases hfound
    | ok found =>
      rw [h] at hfound
      cases hfound
      rfl
  cases loaded with
  | error e => cases hok
  | ok program =>
    refine ⟨answers, later, t₁, t₂, t, t', program, image, r, hbefore, hload, hafter, himage,
      hloads, hread, ?_⟩
    have hsegment := List.mem_singleton_self
      (ProgramHeader.mk .load 84 0x1054 4 8 true true true 4096)
    rw [← hloads] at hsegment
    have hmapped : r ≠ .error .mapFailed := by
      rintro rfl
      cases hanswered
    exact read_loaded_image (by decide) hbefore hload hafter (by decide)
      (File.holds_ofBytes smallExecutable) himage hsegment (by decide)
      ⟨by decide, by decide, by decide⟩ hreads hread (.inr hmapped)

end Pager

end DemandPaging
