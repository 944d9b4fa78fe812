import DemandPaging.Proofs.Contents
import DemandPaging.Proofs.Translation

/-!
# The pager without paging

Where a page is, in which frame or slot, is the pager's own business. What a process can find out
about a page is its source, whether it may be written, and what it holds; a page that was never
touched holds nothing yet, since the first touch may still fail. `Pager.outlook` is all that is
left of a pager when the places are forgotten.

Moving a page between frames and slots leaves the outlook as it is. Everything else that a fault
does can be said of the outlook alone, and `Outlook.faultIn` says it. It is a function, so two
pagers with the same outlook answer the same.

## Main definitions

* `PageView`, `Outlook`, `Pager.outlook` — a page and a pager without the places.
* `Pager.Sound` — the invariants that tie the places to the outlook.
* `Outlook.find`, `Outlook.faultIn` — a fault, seen from outside.
* `Outlook.Touches` — a change to the pages of one process.

## Main results

* `Pager.Acquires.outlook_eq` — making room for a page is not seen.
* `Pager.Loads.outlook`, `Pager.FaultsIn.outlook` — what is seen of a load and of a fault.
* `Pager.Loads.outlook_or_refused`, `Pager.FaultsIn.outlook_or_refused` — and where the page tables
  refuse a page.
* `Pager.FaultsIn.touches`, `Pager.WritesPiece.touches` — other processes see nothing of it.
-/

namespace DemandPaging

/-- What can be seen of a declared page without asking where it is. -/
structure PageView where
  source : PageSource
  writable : Bool
  /-- What the page holds, once it has been populated. -/
  contents : Option Page

/-- The page after it was made resident, if that goes well: a page that was never touched is filled
from its source, and any other page stays as it is. -/
def PageView.load (v : PageView) (view : Handle → File) : Except FileError PageView :=
  match v.contents with
  | some _ => .ok v
  | none => do return { v with contents := some (← v.source.populate view Page.zero) }

/-- A page that was loaded holds something. -/
theorem PageView.contents_of_load {w w' : PageView} {view : Handle → File}
    (h : w.load view = .ok w') : ∃ page, w'.contents = some page := by
  rw [load] at h
  cases hcontents : w.contents with
  | some page =>
    rw [hcontents] at h
    cases h
    exact ⟨page, hcontents⟩
  | none =>
    simp only [hcontents, except_bind_eq_ok, except_pure_eq_ok] at h
    obtain ⟨page, -, rfl⟩ := h
    exact ⟨page, rfl⟩

/-- The tunables without the sizes of the frame pool and of the swap area. -/
def Config.layout (c : Config) : Config := { c with userFrames := 0, swapSlots := 0 }

/-- What is left of a pager when the places of pages are forgotten. -/
@[ext] structure Outlook where
  layout : Config
  pages : FrameOwner → Option PageView
  mappings : Nat → Option MappingTable
  failing : Nat → Bool
  nextSerial : Nat

namespace Outlook

/-- What a read through a handle sees at the moment. -/
def view (v : Outlook) (h : Handle) : File := if v.failing h.id then h.file.broken else h.file

/-- The outlook with another view of one page. -/
def setPage (v : Outlook) (o : FrameOwner) (page : Option PageView) : Outlook :=
  { v with pages := Function.update v.pages o page }

/-- The outlook with another table of mappings of one process, or without the process. -/
def setMappings (v : Outlook) (pid : Nat) (table : Option MappingTable) : Outlook :=
  { v with mappings := Function.update v.mappings pid table }

/-- Declares a page unless it is declared already, and says whether it did. -/
def declare (v : Outlook) (o : FrameOwner) (source : PageSource) (writable : Bool) :
    Bool × Outlook :=
  match v.pages o with
  | some _ => (false, v)
  | none => (true, v.setPage o (some ⟨source, writable, none⟩))

/-- The page that covers `addr`, where a stack page may be declared for it. -/
def find (v : Outlook) (pid addr esp : Nat) : Option PageView × Outlook :=
  match v.pages ⟨pid, pageFloor addr⟩ with
  | some page => (some page, v)
  | none =>
    match v.layout.isStackAccess addr esp with
    | .ok true =>
      (some ⟨.zero, true, none⟩, v.setPage ⟨pid, pageFloor addr⟩ (some ⟨.zero, true, none⟩))
    | _ => (none, v)

/-- Makes the page that covers `addr` resident. -/
def faultIn (v : Outlook) (pid addr esp : Nat) (forWrite : Bool) :
    Except FaultError PageView × Outlook :=
  if v.layout.isUser addr then
    match v.find pid addr esp with
    | (none, v) => (.error .badAddress, v)
    | (some page, v) =>
      if forWrite && !page.writable then (.error .readOnly, v)
      else match page.load v.view with
        | .error e => (.error (.io e), v)
        | .ok page => (.ok page, v.setPage ⟨pid, pageFloor addr⟩ (some page))
  else (.error .kernelAddress, v)

/-- Copies a piece out of user memory. -/
def readPiece (v : Outlook) (pid : Nat) (piece : Piece) (esp : Nat) :
    Except FaultError Bytes × Outlook :=
  match v.faultIn pid piece.addr esp false with
  | (.error e, v) => (.error e, v)
  | (.ok page, v) =>
    (.ok (slice (page.contents.getD Page.zero) (pageOffset piece.addr) piece.size), v)

/-- Copies a piece of `data` into user memory. -/
def writePiece (v : Outlook) (pid : Nat) (piece : Piece) (data : Bytes) (esp : Nat) :
    Except FaultError Unit × Outlook :=
  match v.faultIn pid piece.addr esp true with
  | (.error e, v) => (.error e, v)
  | (.ok page, v) =>
    (.ok (), v.setPage ⟨pid, pageFloor piece.addr⟩ (some { page with
      contents := some (overlay (page.contents.getD Page.zero) (pageOffset piece.addr)
        (data.extract piece.start (piece.start + piece.size))) }))

@[simp] theorem pages_setPage_self (v : Outlook) (o : FrameOwner) (page : Option PageView) :
    (v.setPage o page).pages o = page := Function.update_self _ _ _

theorem pages_setPage_of_ne (v : Outlook) {o o' : FrameOwner} (h : o' ≠ o)
    (page : Option PageView) : (v.setPage o page).pages o' = v.pages o' :=
  Function.update_of_ne h _ _

@[simp] theorem setPage_self (v : Outlook) {o : FrameOwner} {page : Option PageView}
    (h : v.pages o = page) : v.setPage o page = v := by
  rw [setPage, ← h, Function.update_eq_self]

/-- A fault on a page that is found, where the access is allowed, is the load of the page. -/
theorem faultIn_of_allowed {v v₁ : Outlook} {pid addr esp : Nat} {forWrite : Bool}
    {page : PageView} (huser : v.layout.isUser addr = true)
    (hfind : v.find pid addr esp = (some page, v₁))
    (hallowed : (forWrite && !page.writable) = false) :
    v.faultIn pid addr esp forWrite = match page.load v₁.view with
      | .error e => (.error (.io e), v₁)
      | .ok page => (.ok page, v₁.setPage ⟨pid, pageFloor addr⟩ (some page)) := by
  rw [faultIn, if_pos huser, hfind]
  exact if_neg (Bool.eq_false_iff.1 hallowed)

/-- A fault that goes well finds its page and loads it. -/
theorem faultIn_eq_ok {v v₁ : Outlook} {pid addr esp : Nat} {forWrite : Bool} {page : PageView}
    (h : v.faultIn pid addr esp forWrite = (.ok page, v₁)) :
    ∃ found v₀, v.find pid addr esp = (some found, v₀) ∧ found.load v₀.view = .ok page ∧
      v₁ = v₀.setPage ⟨pid, pageFloor addr⟩ (some page) := by
  rw [faultIn] at h
  split at h
  · cases hfind : v.find pid addr esp with
    | mk found v₀ =>
      rw [hfind] at h
      cases found with
      | none => cases h
      | some found =>
        simp only at h
        split at h
        · cases h
        · cases hload : found.load v₀.view with
          | error e =>
            rw [hload] at h
            cases h
          | ok loaded =>
            rw [hload] at h
            cases h
            exact ⟨found, v₀, rfl, hload, rfl⟩
  · cases h

/-! ### Other processes are not touched -/

section Touches

variable {v v₁ v' : Outlook} {pid : Nat}

/-- Only pages of process `pid` change. -/
def Touches (pid : Nat) (v v' : Outlook) : Prop :=
  ∃ pages, v' = { v with pages } ∧ ∀ o : FrameOwner, o.pid ≠ pid → pages o = v.pages o

namespace Touches

theorem refl (v : Outlook) : v.Touches pid v := ⟨v.pages, rfl, fun _ _ => rfl⟩

theorem trans (h : Touches pid v v₁) (h' : Touches pid v₁ v') : Touches pid v v' := by
  obtain ⟨pages, rfl, hpages⟩ := h
  obtain ⟨pages', rfl, hpages'⟩ := h'
  exact ⟨pages', rfl, fun o ho => (hpages' o ho).trans (hpages o ho)⟩

theorem setPage (v : Outlook) (pid page : Nat) (view : Option PageView) :
    Touches pid v (v.setPage ⟨pid, page⟩ view) := by
  refine ⟨_, rfl, fun o ho => Function.update_of_ne ?_ _ _⟩
  rintro rfl
  exact ho rfl

end Touches

theorem declare_touches (v : Outlook) (pid page : Nat) (source : PageSource) (writable : Bool) :
    Touches pid v (v.declare ⟨pid, page⟩ source writable).2 := by
  rw [declare]
  split
  · exact .refl v
  · exact .setPage v pid page _

theorem find_touches (v : Outlook) (pid addr esp : Nat) :
    Touches pid v (v.find pid addr esp).2 := by
  rw [find]
  split
  · exact .refl v
  · split
    · exact .setPage v pid _ _
    · exact .refl v

theorem faultIn_touches (v : Outlook) (pid addr esp : Nat) (forWrite : Bool) :
    Touches pid v (v.faultIn pid addr esp forWrite).2 := by
  have hfind := find_touches v pid addr esp
  rw [faultIn]
  split
  · cases hfound : v.find pid addr esp with
    | mk found v₁ =>
      rw [hfound] at hfind
      cases found with
      | none => exact hfind
      | some page =>
        simp only
        split
        · exact hfind
        · cases page.load v₁.view with
          | error e => exact hfind
          | ok page => exact hfind.trans (.setPage v₁ pid _ _)
  · exact .refl v

end Touches

end Outlook

namespace Pager

variable {p p₁ p' : Pager} {config : Config} {slots pid page f addr esp : Nat} {e : PageEntry}
  {o : FrameOwner}

/-- What a declared page holds, once it has been populated. -/
def held (p : Pager) (e : PageEntry) : Option Page :=
  match e.residency with
  | .notPopulated => none
  | .resident frame => some (p.memory.frames.getD frame Page.zero)
  | .swapped slot => some (p.swap.contents slot)

/-- A page without its place. -/
def pageView (p : Pager) (e : PageEntry) : PageView := ⟨e.source, e.writable, p.held e⟩

/-- What can be seen of a page. -/
def visible (p : Pager) (o : FrameOwner) : Option PageView := (p.declared o).map p.pageView

/-- The pager without the places of its pages. -/
def outlook (p : Pager) : Outlook where
  layout := p.config.layout
  pages := p.visible
  mappings pid := p.processes[pid]?.map Process.mappings
  failing := p.failing
  nextSerial := p.nextSerial

/-- The invariants that tie the places of pages to what is seen of them. -/
structure Sound (p : Pager) : Prop where
  owned : Owned p.config p.swap.slots p
  mirrored : p.Mirrored
  /-- The sectors of the swap area can be numbered in 32 bits. -/
  room : p.swap.slots * sectorsPerPage ≤ 2 ^ 32

theorem Step.sound {change : Change} (h : Step change p p') (hchange : change ≠ .plan)
    (hp : p.Sound) : p'.Sound := by
  have ho := h.owned hp.owned
  have hconfig := ho.config_eq
  have hslots := ho.size_slots
  exact ⟨by rwa [hconfig, hslots], h.mirrored hchange hp.owned hp.mirrored, hslots ▸ hp.room⟩

theorem Steps.sound {kinds : Change → Prop} (h : Steps kinds p p')
    (hkinds : ∀ change, kinds change → change ≠ .plan) (hp : p.Sound) : p'.Sound :=
  h.keeps (fun hk hstep => hstep.sound (hkinds _ hk)) hp

/-! ### Pages on the move -/

theorem visible_of_declared (h : p.declared o = some e) : p.visible o = some (p.pageView e) := by
  rw [visible, h, Option.map_some]

theorem getD_of_contents {m : FrameMemory} {contents : Page} (h : m.contents f = .ok contents) :
    m.frames.getD f Page.zero = contents := by
  rw [FrameMemory.contents] at h
  rw [Array.getD_eq_getD_getElem?]
  cases hf : m.frames[f]? with
  | none => simp [hf] at h
  | some page =>
    rw [hf] at h
    cases h
    rfl

/-- A page that is moved to a slot is still seen as it was, and so is every other page. -/
theorem Acquires.visible_eq (h : p.Acquires o f p₁) (ho : Owned config slots p)
    (hroom : slots * sectorsPerPage ≤ 2 ^ 32) : p₁.visible = p.visible := by
  obtain rfl := ho.size_slots
  cases h with
  | free => rfl
  | @evicting full withdrawn frames v pr e space slot taken swap contents none_free victim owner
      process entry resident unmapped slot_free held stored reassigned =>
    obtain rfl := pages_of_tryAllocate_none none_free
    obtain ⟨hdeclared, hres, hfloor⟩ := ho.declared_of_victim victim owner process entry
    obtain ⟨-, -, hdevice, hunused, hlt, -⟩ := ho.swap.consistent.allocate slot_free
    have hsector : slot * sectorsPerPage < 2 ^ 32 :=
      Nat.lt_of_lt_of_le (Nat.mul_lt_mul_of_pos_right hlt (by decide)) hroom
    have hcontents : ∀ s, swap.contents s = if s = slot then contents else p.swap.contents s := by
      intro s
      rw [Swap.contents_of_store hsector stored, Swap.contents_congr hdevice]
    funext o'
    rw [visible, declared_of_pages_set process rfl rfl, hfloor]
    by_cases hv : o' = v
    · subst hv
      rw [Function.update_self, Option.map_some, visible_of_declared hdeclared]
      simp only [pageView, Pager.held, hres, hcontents, if_true, getD_of_contents held]
    · rw [Function.update_of_ne hv, visible]
      refine Option.map_congr fun e' he' => ?_
      simp only [pageView, Pager.held]
      cases hres' : e'.residency with
      | notPopulated => rfl
      | resident g => rfl
      | swapped s =>
        have hs : s ≠ slot := by
          rintro rfl
          have hused := (ho.swap.inUse_iff s).2 ⟨o', by rw [residency_of_declared he', hres']⟩
          rw [hunused] at hused
          simp at hused
        simp only [hcontents, if_neg hs]

theorem mappings_of_getElem? {pr : Process} (h : p.processes[pid]? = some pr) :
    p.outlook.mappings pid = some pr.mappings := by
  show p.processes[pid]?.map Process.mappings = _
  rw [h, Option.map_some]

theorem pages_of_getElem? {pr : Process} (h : p.processes[pid]? = some pr) (page : Nat) :
    p.outlook.pages ⟨pid, page⟩ = pr.pages.entries[page]?.map p.pageView := by
  show p.visible _ = _
  rw [visible, declared_of_getElem? h]

theorem mappings_withProcess (p : Pager) (pid : Nat) (pr : Process) :
    (p.withProcess pid pr).outlook.mappings
      = Function.update p.outlook.mappings pid (some pr.mappings) := by
  funext q
  simp only [outlook, getElem?_withProcess]
  by_cases hq : pid = q
  · subst hq
    rw [if_pos rfl, Function.update_self, Option.map_some]
  · rw [if_neg hq, Function.update_of_ne (Ne.symm hq)]

theorem mappings_of_insert {pr pr' : Process} (h : p.processes[pid]? = some pr)
    (hp' : p'.processes = p.processes.insert pid pr') (hmappings : pr'.mappings = pr.mappings) :
    p'.outlook.mappings = p.outlook.mappings := by
  have hsame : p'.outlook.mappings = (p.withProcess pid pr').outlook.mappings := by
    simp only [outlook, hp', withProcess]
  rw [hsame, mappings_withProcess, hmappings, ← mappings_of_getElem? h, Function.update_eq_self]

/-- Making room for a page is not seen. -/
theorem Acquires.outlook_eq (h : p.Acquires o f p₁) (ho : Owned config slots p)
    (hroom : slots * sectorsPerPage ≤ 2 ^ 32) : p₁.outlook = p.outlook := by
  have hvisible := h.visible_eq ho hroom
  cases h with
  | free => rfl
  | evicting none_free victim owner process =>
    exact Outlook.ext rfl hvisible (mappings_of_insert process rfl rfl) rfl rfl

/-! ### Loads -/

theorem pageView_congr (hmemory : p'.memory = p.memory)
    (hswap : ∀ s, p'.swap.contents s = p.swap.contents s) : p'.pageView = p.pageView := by
  funext e
  simp only [pageView, Pager.held, hmemory]
  cases e.residency with
  | notPopulated => rfl
  | resident g => rfl
  | swapped s => simp only [hswap]

theorem visible_congr (hdeclared : p'.declared = p.declared) (hmemory : p'.memory = p.memory)
    (hswap : ∀ s, p'.swap.contents s = p.swap.contents s) : p'.visible = p.visible := by
  funext o
  rw [visible, hdeclared, pageView_congr hmemory hswap, visible]

/-- What a page gets when it is loaded is what is seen of it then. -/
theorem Fetches.load {old : Page} {result : Except FileError Page} {swap : Swap}
    (h : p.Fetches e old result swap)
    (hslot : ∀ slot, e.residency = .swapped slot → slot * sectorsPerPage < 2 ^ 32) :
    (p.pageView e).load p.outlook.view
        = result.map (fun page => { p.pageView e with contents := some page }) ∧
      ∀ s, swap.contents s = p.swap.contents s := by
  cases h with
  | @swapped slot contents swap residency fetched =>
    obtain ⟨rfl, hsame⟩ := Swap.contents_of_fetch (hslot slot residency) fetched
    refine ⟨?_, hsame⟩
    simp only [PageView.load, pageView, Pager.held, residency]
    rfl
  | populated residency =>
    refine ⟨?_, fun _ => rfl⟩
    simp only [PageView.load, pageView, Pager.held, residency]
    rw [PageSource.populate_old _ _ Page.zero old]
    show (e.source.populate p.view old >>= _) = _
    cases e.source.populate p.view old <;> rfl

theorem OwnedBy.slot_lt {r : FrameOwner → Option Residency} {slot : Nat}
    (h : OwnedBy config slots p r) (hroom : slots * sectorsPerPage ≤ 2 ^ 32)
    (hslot : p.residency o = some (.swapped slot)) : slot * sectorsPerPage < 2 ^ 32 := by
  have hused := (h.swap.inUse_iff slot).2 ⟨o, hslot⟩
  have hlt := Nat.lt_of_lt_of_le (Swap.lt_size_of_isInUse hused) h.swap.consistent.size_taken
  rw [h.size_slots] at hlt
  exact Nat.lt_of_lt_of_le (Nat.mul_lt_mul_of_pos_right hlt (by decide)) hroom

/-- What is written into a frame that was handed out for page `o` is not seen of any page but `o`,
and not of `o` either as long as `o` is not in the frame. -/
theorem pageView_of_lent {o' : FrameOwner} {e' : PageEntry} {contents : Page}
    {memory : FrameMemory}
    (hlent : OwnedBy config slots p (Function.update p.residency o (some (.resident f))))
    (hwritten : p.memory.setContents f contents = .ok memory)
    (hmemory : p'.memory = memory) (hswap : ∀ s, p'.swap.contents s = p.swap.contents s)
    (he' : p.declared o' = some e') (hout : o' = o → e'.frame? = none) :
    p'.pageView e' = p.pageView e' := by
  rw [FrameMemory.setContents] at hwritten
  split at hwritten
  · cases hwritten
    simp only [pageView, Pager.held]
    cases hres : e'.residency with
    | notPopulated => rfl
    | resident g =>
      have ho : o' ≠ o := by
        intro heq
        have hframe := hout heq
        rw [frame_eq_some.2 hres] at hframe
        cases hframe
      -- frame `f` is already accounted to the page it was handed out for
      have hne : f ≠ g := by
        rintro rfl
        have howner := (hlent.frames.owners f o').2 (by
          rw [Function.update_of_ne ho, residency_of_declared he', hres])
        rw [(hlent.frames.owners f o).2 (Function.update_self _ _ _)] at howner
        exact ho (Option.some.inj howner).symm
      simp only [hmemory, Array.getD_eq_getD_getElem?, Array.getElem?_setIfInBounds_ne hne]
    | swapped s => simp only [hswap]
  · simp at hwritten

/-- The page that is loaded is seen with what was written into its frame, and no other page is
seen to change. -/
theorem visible_of_load {contents : Page} {memory : FrameMemory}
    (hlent : OwnedBy config slots p (Function.update p.residency o (some (.resident f))))
    (hwritten : p.memory.setContents f contents = .ok memory)
    (hmemory : p'.memory = memory) (hswap : ∀ s, p'.swap.contents s = p.swap.contents s)
    (hdeclared : p'.declared
      = Function.update p.declared o (some { e with residency := .resident f })) :
    p'.visible
      = Function.update p.visible o (some ⟨e.source, e.writable, some contents⟩) := by
  have hheld : memory.frames.getD f Page.zero = contents := by
    rw [FrameMemory.setContents] at hwritten
    split at hwritten
    · rename_i hf
      cases hwritten
      have hf : f < p.memory.frames.size := hf
      rw [Array.getD_eq_getD_getElem?, Array.getElem?_setIfInBounds_self_of_lt hf,
        Option.getD_some]
    · simp at hwritten
  funext o'
  rw [visible, hdeclared]
  by_cases ho : o' = o
  · subst ho
    rw [Function.update_self, Function.update_self, Option.map_some]
    simp only [pageView, Pager.held, hmemory, hheld]
  · rw [Function.update_of_ne ho, Function.update_of_ne ho, visible]
    exact Option.map_congr fun e' he' =>
      pageView_of_lent hlent hwritten hmemory hswap he' fun heq => absurd heq ho

/-- A page that was read into a frame and then not mapped is not seen to change, and neither is
any other page. -/
theorem visible_of_lent {contents : Page} {memory : FrameMemory}
    (hlent : OwnedBy config slots p (Function.update p.residency o (some (.resident f))))
    (hwritten : p.memory.setContents f contents = .ok memory)
    (hmemory : p'.memory = memory) (hswap : ∀ s, p'.swap.contents s = p.swap.contents s)
    (hmissing : p.Missing o) (hdeclared : p'.declared = p.declared) : p'.visible = p.visible := by
  funext o'
  rw [visible, hdeclared, visible]
  refine Option.map_congr fun e' he' => pageView_of_lent hlent hwritten hmemory hswap he' ?_
  rintro rfl
  obtain ⟨-, e, he, hframe⟩ := hmissing
  obtain rfl : e = e' := Option.some.inj (he.symm.trans he')
  exact hframe

/-- A load of a page ends in one of three ways. The page tables refuse the page, and nothing is
seen to change; or it meets an error in its file, and nothing is seen to change; or the page is in a
frame then, and only that page is seen to change. -/
theorem Loads.outlook_or_refused {result : Except FaultError Nat}
    (h : p.Loads pid page result p') (ho : Owned config slots p)
    (hroom : slots * sectorsPerPage ≤ 2 ^ 32) (hmissing : p.Missing ⟨pid, page⟩) :
    (result = .error .mapFailed ∧ p'.outlook = p.outlook) ∨
    ∃ v, p.outlook.pages ⟨pid, page⟩ = some v ∧ match v.load p.outlook.view with
      | .error error => result = .error (.io error) ∧ p'.outlook = p.outlook
      | .ok v' => ∃ f, result = .ok f ∧ p'.residency ⟨pid, page⟩ = some (.resident f) ∧
          p'.outlook = p.outlook.setPage ⟨pid, page⟩ (some v') := by
  have hfloor : pageFloor page = page := pageFloor_of_pageOffset hmissing.1
  have hparts : ∀ {f : Nat} {p₁ : Pager} {pr : Process} {e : PageEntry},
      p.Acquires ⟨pid, page⟩ f p₁ → p₁.processes[pid]? = some pr →
      pr.pages.lookup page = some e → p₁.declared ⟨pid, page⟩ = some e ∧
        ∀ slot, e.residency = .swapped slot → slot * sectorsPerPage < 2 ^ 32 := by
    intro f p₁ pr e hacquired hpr he
    have hdeclared : p₁.declared ⟨pid, page⟩ = some e := by
      rwa [PageMap.lookup, hfloor, ← declared_of_getElem? hpr] at he
    refine ⟨hdeclared, fun slot hslot => ?_⟩
    exact (hacquired.ownedBy ho hmissing.residency_ne).slot_lt hroom
      (by rw [residency_of_declared hdeclared, hslot])
  cases h with
  | @unreadable f p₁ pr e old error swap frames acquired process entry held fetched released =>
    obtain ⟨hdeclared, hslot⟩ := hparts acquired process entry
    obtain ⟨hload, hswap⟩ := fetched.load hslot
    have hsame := acquired.outlook_eq ho hroom
    rw [← hsame]
    refine .inr ⟨p₁.pageView e, visible_of_declared hdeclared, ?_⟩
    rw [hload]
    exact ⟨rfl, Outlook.ext rfl (visible_congr rfl rfl hswap) rfl rfl rfl⟩
  | @refused f phys p₁ pr e old contents swap memory space frames acquired process entry held
      fetched written address refused released =>
    obtain ⟨-, hslot⟩ := hparts acquired process entry
    obtain ⟨-, hswap⟩ := fetched.load hslot
    rw [← acquired.outlook_eq ho hroom]
    refine .inl ⟨rfl, Outlook.ext rfl ?_ (mappings_of_insert process rfl rfl) rfl rfl⟩
    exact visible_of_lent (acquired.ownedBy ho hmissing.residency_ne) written rfl hswap
      (acquired.missing ho hmissing) (declared_of_pages_eq process rfl rfl)
  | @loaded f phys p₁ pr e old contents swap freed memory space acquired process entry held fetched
      written address mapped slot_freed =>
    obtain ⟨hdeclared, hslot⟩ := hparts acquired process entry
    obtain ⟨hload, hswap⟩ := fetched.load hslot
    have hsame := acquired.outlook_eq ho hroom
    rw [← hsame]
    refine .inr ⟨p₁.pageView e, visible_of_declared hdeclared, ?_⟩
    rw [hload]
    have hdevice : freed.device = swap.device := by
      rw [freesSlot] at slot_freed
      split at slot_freed
      · exact Swap.device_of_release slot_freed
      · rw [slot_freed]
    have hfreed : ∀ s, freed.contents s = p₁.swap.contents s := fun s =>
      (Swap.contents_congr hdevice s).trans (hswap s)
    refine ⟨f, rfl, ?_, ?_⟩
    · rw [residency_of_pages_set process rfl rfl hfloor, Function.update_self]
    · refine Outlook.ext rfl ?_ (mappings_of_insert process rfl rfl) rfl rfl
      refine visible_of_load (acquired.ownedBy ho hmissing.residency_ne) written rfl hfreed ?_
      rw [declared_of_pages_set process rfl rfl, hfloor]

/-- Tables that are in line with the page maps refuse nothing, so that a load meets an error in its
file or ends with the page in a frame. -/
theorem Loads.outlook {result : Except FaultError Nat} (h : p.Loads pid page result p')
    (hp : p.Sound) (hmissing : p.Missing ⟨pid, page⟩) :
    ∃ v, p.outlook.pages ⟨pid, page⟩ = some v ∧ match v.load p.outlook.view with
      | .error error => result = .error (.io error) ∧ p'.outlook = p.outlook
      | .ok v' => ∃ f, result = .ok f ∧ p'.residency ⟨pid, page⟩ = some (.resident f) ∧
          p'.outlook = p.outlook.setPage ⟨pid, page⟩ (some v') := by
  rcases h.outlook_or_refused hp.owned hp.room hmissing with ⟨hrefused, -⟩ | hseen
  · exact absurd hrefused (h.mirrored hp.owned hmissing hp.mirrored).2
  · exact hseen

/-! ### Declarations, mappings and page tables -/

/-- Page tables are not seen. -/
theorem outlook_of_space {pr : Process} (h : p.processes[pid]? = some pr) (space : AddressSpace) :
    (p.withProcess pid { pr with space }).outlook = p.outlook := by
  refine Outlook.ext rfl ?_ (mappings_of_insert h rfl rfl) rfl rfl
  exact visible_congr (declared_of_pages_eq h rfl rfl) rfl fun _ => rfl

/-- A page that is declared anew is seen with its source and without contents. -/
theorem visible_of_declare {source : PageSource} {writable : Bool}
    (hdeclared : p'.declared = Function.update p.declared o (some (.fresh source writable)))
    (hmemory : p'.memory = p.memory) (hswap : p'.swap = p.swap) :
    p'.visible = Function.update p.visible o (some ⟨source, writable, none⟩) := by
  funext o'
  rw [visible, hdeclared]
  by_cases ho : o' = o
  · subst ho
    rw [Function.update_self, Function.update_self]
    rfl
  · rw [Function.update_of_ne ho, Function.update_of_ne ho, visible,
      pageView_congr hmemory fun s => by rw [hswap]]

theorem outlook_of_declare {pr : Process} (h : p.processes[pid]? = some pr) (addr : Nat)
    (source : PageSource) (writable : Bool) :
    (p.withProcess pid { pr with pages := pr.pages.set addr (.fresh source writable) }).outlook
      = p.outlook.setPage ⟨pid, pageFloor addr⟩ (some ⟨source, writable, none⟩) := by
  refine Outlook.ext rfl ?_ (mappings_of_insert h rfl rfl) rfl rfl
  refine visible_of_declare ?_ rfl rfl
  rw [declared_of_pages_set h rfl rfl]

theorem outlook_of_mappings {pr : Process} (h : p.processes[pid]? = some pr)
    (mappings : MappingTable) (nextSerial : Nat) :
    ({ p.withProcess pid { pr with mappings } with nextSerial } : Pager).outlook
      = { p.outlook.setMappings pid (some mappings) with nextSerial } := by
  refine Outlook.ext rfl ?_ ?_ rfl rfl
  · refine visible_congr ?_ rfl fun _ => rfl
    have hprocesses : (p.withProcess pid { pr with mappings }).processes
        = p.processes.insert pid { pr with mappings } := rfl
    exact declared_of_pages_eq h hprocesses rfl
  · exact mappings_withProcess p pid _

theorem outlook_of_register (h : p.processes[pid]? = none) :
    (p.withProcess pid .fresh).outlook = p.outlook.setMappings pid (some .empty) := by
  refine Outlook.ext rfl ?_ (mappings_withProcess p pid _) rfl rfl
  refine visible_congr ?_ rfl fun _ => rfl
  rw [declared_withProcess_bare (fun o ho => declared_eq_none h ho) fun page => ?_]
  simp [Process.fresh, PageMap.empty]

/-! ### Faults and copies -/

/-- Finding a page is a matter of the outlook. -/
theorem Finds.outlook {found : Option PageEntry} (h : p.Finds pid addr esp found p') :
    p.outlook.find pid addr esp = (found.map p'.pageView, p'.outlook) := by
  have hpage : ∀ {pr : Process}, p.processes[pid]? = some pr →
      p.outlook.pages ⟨pid, pageFloor addr⟩ = (pr.pages.lookup addr).map p.pageView :=
    fun hpr => pages_of_getElem? hpr _
  have hstack : p.outlook.layout.isStackAccess addr esp = p.config.isStackAccess addr esp := rfl
  cases h with
  | declared process entry =>
    rw [Outlook.find, hpage process, entry]
    rfl
  | grown process undeclared stack =>
    rw [Outlook.find, hpage process, undeclared, hstack, stack]
    exact Prod.ext rfl (outlook_of_declare process addr .zero true).symm
  | absent process undeclared stack =>
    rw [Outlook.find, hpage process, undeclared, hstack, stack]
    rfl

/-- A frame and the view of the page in it, or the same error twice. -/
def Shows (p : Pager) (o : FrameOwner) :
    Except FaultError Nat → Except FaultError PageView → Prop
  | .error e, .error e' => e = e'
  | .ok f, .ok page => p.residency o = some (.resident f) ∧ p.outlook.pages o = some page
  | _, _ => False

theorem Shows.of_error {error : FaultError} {seen : Except FaultError PageView}
    (h : p.Shows o (.error error) seen) : seen = .error error := by
  cases seen with
  | error e => exact congrArg Except.error h.symm
  | ok page => exact h.elim

theorem Shows.of_ok {seen : Except FaultError PageView} (h : p.Shows o (.ok f) seen) :
    ∃ page, seen = .ok page ∧ p.residency o = some (.resident f) ∧
      p.outlook.pages o = some page := by
  cases seen with
  | error e => exact h.elim
  | ok page => exact ⟨page, rfl, h⟩

/-- A fault is a matter of the outlook, unless the page tables refuse the page. Then only a stack
page may have been declared. -/
theorem FaultsIn.outlook_or_refused {forWrite : Bool} {result : Except FaultError Nat}
    (h : p.FaultsIn pid addr esp forWrite result p') (ho : Owned config slots p)
    (hroom : slots * sectorsPerPage ≤ 2 ^ 32) :
    (result = .error .mapFailed ∧ p'.outlook = (p.outlook.find pid addr esp).2) ∨
    ∃ seen, p.outlook.faultIn pid addr esp forWrite = (seen, p'.outlook) ∧
      p'.Shows ⟨pid, pageFloor addr⟩ result seen := by
  have huser : p.outlook.layout.isUser addr = p.config.isUser addr := rfl
  cases h with
  | kernel kernel =>
    refine .inr ⟨.error .kernelAddress, ?_, rfl⟩
    rw [Outlook.faultIn, huser, kernel]
    rfl
  | absent user finds =>
    refine .inr ⟨.error .badAddress, ?_, rfl⟩
    rw [Outlook.faultIn, huser, user, if_pos rfl, finds.outlook]
    rfl
  | @readOnly p' e user finds forbidden =>
    refine .inr ⟨.error .readOnly, ?_, rfl⟩
    rw [Outlook.faultIn, huser, user, if_pos rfl, finds.outlook]
    exact if_pos forbidden
  | @resident p' e f user finds allowed frame =>
    have hdeclared := finds.declared_eq
    have hload : (p'.pageView e).load p'.outlook.view = .ok (p'.pageView e) := by
      simp only [PageView.load, pageView, Pager.held, frame_eq_some.1 frame]
    refine .inr ⟨.ok (p'.pageView e), ?_, ?_, visible_of_declared hdeclared⟩
    · rw [Outlook.faultIn_of_allowed (huser.trans user) finds.outlook allowed, hload]
      exact Prod.ext rfl (Outlook.setPage_self _ (visible_of_declared hdeclared))
    · rw [residency_of_declared hdeclared, frame_eq_some.1 frame]
  | @load p₁ p' e result user finds allowed frame loads =>
    have hdeclared := finds.declared_eq
    rcases loads.outlook_or_refused (finds.steps.owned ho) hroom
      ⟨pageOffset_pageFloor addr, e, hdeclared, frame⟩ with ⟨hrefused, hsame⟩ | ⟨v, hv, hloads⟩
    · rw [finds.outlook]
      exact .inl ⟨hrefused, hsame⟩
    · right
      obtain rfl : p₁.pageView e = v :=
        Option.some.inj ((visible_of_declared hdeclared).symm.trans hv)
      rw [Outlook.faultIn_of_allowed (huser.trans user) finds.outlook allowed]
      cases hload : (p₁.pageView e).load p₁.outlook.view with
      | error error =>
        rw [hload] at hloads
        obtain ⟨rfl, hsame⟩ := hloads
        refine ⟨.error (.io error), ?_, rfl⟩
        rw [hsame]
      | ok v' =>
        rw [hload] at hloads
        obtain ⟨f, rfl, hres, hsame⟩ := hloads
        refine ⟨.ok v', ?_, hres, ?_⟩
        · rw [hsame]
        · rw [hsame]
          exact Function.update_self _ _ _

/-- A fault is a matter of the outlook. -/
theorem FaultsIn.outlook {forWrite : Bool} {result : Except FaultError Nat}
    (h : p.FaultsIn pid addr esp forWrite result p') (hp : p.Sound) :
    ∃ seen, p.outlook.faultIn pid addr esp forWrite = (seen, p'.outlook) ∧
      p'.Shows ⟨pid, pageFloor addr⟩ result seen := by
  rcases h.outlook_or_refused hp.owned hp.room with ⟨hrefused, -⟩ | hseen
  · exact absurd (h.attempts.refuses hrefused)
      (hp.mirrored.not_refuses (fun _ h => h.ne_plan) hp.owned)
  · exact hseen

/-- Other processes see nothing of a fault. -/
theorem FaultsIn.touches {forWrite : Bool} {result : Except FaultError Nat}
    (h : p.FaultsIn pid addr esp forWrite result p') (ho : Owned config slots p)
    (hroom : slots * sectorsPerPage ≤ 2 ^ 32) : p.outlook.Touches pid p'.outlook := by
  rcases h.outlook_or_refused ho hroom with ⟨-, hsame⟩ | ⟨seen, hseen, -⟩
  · rw [hsame]
    exact Outlook.find_touches p.outlook pid addr esp
  · have htouches := Outlook.faultIn_touches p.outlook pid addr esp forWrite
    rwa [hseen] at htouches

theorem exists_pages_of_resident (h : p.residency o = some (.resident f)) :
    ∃ v, p.outlook.pages o = some v := by
  obtain ⟨e, he, -⟩ := residency_eq_some.1 h
  exact ⟨_, visible_of_declared he⟩

/-- What is seen of a resident page is what its frame holds. -/
theorem contents_of_resident {v : PageView} {contents : Page}
    (hres : p.residency o = some (.resident f)) (hv : p.outlook.pages o = some v)
    (hheld : p.memory.contents f = .ok contents) : v.contents = some contents := by
  obtain ⟨e, he, hres⟩ := residency_eq_some.1 hres
  obtain rfl : p.pageView e = v := Option.some.inj ((visible_of_declared he).symm.trans hv)
  simp only [pageView, Pager.held, hres, getD_of_contents hheld]

/-- Writing into the frame of a page is seen of that page alone. -/
theorem outlook_of_write {page : PageView} {contents : Page} {memory : FrameMemory}
    (ho : Owned config slots p) (hres : p.residency o = some (.resident f))
    (hpage : p.outlook.pages o = some page)
    (hwritten : p.memory.setContents f contents = .ok memory) :
    ({ p with memory } : Pager).outlook
      = p.outlook.setPage o (some { page with contents := some contents }) := by
  refine Outlook.ext rfl ?_ rfl rfl rfl
  obtain ⟨e, he, hresident⟩ := residency_eq_some.1 hres
  obtain rfl : p.pageView e = page :=
    Option.some.inj ((visible_of_declared he).symm.trans hpage)
  have hself : { e with residency := .resident f } = e := by rw [← hresident]
  have hlent : OwnedBy config slots p (Function.update p.residency o (some (.resident f))) := by
    rw [← hres, Function.update_eq_self]
    exact ho
  refine visible_of_load hlent hwritten rfl (fun _ => rfl) ?_
  rw [hself, ← he, Function.update_eq_self]
  rfl

/-- A copy of a piece from user memory is a matter of the outlook, unless the page tables refuse
its page. -/
theorem ReadsPiece.outlook_or_refused {piece : Piece} {result : Except FaultError Bytes}
    (h : p.ReadsPiece pid piece esp result p') (ho : Owned config slots p)
    (hroom : slots * sectorsPerPage ≤ 2 ^ 32) :
    result = .error .mapFailed ∨ p.outlook.readPiece pid piece esp = (result, p'.outlook) := by
  cases h with
  | failed fault =>
    rcases fault.outlook_or_refused ho hroom with ⟨hrefused, -⟩ | ⟨seen, hseen, hshows⟩
    · cases hrefused
      exact .inl rfl
    · rw [Outlook.readPiece, hseen, hshows.of_error]
      exact .inr rfl
  | copied fault pin held unpin =>
    rcases fault.outlook_or_refused ho hroom with ⟨hrefused, -⟩ | ⟨seen, hseen, hshows⟩
    · cases hrefused
    · obtain ⟨page, rfl, hres, hpage⟩ := hshows.of_ok
      rw [Outlook.readPiece, hseen]
      simp only [contents_of_resident hres hpage held, Option.getD_some]
      exact .inr rfl

/-- A copy of a piece from user memory is a matter of the outlook. -/
theorem ReadsPiece.outlook {piece : Piece} {result : Except FaultError Bytes}
    (h : p.ReadsPiece pid piece esp result p') (hp : p.Sound) :
    p.outlook.readPiece pid piece esp = (result, p'.outlook) := by
  rcases h.outlook_or_refused hp.owned hp.room with hrefused | hseen
  · exact absurd (h.attempts.refuses hrefused)
      (hp.mirrored.not_refuses (fun _ h => h.ne_plan) hp.owned)
  · exact hseen

/-- A copy of a piece to user memory is a matter of the outlook, unless the page tables refuse its
page. Then only a stack page may have been declared. -/
theorem WritesPiece.outlook_or_refused {piece : Piece} {data : Bytes}
    {result : Except FaultError Unit} (h : p.WritesPiece pid piece data esp result p')
    (ho : Owned config slots p) (hroom : slots * sectorsPerPage ≤ 2 ^ 32) :
    (result = .error .mapFailed ∧ p'.outlook = (p.outlook.find pid piece.addr esp).2) ∨
      p.outlook.writePiece pid piece data esp = (result, p'.outlook) := by
  cases h with
  | failed fault =>
    rcases fault.outlook_or_refused ho hroom with ⟨hrefused, hseen⟩ | ⟨seen, hseen, hshows⟩
    · cases hrefused
      exact .inl ⟨rfl, hseen⟩
    · rw [Outlook.writePiece, hseen, hshows.of_error]
      exact .inr rfl
  | @copied p₁ f pinned frames old memory fault pin held written unpin =>
    rcases fault.outlook_or_refused ho hroom with ⟨hrefused, -⟩ | ⟨seen, hseen, hshows⟩
    · cases hrefused
    · obtain ⟨page, rfl, hres, hpage⟩ := hshows.of_ok
      rw [Outlook.writePiece, hseen]
      simp only [contents_of_resident hres hpage held, Option.getD_some]
      have howned := fault.attempts.steps.owned ho
      exact .inr (Prod.ext rfl (outlook_of_write howned hres hpage written).symm)

/-- A copy of a piece to user memory is a matter of the outlook. -/
theorem WritesPiece.outlook {piece : Piece} {data : Bytes} {result : Except FaultError Unit}
    (h : p.WritesPiece pid piece data esp result p') (hp : p.Sound) :
    p.outlook.writePiece pid piece data esp = (result, p'.outlook) := by
  rcases h.outlook_or_refused hp.owned hp.room with ⟨hrefused, -⟩ | hseen
  · exact absurd (h.attempts.refuses hrefused)
      (hp.mirrored.not_refuses (fun _ h => Change.ne_plan_of_grows_or_write h) hp.owned)
  · exact hseen

/-- Other processes see nothing of a copy to user memory. -/
theorem WritesPiece.touches {piece : Piece} {data : Bytes} {result : Except FaultError Unit}
    (h : p.WritesPiece pid piece data esp result p') (ho : Owned config slots p)
    (hroom : slots * sectorsPerPage ≤ 2 ^ 32) : p.outlook.Touches pid p'.outlook := by
  cases h with
  | failed fault => exact fault.touches ho hroom
  | @copied p₁ f pinned frames old memory fault pin held written unpin =>
    rcases fault.outlook_or_refused ho hroom with ⟨hrefused, -⟩ | ⟨seen, hseen, hshows⟩
    · cases hrefused
    · obtain ⟨page, rfl, hres, hpage⟩ := hshows.of_ok
      have hwrite : ({ p₁ with memory, frames } : Pager).outlook = _ :=
        outlook_of_write (fault.attempts.steps.owned ho) hres hpage written
      rw [hwrite]
      exact (fault.touches ho hroom).trans (.setPage p₁.outlook pid _ _)

/-! ### Boot -/

/-- What is seen at boot: nothing is declared yet. -/
theorem outlook_ofConfig (config : Config) (device : Block) :
    (ofConfig config device).outlook
      = ⟨config.layout, fun _ => none, fun _ => none, fun _ => false, 1⟩ := by
  refine Outlook.ext rfl ?_ ?_ rfl rfl
  · funext o
    simp [outlook, visible, declared, ofConfig]
  · funext pid
    simp [outlook, ofConfig]

theorem sound_ofConfig (config : Config) {device : Block} (hdevice : device.size ≤ 2 ^ 32) :
    (ofConfig config device).Sound where
  owned := owned_ofConfig config device
  mirrored := mirrored_ofConfig config device
  room := by
    show min (device.size / sectorsPerPage) config.swapSlots * sectorsPerPage ≤ 2 ^ 32
    calc min (device.size / sectorsPerPage) config.swapSlots * sectorsPerPage
      _ ≤ device.size / sectorsPerPage * sectorsPerPage :=
        Nat.mul_le_mul_right _ (Nat.min_le_left _ _)
      _ ≤ device.size := Nat.div_mul_le_self _ _
      _ ≤ 2 ^ 32 := hdevice

end Pager

end DemandPaging
