import DemandPaging.Proofs.Determined

/-!
# What the pages hold

A page that was never touched holds nothing yet, but it is settled what it will hold: what its
source says, if the files can be read. `Outlook.memory` does not tell such a page from one that has
been populated. It is the memory of a process as the process knows it.

Nothing but a copy to user memory changes it, as long as the page stays declared. Most requests
extend it by new pages, and a read answers it.

## Main definitions

* `Outlook.memory` — what the pages hold, where it is known what the files hold.
* `Outlook.Backed` — the files that pages read from hold what is known of them.
* `Outlook.Extends` — the memory is the same but for new pages.

## Main results

* `Pager.Steps.extends` — changes that lose nothing extend the memory.
* `PagerM.ensures_copyFromUser_delivers` — a copy from user memory answers the memory.
-/

namespace DemandPaging

/-- The byte of a page that lies at `addr`, where the page covers `addr`. -/
def Page.byteAt (page : Page) (addr : Nat) : UInt8 := page.get ⟨pageOffset addr, pageOffset_lt addr⟩

/-! ### Pieces -/

theorem getElem?_slice {n start length k : Nat} (buffer : Vector UInt8 n) (hk : k < length)
    (h : start + length ≤ n) :
    (slice buffer start length)[k]? = some (buffer.get ⟨start + k, by omega⟩) := by
  rw [slice, Array.getElem?_extract, Vector.size_toArray, if_pos (by omega)]
  exact Array.getElem?_eq_getElem _

namespace Piece

@[simp] theorem addr_next (start length done : Nat) :
    (next start length done).addr = start + done := rfl

@[simp] theorem start_next (start length done : Nat) : (next start length done).start = done := rfl

/-- A piece ends within its page. -/
theorem next_end_le (start length done : Nat) :
    pageOffset (start + done) + (next start length done).size ≤ pageSize := by
  have := pageOffset_lt (start + done)
  simp only [next]
  omega

/-- The bytes of a piece lie on one page, one behind the other. -/
theorem next_page {start length done i : Nat} (hi : done ≤ i)
    (hi' : i < done + (next start length done).size) :
    pageFloor (start + i) = pageFloor (start + done) ∧
      pageOffset (start + i) = pageOffset (start + done) + (i - done) := by
  have hend := next_end_le start length done
  simp only [pageFloor, pageOffset, pageSize] at *
  omega

end Piece

/-! ### The memory -/

/-- What a page holds, where `held` says what the files hold, by number. -/
def PageView.memory (held : Nat → Bytes) (w : PageView) : Page :=
  w.contents.getD (w.source.initial (held ·.id))

/-- Populating a page does not change what it holds. -/
theorem PageView.memory_of_load {held : Nat → Bytes} {view : Handle → File} {w w' : PageView}
    (hholds : ∀ h, w.source.handle? = some h → h.file.Holds (held h.id))
    (hview : ∀ h, view h = h.file ∨ view h = h.file.broken) (h : w.load view = .ok w') :
    w'.source = w.source ∧ w'.memory held = w.memory held ∧
      w'.contents = some (w'.memory held) := by
  rw [PageView.load] at h
  cases hcontents : w.contents with
  | some page =>
    rw [hcontents] at h
    cases h
    exact ⟨rfl, rfl, by rw [memory, hcontents, Option.getD_some]⟩
  | none =>
    simp only [hcontents, except_bind_eq_ok, except_pure_eq_ok] at h
    obtain ⟨page, hpage, rfl⟩ := h
    refine ⟨rfl, ?_, rfl⟩
    rw [memory, memory, hcontents, Option.getD_some, Option.getD_none]
    exact PageSource.populate_eq_initial hholds hview hpage

namespace Outlook

variable {held : Nat → Bytes} {v v₁ v' : Outlook} {o : FrameOwner} {w w' : PageView}
  {pid addr esp : Nat}

/-- The source of a declared page and what the page holds. -/
def memory (v : Outlook) (held : Nat → Bytes) (o : FrameOwner) : Option (PageSource × Page) :=
  (v.pages o).map fun w => (w.source, w.memory held)

/-- The files that pages read from hold what `held` says. -/
def Backed (held : Nat → Bytes) (v : Outlook) : Prop :=
  ∀ o w h, v.pages o = some w → w.source.handle? = some h → h.file.Holds (held h.id)

/-- `v'` holds what `v` holds, and besides it new pages, which hold what their sources say. -/
structure Extends (held : Nat → Bytes) (v v' : Outlook) : Prop where
  memory : ∀ o, v'.memory held o = v.memory held o ∨
    v.memory held o = none ∧ ∃ source : PageSource,
      v'.memory held o = some (source, source.initial (held ·.id))
  backed : v.Backed held → v'.Backed held

theorem memory_of_pages (h : v.pages o = some w) :
    v.memory held o = some (w.source, w.memory held) := by
  rw [memory, h, Option.map_some]

theorem memory_eq_none : v.memory held o = none ↔ v.pages o = none := Option.map_eq_none_iff

theorem memory_setPage (held : Nat → Bytes) (v : Outlook) (o : FrameOwner) (w : PageView) :
    (v.setPage o (some w)).memory held
      = Function.update (v.memory held) o (some (w.source, w.memory held)) := by
  funext o'
  rw [memory]
  by_cases ho : o' = o
  · subst ho
    rw [pages_setPage_self, Function.update_self, Option.map_some]
  · rw [pages_setPage_of_ne v ho, Function.update_of_ne ho, memory]

theorem memory_setContents (held : Nat → Bytes) (v : Outlook) (o : FrameOwner) (w : PageView)
    (page : Page) :
    (v.setPage o (some { w with contents := some page })).memory held
      = Function.update (v.memory held) o (some (w.source, page)) := by
  rw [memory_setPage, PageView.memory, Option.getD_some]

theorem view_eq (v : Outlook) (h : Handle) : v.view h = h.file ∨ v.view h = h.file.broken := by
  rw [view]
  split
  · exact .inr rfl
  · exact .inl rfl

/-- A page is replaced by one with the same source. -/
theorem Backed.setPage (hv : v.Backed held)
    (hw : ∀ h, w.source.handle? = some h → h.file.Holds (held h.id)) :
    (v.setPage o (some w)).Backed held := by
  intro o' w' h hw' hh
  by_cases ho : o' = o
  · subst ho
    rw [pages_setPage_self, Option.some.injEq] at hw'
    subst hw'
    exact hw h hh
  · rw [pages_setPage_of_ne v ho] at hw'
    exact hv o' w' h hw' hh

namespace Extends

theorem of_pages_eq (h : v'.pages = v.pages) : v.Extends held v' where
  memory o := by
    left
    rw [Outlook.memory, h, Outlook.memory]
  backed hv := by
    intro o w
    rw [h]
    exact hv o w

theorem refl (v : Outlook) : v.Extends held v := of_pages_eq rfl

theorem trans (h : v.Extends held v₁) (h' : v₁.Extends held v') : v.Extends held v' where
  memory o := by
    rcases h'.memory o with hsame' | ⟨hnone', hnew'⟩
    · rw [hsame']
      exact h.memory o
    · rcases h.memory o with hsame | ⟨hnone, -⟩
      · exact .inr ⟨hsame.symm.trans hnone', hnew'⟩
      · exact .inr ⟨hnone, hnew'⟩
  backed hv := h'.backed (h.backed hv)

/-- What is declared stays declared and holds what it held. -/
theorem memory_some {x : PageSource × Page} (h : v.Extends held v')
    (hx : v.memory held o = some x) : v'.memory held o = some x := by
  rcases h.memory o with hsame | ⟨hnone, -⟩
  · rw [hsame, hx]
  · rw [hnone] at hx
    simp at hx

theorem declare {source : PageSource} (h : v.pages o = none)
    (hsource : ∀ h, source.handle? = some h → h.file.Holds (held h.id)) (writable : Bool) :
    v.Extends held (v.setPage o (some ⟨source, writable, none⟩)) where
  memory o' := by
    rw [memory_setPage]
    by_cases ho : o' = o
    · subst ho
      refine .inr ⟨memory_eq_none.2 h, source, ?_⟩
      rw [Function.update_self]
      rfl
    · exact .inl (Function.update_of_ne ho _ _)
  backed hv := hv.setPage hsource

theorem load (h : v.pages o = some w) (hv : v.Backed held) (hload : w.load v.view = .ok w') :
    v.Extends held (v.setPage o (some w')) := by
  obtain ⟨hsource, hsame, -⟩ := PageView.memory_of_load (fun h' => hv o w h' h) v.view_eq hload
  refine ⟨fun o' => ?_, fun _ => hv.setPage fun h' hh' => hv o w h' h (hsource ▸ hh')⟩
  left
  rw [memory_setPage, hsource, hsame, ← memory_of_pages h, Function.update_eq_self]

end Extends

/-! ### Faults and copies -/

theorem find_extends (held : Nat → Bytes) {found : Option PageView}
    (h : v.find pid addr esp = (found, v')) :
    v.Extends held v' ∧ ∀ w, found = some w → v'.pages ⟨pid, pageFloor addr⟩ = some w := by
  rw [find] at h
  split at h
  · rename_i w hpage
    cases h
    exact ⟨.refl v, fun w' hw' => hw' ▸ hpage⟩
  · rename_i hpage
    split at h
    · cases h
      have hsource : ∀ h, PageSource.zero.handle? = some h → h.file.Holds (held h.id) :=
        fun h hh => by cases hh
      refine ⟨.declare hpage hsource true, fun w hw => ?_⟩
      rw [pages_setPage_self, hw]
    · cases h
      exact ⟨.refl v, fun w hw => by cases hw⟩

theorem faultIn_extends (hv : v.Backed held) {forWrite : Bool}
    {result : Except FaultError PageView}
    (h : v.faultIn pid addr esp forWrite = (result, v')) :
    v.Extends held v' ∧ ∀ w, result = .ok w →
      v'.pages ⟨pid, pageFloor addr⟩ = some w ∧ w.contents = some (w.memory held) := by
  rw [faultIn] at h
  split at h
  · cases hfind : v.find pid addr esp with
    | mk found v₁ =>
      obtain ⟨hextends, hpages⟩ := find_extends held hfind
      rw [hfind] at h
      cases found with
      | none =>
        cases h
        exact ⟨hextends, fun w hw => by cases hw⟩
      | some w =>
        simp only at h
        split at h
        · cases h
          exact ⟨hextends, fun w' hw' => by cases hw'⟩
        · have hw := hpages w rfl
          have hholds := fun h => hextends.backed hv _ w h hw
          cases hload : w.load v₁.view with
          | error e =>
            rw [hload] at h
            cases h
            exact ⟨hextends, fun w' hw' => by cases hw'⟩
          | ok w' =>
            rw [hload] at h
            cases h
            refine ⟨hextends.trans (.load hw (hextends.backed hv) hload), fun w'' hw'' => ?_⟩
            cases hw''
            exact ⟨pages_setPage_self _ _ _,
              (PageView.memory_of_load hholds v₁.view_eq hload).2.2⟩
  · cases h
    exact ⟨.refl v, fun w hw => by cases hw⟩

/-- A piece that is copied out is a piece of the memory. -/
theorem readPiece_extends (hv : v.Backed held) {piece : Piece} {result : Except FaultError Bytes}
    (h : v.readPiece pid piece esp = (result, v')) :
    v.Extends held v' ∧ ∀ bytes, result = .ok bytes → ∃ source page,
      v'.memory held ⟨pid, pageFloor piece.addr⟩ = some (source, page) ∧
        bytes = slice page (pageOffset piece.addr) piece.size := by
  rw [readPiece] at h
  cases hfault : v.faultIn pid piece.addr esp false with
  | mk seen v₁ =>
    obtain ⟨hextends, hpages⟩ := faultIn_extends hv hfault
    rw [hfault] at h
    cases seen with
    | error e =>
      cases h
      exact ⟨hextends, fun bytes hbytes => by cases hbytes⟩
    | ok w =>
      cases h
      obtain ⟨hw, hcontents⟩ := hpages w rfl
      refine ⟨hextends, fun bytes hbytes => ?_⟩
      cases hbytes
      exact ⟨w.source, w.memory held, memory_of_pages hw, by rw [hcontents, Option.getD_some]⟩

/-- A piece that cannot be copied in leaves the memory as it is. -/
theorem writePiece_error (hv : v.Backed held) {piece : Piece} {data : Bytes} {e : FaultError}
    (h : v.writePiece pid piece data esp = (.error e, v')) : v.Extends held v' := by
  rw [writePiece] at h
  cases hfault : v.faultIn pid piece.addr esp true with
  | mk seen v₁ =>
    obtain ⟨hextends, -⟩ := faultIn_extends hv hfault
    rw [hfault] at h
    cases seen with
    | error e =>
      cases h
      exact hextends
    | ok w => cases h

/-- A piece that is copied in is laid over the memory, after it was extended. -/
theorem writePiece_ok (hv : v.Backed held) {piece : Piece} {data : Bytes}
    (h : v.writePiece pid piece data esp = (.ok (), v')) :
    ∃ v₁ w, v.Extends held v₁ ∧ v₁.pages ⟨pid, pageFloor piece.addr⟩ = some w ∧
      v' = v₁.setPage ⟨pid, pageFloor piece.addr⟩ (some { w with
        contents := some (overlay (w.memory held) (pageOffset piece.addr)
          (data.extract piece.start (piece.start + piece.size))) }) := by
  rw [writePiece] at h
  cases hfault : v.faultIn pid piece.addr esp true with
  | mk seen v₁ =>
    obtain ⟨hextends, hpages⟩ := faultIn_extends hv hfault
    rw [hfault] at h
    cases seen with
    | error e => cases h
    | ok w =>
      cases h
      obtain ⟨hw, hcontents⟩ := hpages w rfl
      exact ⟨v₁, w, hextends, hw, by rw [hcontents, Option.getD_some]⟩

/-! ### Bytes -/

/-- `bytes` is what the memory of `pid` holds from `start` on. -/
def Delivers (held : Nat → Bytes) (v : Outlook) (pid start : Nat) (bytes : Bytes) : Prop :=
  ∀ i < bytes.size, ∃ source page,
    v.memory held ⟨pid, pageFloor (start + i)⟩ = some (source, page) ∧
      bytes[i]? = some (page.byteAt (start + i))

theorem Delivers.extends {start : Nat} {bytes : Bytes} (h : v.Delivers held pid start bytes)
    (hv : v.Extends held v') : v'.Delivers held pid start bytes := by
  intro i hi
  obtain ⟨source, page, hpage, hbyte⟩ := h i hi
  exact ⟨source, page, hv.memory_some hpage, hbyte⟩

/-- One more piece of the memory. -/
theorem Delivers.append {start length : Nat} {bytes : Bytes} {source : PageSource} {page : Page}
    (h : v.Delivers held pid start bytes)
    (hpage : v.memory held ⟨pid, pageFloor (start + bytes.size)⟩ = some (source, page)) :
    v.Delivers held pid start (bytes ++ slice page (pageOffset (start + bytes.size))
      (Piece.next start length bytes.size).size) := by
  have hsize := size_slice page (Piece.next_end_le start length bytes.size)
  intro i hi
  rw [Array.size_append, hsize] at hi
  rw [Array.getElem?_append]
  by_cases hold : i < bytes.size
  · rw [if_pos hold]
    exact h i hold
  · obtain ⟨hfloor, hoffset⟩ := Piece.next_page (Nat.le_of_not_lt hold) hi
    rw [if_neg hold, hfloor]
    refine ⟨source, page, hpage, ?_⟩
    rw [getElem?_slice page (by omega) (Piece.next_end_le start length bytes.size), Page.byteAt]
    exact congrArg (fun k => some (page.get k)) (Fin.ext hoffset.symm)

end Outlook

namespace Pager

open Outlook (Extends)

variable {p p' : Pager} {held : Nat → Bytes} {file? : Option Handle}

/-- A change that loses nothing extends the memory. -/
theorem Step.extends {change : Change} (h : Step change p p') (hgrows : change.Grows file?)
    (hfile : ∀ h, file? = some h → h.file.Holds (held h.id)) (hp : p.Sound)
    (hbacked : p.outlook.Backed held) : p.outlook.Extends held p'.outlook := by
  cases h with
  | @declare _ pid page pr source writable process allowed user undeclared =>
    have hfloor := pageFloor_of_pageOffset (PageMap.pageOffset_of_checkDeclaration allowed)
    have hpage : p.outlook.pages ⟨pid, page⟩ = none := by
      rw [pages_of_getElem? process, undeclared, Option.map_none]
    rw [outlook_of_declare process, hfloor]
    refine .declare hpage (fun h hh => ?_) writable
    obtain ⟨h₀, hfile₀, hid, hsame⟩ := hgrows h hh
    rw [hid, hsame]
    exact hfile h₀ hfile₀
  | load missing loads =>
    obtain ⟨w, hw, hloads⟩ := loads.outlook hp missing
    cases hload : w.load p.outlook.view with
    | error e =>
      rw [hload] at hloads
      rw [hloads.2]
      exact .refl _
    | ok w' =>
      rw [hload] at hloads
      obtain ⟨f, -, -, hseen⟩ := hloads
      rw [hseen]
      exact .load hw hbacked hload
  | pin | unpin | medium => exact .of_pages_eq rfl
  | register unregistered =>
    rw [outlook_of_register unregistered]
    exact .of_pages_eq rfl
  | mappings mappings nextSerial process =>
    rw [outlook_of_mappings process]
    exact .of_pages_eq rfl
  | write | remove | discard | plan => exact hgrows.elim

theorem Steps.extends (h : Steps (Change.Grows file?) p p')
    (hfile : ∀ h, file? = some h → h.file.Holds (held h.id)) (hp : p.Sound)
    (hbacked : p.outlook.Backed held) : p.outlook.Extends held p'.outlook := by
  have hkeeps : p'.Sound ∧ p.outlook.Extends held p'.outlook :=
    h.keeps (P := fun q => q.Sound ∧ p.outlook.Extends held q.outlook)
      (fun hgrows hstep hq => ⟨hstep.sound hgrows.ne_plan hq.1,
        hq.2.trans (hstep.extends hgrows hfile hq.1 (hq.2.backed hbacked))⟩) ⟨hp, .refl _⟩
  exact hkeeps.2

end Pager

namespace PagerM

variable {held : Nat → Bytes}

/-- What is read piece by piece is the memory. -/
theorem ensures_readPieces_delivers (pid start length esp done : Nat) (bytes : Bytes) (t : Traced)
    (ht : t.pager.Sound) (hbacked : t.pager.outlook.Backed held) (hsize : bytes.size = done)
    (hdone : done ≤ length) (hbytes : t.pager.outlook.Delivers held pid start bytes) :
    Ensures (readPieces pid start length esp done bytes) (fun r t' => ∀ result, r = .ok result →
      result.size = length ∧ t'.pager.outlook.Delivers held pid start result) t := by
  subst hsize
  by_cases h : bytes.size < length
  · rw [readPieces_of_lt h]
    simp only [ensures_bind]
    refine (follows_readPiece pid _ esp t ht).mono ?_
    rintro r t₁ ⟨hseen, ht₁⟩
    obtain ⟨hextends, hread⟩ := Outlook.readPiece_extends hbacked (Option.some.inj hseen)
    cases r with
    | error e => exact ensures_pure.2 fun result hresult => by cases hresult
    | ok found =>
      obtain ⟨source, page, hpage, rfl⟩ := hread found rfl
      have := Piece.next_size_pos start h
      have hend := Piece.next_end_le start length bytes.size
      have hle := Piece.next_size_le start h
      refine ensures_readPieces_delivers pid start length esp _ _ t₁ ht₁ (hextends.backed hbacked)
        ?_ hle ((hbytes.extends hextends).append hpage)
      rw [Array.size_append]
      exact congrArg _ (size_slice page hend)
  · rw [readPieces_of_le (Nat.le_of_not_lt h)]
    refine ensures_pure.2 fun result hresult => ?_
    cases hresult
    exact ⟨Nat.le_antisymm hdone (Nat.le_of_not_lt h), hbytes⟩
  termination_by length - done

/-- A copy from user memory answers the memory, as long as it was asked for. -/
theorem ensures_copyFromUser_delivers (pid start length esp : Nat) (t : Traced)
    (ht : t.pager.Sound) (hbacked : t.pager.outlook.Backed held) :
    Ensures (Pager.copyFromUser pid start length esp) (fun r t' => ∀ bytes, r = .ok bytes →
      bytes.size = length ∧ t'.pager.outlook.Delivers held pid start bytes) t := by
  rw [Pager.copyFromUser]
  simp only [ensures_bind, ensures_pager, ensures_ite, ensures_pure, ensures_lift]
  constructor
  · intro _ _ _
    exact ensures_readPieces_delivers pid start length esp 0 #[] t ht hbacked rfl (Nat.zero_le _)
      fun i hi => absurd hi (Nat.not_lt_zero i)
  · intro _ bytes hbytes
    cases hbytes

end PagerM

end DemandPaging
