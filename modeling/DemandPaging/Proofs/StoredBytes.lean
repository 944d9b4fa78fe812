import DemandPaging.Proofs.Ledger

/-!
# The bytes that a page holds

What a page holds is meant here without regard to files that hold something in particular. A page
that was populated holds its bytes, wherever it is, and a page that was not holds what its source
would give it now, which may be an error of its file. Neither a fault nor the move of a page to swap
shows in this. A stack page that grows on the way is new, and holds zeros.

Of a fault for writing it can be told in advance whether it goes well, apart from a refusal of the
page tables. That depends on the page in question and on nothing else that is seen.

## Main definitions

* `Outlook.byteAt` — the byte at an address, or the error on the way to it.
* `Outlook.Stores` — some bytes of a range are stored, and all other bytes stay.

## Main results

* `Outlook.Stores.of_faultIn`, `Outlook.Stores.of_writePiece` — a fault stores nothing, and a piece
  stores its bytes.
* `Outlook.faultIn_fst_congr` — the verdict on a fault depends on its page alone.
-/

namespace DemandPaging

/-- What a page holds, or the error of its file if it has never been read and cannot be read now. -/
def PageView.fill (w : PageView) (view : Handle → File) : Except FileError Page :=
  match w.contents with
  | some page => .ok page
  | none => w.source.populate view Page.zero

theorem PageView.load_eq (w : PageView) (view : Handle → File) :
    w.load view = (w.fill view).map fun page => { w with contents := some page } := by
  obtain ⟨source, writable, contents⟩ := w
  cases contents with
  | some page => rfl
  | none =>
    simp only [load, fill]
    cases source.populate view Page.zero <;> rfl

/-- Loading a page does not change what it holds. -/
theorem PageView.fill_of_load {w w' : PageView} {view : Handle → File}
    (h : w.load view = .ok w') : w'.fill view = w.fill view := by
  rw [load_eq] at h
  cases hfill : w.fill view with
  | error e =>
    rw [hfill] at h
    cases h
  | ok page =>
    rw [hfill] at h
    cases h
    rfl

theorem Page.byteAt_zero (addr : Nat) : Page.zero.byteAt addr = 0 := by
  simp [Page.byteAt, Page.zero, Page.filled, Vector.get]

namespace Piece

/-- Behind a piece the range goes on with another page, or not at all. -/
theorem next_boundary (start : Nat) {length done : Nat} (h : done < length) :
    done + (next start length done).size = length ∨
      pageOffset (start + (done + (next start length done).size)) = 0 := by
  simp only [next, pageOffset, pageSize]
  omega

/-- What comes behind a piece lies on other pages. -/
theorem pageFloor_ne_of_next_le (start : Nat) {length done i : Nat} (h : done < length)
    (hi : done + (next start length done).size ≤ i) (hi' : i < length) :
    pageFloor (start + i) ≠ pageFloor (start + done) := by
  simp only [next, pageOffset, pageFloor, pageSize] at *
  omega

/-- A range that is cut behind a piece still has that piece. -/
theorem next_of_le {start length done n : Nat} (h : done < length)
    (hle : done + (next start length done).size ≤ n) (hn : n ≤ length) :
    next start n done = next start length done := by
  simp only [next, mk.injEq, true_and] at *
  omega

end Piece

namespace Outlook

variable {v v₁ v₂ v' : Outlook} {o : FrameOwner} {w : PageView} {pid start addr esp : Nat}
  {data : Bytes} {lo mid hi : Nat}

/-- What a declared page holds. -/
def fill (v : Outlook) (o : FrameOwner) : Option (Except FileError Page) :=
  (v.pages o).map (·.fill v.view)

/-- The byte at an address, if its page is declared. -/
def byteAt (v : Outlook) (pid addr : Nat) : Option (Except FileError UInt8) :=
  (v.fill ⟨pid, pageFloor addr⟩).map fun r => r.map (·.byteAt addr)

/-- What `v'` shows at an address is what `v` shows. Only a page of `pid` that is new in `v'` shows
zeros instead. -/
def KeepsByte (v : Outlook) (pid : Nat) (v' : Outlook) (q addr : Nat) : Prop :=
  v'.byteAt q addr = v.byteAt q addr ∨
    q = pid ∧ v.byteAt q addr = none ∧ v'.byteAt q addr = some (.ok 0)

/-- Of `data`, which belongs at `start` in the memory of `pid`, the bytes from `lo` up to `hi` are
stored. Every other byte stays as it is, and nothing is seen to change but pages of `pid`. -/
structure Stores (v : Outlook) (pid start : Nat) (data : Bytes) (lo hi : Nat) (v' : Outlook) :
    Prop where
  le_size : hi ≤ data.size
  touches : v.Touches pid v'
  stored : ∀ i, lo ≤ i → i < hi → v'.byteAt pid (start + i) = data[i]?.map .ok
  kept : ∀ q addr, ¬ (q = pid ∧ start + lo ≤ addr ∧ addr < start + hi) → v.KeepsByte pid v' q addr

/-! ### Faults -/

theorem fill_of_pages (h : v.pages o = some w) : v.fill o = some (w.fill v.view) := by
  rw [fill, h, Option.map_some]

theorem fill_setPage_of_ne {o' : FrameOwner} (h : o' ≠ o) (page : Option PageView) :
    (v.setPage o page).fill o' = v.fill o' := by
  rw [fill, pages_setPage_of_ne v h]
  rfl

theorem fill_setPage_self (w : PageView) :
    (v.setPage o (some w)).fill o = some (w.fill v.view) := by
  rw [fill, pages_setPage_self]
  rfl

/-- A page is replaced by one that holds the same. -/
theorem fill_setPage_of_eq (h : v.fill o = some (w.fill v.view)) :
    (v.setPage o (some w)).fill = v.fill := by
  funext o'
  by_cases ho : o' = o
  · rw [ho, fill_setPage_self, h]
  · rw [fill_setPage_of_ne ho]

/-- Finding a page changes nothing that pages hold, and a page that grows the stack holds zeros. -/
theorem find_fill (v : Outlook) (pid addr esp : Nat) :
    (v.find pid addr esp).2.fill = v.fill ∨
      v.fill ⟨pid, pageFloor addr⟩ = none ∧ (v.find pid addr esp).2.fill
        = Function.update v.fill ⟨pid, pageFloor addr⟩ (some (.ok Page.zero)) := by
  rw [find]
  split
  · exact .inl rfl
  · rename_i hnone
    split
    · right
      refine ⟨by rw [fill, hnone, Option.map_none], ?_⟩
      funext o'
      by_cases ho : o' = ⟨pid, pageFloor addr⟩
      · rw [ho, Function.update_self, fill_setPage_self]
        rfl
      · rw [Function.update_of_ne ho, fill_setPage_of_ne ho]
    · exact .inl rfl

theorem find_of_some {found : PageView} (h : v.find pid addr esp = (some found, v')) :
    v'.pages ⟨pid, pageFloor addr⟩ = some found := by
  rw [find] at h
  split at h
  · rename_i hpage
    cases h
    exact hpage
  · split at h
    · cases h
      exact pages_setPage_self _ _ _
    · cases h

/-- A fault loads its page, if it does anything after finding it. So it fills no page anew. -/
theorem faultIn_fill (v : Outlook) (pid addr esp : Nat) (forWrite : Bool) :
    (v.faultIn pid addr esp forWrite).2.fill = v.fill ∨
      (v.faultIn pid addr esp forWrite).2.fill = (v.find pid addr esp).2.fill := by
  cases hfault : v.faultIn pid addr esp forWrite with
  | mk result v' =>
    rw [faultIn] at hfault
    split at hfault
    · right
      cases hfind : v.find pid addr esp with
      | mk found v₁ =>
        rw [hfind] at hfault
        cases found with
        | none =>
          cases hfault
          rfl
        | some w =>
          simp only at hfault
          split at hfault
          · cases hfault
            rfl
          · cases hload : w.load v₁.view with
            | error e =>
              rw [hload] at hfault
              cases hfault
              rfl
            | ok w' =>
              rw [hload] at hfault
              cases hfault
              refine fill_setPage_of_eq ?_
              rw [fill_of_pages (find_of_some hfind), PageView.fill_of_load hload]
    · cases hfault
      exact .inl rfl

/-! ### Pieces -/

/-- A piece that is written was faulted in, and nothing else is done to any page but its own. -/
theorem writePiece_eq_ok {piece : Piece}
    (h : v.writePiece pid piece data esp = (.ok (), v')) :
    ∃ w v₁, v.faultIn pid piece.addr esp true = (.ok w, v₁) ∧
      v' = v₁.setPage ⟨pid, pageFloor piece.addr⟩ (some { w with
        contents := some (overlay (w.contents.getD Page.zero) (pageOffset piece.addr)
          (data.extract piece.start (piece.start + piece.size))) }) := by
  rw [writePiece] at h
  cases hfault : v.faultIn pid piece.addr esp true with
  | mk seen v₁ =>
    rw [hfault] at h
    cases seen with
    | error e => cases h
    | ok w =>
      cases h
      exact ⟨w, v₁, rfl, rfl⟩

/-- A piece that is not written was not faulted in. -/
theorem writePiece_eq_error {piece : Piece} {error : FaultError}
    (h : v.writePiece pid piece data esp = (.error error, v')) :
    v.faultIn pid piece.addr esp true = (.error error, v') := by
  rw [writePiece] at h
  cases hfault : v.faultIn pid piece.addr esp true with
  | mk seen v₁ =>
    rw [hfault] at h
    cases seen with
    | error e =>
      cases h
      rfl
    | ok w => cases h

/-! ### What is kept -/

theorem KeepsByte.trans {q : Nat} (h : v.KeepsByte pid v₁ q addr)
    (h' : v₁.KeepsByte pid v₂ q addr) : v.KeepsByte pid v₂ q addr := by
  rcases h with hsame | ⟨hq, hnone, hnew⟩
  · rcases h' with hsame' | ⟨hq, hnone, hnew⟩
    · exact .inl (hsame'.trans hsame)
    · exact .inr ⟨hq, hsame ▸ hnone, hnew⟩
  · rcases h' with hsame' | ⟨-, -, hnew'⟩
    · exact .inr ⟨hq, hnone, hsame'.trans hnew⟩
    · exact .inr ⟨hq, hnone, hnew'⟩

theorem keepsByte_of_fill (h : v'.fill = v.fill) (q : Nat) : v.KeepsByte pid v' q addr := by
  left
  rw [byteAt, h, byteAt]

theorem keepsByte_find (v : Outlook) (pid addr esp q a : Nat) :
    v.KeepsByte pid (v.find pid addr esp).2 q a := by
  rcases find_fill v pid addr esp with hsame | ⟨hnone, hgrown⟩
  · exact keepsByte_of_fill hsame q
  · by_cases hon : (⟨q, pageFloor a⟩ : FrameOwner) = ⟨pid, pageFloor addr⟩
    · refine .inr ⟨congrArg FrameOwner.pid hon, ?_, ?_⟩
      · rw [byteAt, hon, hnone, Option.map_none]
      · rw [byteAt, hgrown, hon, Function.update_self]
        exact congrArg (fun b => some (Except.ok b)) (Page.byteAt_zero a)
    · left
      rw [byteAt, hgrown, Function.update_of_ne hon, byteAt]

theorem keepsByte_faultIn (v : Outlook) (pid addr esp : Nat) (forWrite : Bool) (q a : Nat) :
    v.KeepsByte pid (v.faultIn pid addr esp forWrite).2 q a := by
  rcases faultIn_fill v pid addr esp forWrite with hsame | hfound
  · exact keepsByte_of_fill hsame q
  · exact (keepsByte_find v pid addr esp q a).trans (keepsByte_of_fill hfound q)

namespace Stores

/-- Where no byte is stored, all are kept. -/
theorem of_keeps (hle : lo ≤ data.size) (htouches : v.Touches pid v')
    (h : ∀ q a, v.KeepsByte pid v' q a) : v.Stores pid start data lo lo v' :=
  ⟨hle, htouches, fun _ hlo hhi => absurd hhi (Nat.not_lt.2 hlo), fun q a _ => h q a⟩

theorem of_find (v : Outlook) (pid start addr esp : Nat) (hle : lo ≤ data.size) :
    v.Stores pid start data lo lo (v.find pid addr esp).2 :=
  of_keeps hle (find_touches v pid addr esp) (keepsByte_find v pid addr esp)

/-- A fault stores nothing. -/
theorem of_faultIn (v : Outlook) (pid start addr esp : Nat) (forWrite : Bool)
    (hle : lo ≤ data.size) :
    v.Stores pid start data lo lo (v.faultIn pid addr esp forWrite).2 :=
  of_keeps hle (faultIn_touches v pid addr esp forWrite) (keepsByte_faultIn v pid addr esp forWrite)

theorem refl (v : Outlook) (hle : lo ≤ data.size) : v.Stores pid start data lo lo v :=
  of_keeps hle (.refl v) fun q _ => keepsByte_of_fill rfl q

/-- Two stretches of bytes are stored one behind the other. -/
theorem trans (h : v.Stores pid start data lo mid v₁) (h' : v₁.Stores pid start data mid hi v₂)
    (hlo : lo ≤ mid) (hhi : mid ≤ hi) : v.Stores pid start data lo hi v₂ where
  le_size := h'.le_size
  touches := h.touches.trans h'.touches
  stored i hi₁ hi₂ := by
    by_cases hi : mid ≤ i
    · exact h'.stored i hi hi₂
    · have hbyte := h.stored i hi₁ (Nat.lt_of_not_le hi)
      rcases h'.kept pid (start + i) (by omega) with hsame | ⟨-, hnone, -⟩
      · exact hsame.trans hbyte
      · have hlt : i < data.size := Nat.lt_of_lt_of_le hi₂ h'.le_size
        rw [hbyte, Array.getElem?_eq_getElem hlt] at hnone
        cases hnone
  kept q addr hout := by
    have hout₁ : ¬ (q = pid ∧ start + lo ≤ addr ∧ addr < start + mid) := by omega
    have hout₂ : ¬ (q = pid ∧ start + mid ≤ addr ∧ addr < start + hi) := by omega
    exact (h.kept q addr hout₁).trans (h'.kept q addr hout₂)

/-- The bytes of a piece are stored by laying them over what its page holds. -/
theorem of_setPage {done : Nat} {old new : Page} (hdone : done < data.size)
    (hpage : v.pages ⟨pid, pageFloor (start + done)⟩ = some w) (hold : w.contents = some old)
    (hnew : new = overlay old (pageOffset (start + done))
      (data.extract done (done + (Piece.next start data.size done).size))) :
    v.Stores pid start data done (done + (Piece.next start data.size done).size)
      (v.setPage ⟨pid, pageFloor (start + done)⟩ (some { w with contents := some new })) := by
  have hend := Piece.next_end_le start data.size done
  have hsize := Piece.next_size_le start hdone
  have hbyte : ∀ a, pageFloor a = pageFloor (start + done) →
      (v.setPage ⟨pid, pageFloor (start + done)⟩ (some { w with contents := some new })).byteAt
        pid a = (if start + done ≤ a ∧ a < start + done + (Piece.next start data.size done).size then
            byteStored start data (done + (Piece.next start data.size done).size) a
          else some (old.byteAt a)).map .ok := by
    intro a ha
    rw [byteAt, ha, fill_setPage_self, ← byteAt_overlay old ha hend hsize, ← hnew]
    rfl
  refine ⟨hsize, .setPage v pid _ _, fun i hlo hhi => ?_, fun q a hout => ?_⟩
  · have hsame := (Piece.next_page hlo hhi).1
    rw [hbyte _ hsame, if_pos (by omega), byteStored, if_pos (by omega), Nat.add_sub_cancel_left]
  · left
    by_cases hon : (⟨q, pageFloor a⟩ : FrameOwner) = ⟨pid, pageFloor (start + done)⟩
    · obtain ⟨rfl, ha⟩ := FrameOwner.mk.inj hon
      rw [hbyte a ha, if_neg (by omega), byteAt, ha, fill_of_pages hpage, PageView.fill, hold]
      rfl
    · rw [byteAt, fill_setPage_of_ne hon, byteAt]

/-- A piece stores its bytes. -/
theorem of_writePiece {done : Nat} (hdone : done < data.size)
    (h : v.writePiece pid (.next start data.size done) data esp = (.ok (), v')) :
    v.Stores pid start data done (done + (Piece.next start data.size done).size) v' := by
  obtain ⟨w, v₁, hseen, rfl⟩ := writePiece_eq_ok h
  rw [Piece.addr_next] at hseen
  have hfault := of_faultIn v pid start (start + done) esp true (Nat.le_of_lt hdone)
  rw [hseen] at hfault
  obtain ⟨found, v₀, -, hload, rfl⟩ := faultIn_eq_ok hseen
  obtain ⟨page, hcontents⟩ := PageView.contents_of_load hload
  rw [Piece.addr_next, Piece.start_next, hcontents, Option.getD_some]
  exact hfault.trans (of_setPage hdone (pages_setPage_self v₀ _ _) hcontents rfl)
    (Nat.le_refl _) (Nat.le_add_right _ _)

end Stores

/-! ### Which page fails -/

theorem find_fst (v : Outlook) (pid addr esp : Nat) :
    (v.find pid addr esp).1 = match v.pages ⟨pid, pageFloor addr⟩ with
      | some w => some w
      | none => if v.layout.isStackAccess addr esp = .ok true then some ⟨.zero, true, none⟩
        else none := by
  rw [find]
  cases v.pages ⟨pid, pageFloor addr⟩ with
  | some w => rfl
  | none =>
    rcases v.layout.isStackAccess addr esp with _ | _ | _
    · rfl
    · rfl
    · rfl

theorem find_view (v : Outlook) (pid addr esp : Nat) :
    (v.find pid addr esp).2.view = v.view := by
  obtain ⟨pages, hfind, -⟩ := find_touches v pid addr esp
  rw [hfind]
  rfl

/-- The verdict on a fault. -/
theorem faultIn_fst (v : Outlook) (pid addr esp : Nat) (forWrite : Bool) :
    (v.faultIn pid addr esp forWrite).1 =
      if v.layout.isUser addr then match (v.find pid addr esp).1 with
        | none => .error .badAddress
        | some w => if forWrite && !w.writable then .error .readOnly
          else (w.load v.view).mapError .io
      else .error .kernelAddress := by
  have hview := find_view v pid addr esp
  rw [faultIn]
  cases hfind : v.find pid addr esp with
  | mk found v₁ =>
    rw [hfind] at hview
    have hview : v₁.view = v.view := hview
    cases found with
    | none => split <;> rfl
    | some w =>
      simp only [hview]
      split
      · split
        · rfl
        · cases w.load v.view <;> rfl
      · rfl

/-- The verdict depends on the page in question and on no other. -/
theorem faultIn_fst_congr (h : v.Touches pid v')
    (hpage : v'.pages ⟨pid, pageFloor addr⟩ = v.pages ⟨pid, pageFloor addr⟩) (forWrite : Bool) :
    (v'.faultIn pid addr esp forWrite).1 = (v.faultIn pid addr esp forWrite).1 := by
  obtain ⟨pages, rfl, -⟩ := h
  rw [faultIn_fst, faultIn_fst, find_fst, find_fst, hpage]
  rfl

theorem find_pages_of_ne (v : Outlook) (pid addr esp : Nat)
    (ho : o ≠ ⟨pid, pageFloor addr⟩) : (v.find pid addr esp).2.pages o = v.pages o := by
  rw [find]
  split
  · rfl
  · split
    · exact pages_setPage_of_ne v ho _
    · rfl

/-- A fault concerns one page. -/
theorem faultIn_pages_of_ne (v : Outlook) (pid addr esp : Nat) (forWrite : Bool)
    (ho : o ≠ ⟨pid, pageFloor addr⟩) :
    (v.faultIn pid addr esp forWrite).2.pages o = v.pages o := by
  have hsame := find_pages_of_ne v pid addr esp ho
  rw [faultIn]
  split
  · cases hfind : v.find pid addr esp with
    | mk found v₁ =>
      rw [hfind] at hsame
      cases found with
      | none => exact hsame
      | some w =>
        simp only
        split
        · exact hsame
        · cases w.load v₁.view with
          | error e => exact hsame
          | ok w' => exact (pages_setPage_of_ne v₁ ho _).trans hsame
  · rfl

end Outlook

end DemandPaging
