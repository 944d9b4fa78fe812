import DemandPaging.Proofs.Starvation
import DemandPaging.Proofs.StoredBytes

/-!
# What a copy to user memory stores

A copy to user memory goes from page to page, in the order of the addresses. It stops at the first
page that cannot be faulted in for writing, and answers that page's error. The bytes for the pages
before are stored then; every other byte is what it was, on every page of every process.

Which page fails can be told before the copy begins, since the pages of a range are all different
and the verdict on one does not depend on the others. Only a refusal of the page tables cannot be
foreseen. But also where the tables refuse a page, the copy has done just what the copy of the bytes
before that page does, and then met the refusal.

## Main definitions

* `Pager.Unwritable` — the reasons why a page cannot be faulted in for writing.
* `Outlook.Reaches` — how far a copy has come.
* `Traced.StopsAt`, `Traced.CopiesPrefix` — a copy that stops at a page, and any copy that ends.

## Main results

* `PagerM.ensures_storePieces_copiesTo` — a copy stores a prefix, and stops where it can be told to.
* `PagerM.run_storePieces_eq_error` — what a copy has done when it stops.
* `Pager.copyToUser_stores_until_failure` — what a copy to user memory does.
-/

namespace DemandPaging

/-- The first address of a range that starts at `start` on the page of `addr`. -/
def firstOn (start addr : Nat) : Nat := max (pageFloor addr) start

namespace Outlook

variable {v v' : Outlook} {pid start esp : Nat} {data : Bytes}

/-- `v` is `v₀` after a copy of `data` has done `done` bytes. It stands at a page boundary or at an
end of the range. Every page so far could be told to go well, and the pages to come are as they
were. -/
structure Reaches (v₀ : Outlook) (pid start : Nat) (data : Bytes) (esp done : Nat) (v : Outlook) :
    Prop where
  stores : v₀.Stores pid start data 0 done v
  boundary : done = 0 ∨ done = data.size ∨ pageOffset (start + done) = 0
  good : ∀ i < done, ∃ w, (v₀.faultIn pid (firstOn start (start + i)) esp true).1 = .ok w
  ahead : ∀ i, done ≤ i → i < data.size →
    v.pages ⟨pid, pageFloor (start + i)⟩ = v₀.pages ⟨pid, pageFloor (start + i)⟩

namespace Reaches

variable {v₀ : Outlook} {done : Nat} {error : FaultError}

theorem zero (v₀ : Outlook) (pid start : Nat) (data : Bytes) (esp : Nat) :
    v₀.Reaches pid start data esp 0 v₀ :=
  ⟨.refl v₀ (Nat.zero_le _), .inl rfl, fun _ hi => absurd hi (Nat.not_lt_zero _),
    fun _ _ _ => rfl⟩

/-- The verdict on the next page is what it was before the copy began. -/
theorem verdict (h : v₀.Reaches pid start data esp done v) (hdone : done < data.size) :
    (v.faultIn pid (start + done) esp true).1 = (v₀.faultIn pid (start + done) esp true).1 :=
  faultIn_fst_congr h.stores.touches (h.ahead done (Nat.le_refl _) hdone) true

/-- The next piece begins where the range first meets its page. -/
theorem firstOn_eq (h : v₀.Reaches pid start data esp done v) (hdone : done < data.size) {i : Nat}
    (hi : done ≤ i) (hi' : i < done + (Piece.next start data.size done).size) :
    firstOn start (start + i) = start + done := by
  have hle := pageFloor_le (start + done)
  have hfloor := pageFloor_add_pageOffset (start + done)
  rw [firstOn, (Piece.next_page hi hi').1]
  rcases h.boundary with rfl | hend | hboundary
  · simp only [Nat.add_zero] at *
    omega
  · omega
  · omega

theorem next (h : v₀.Reaches pid start data esp done v) (hdone : done < data.size)
    (hwrite : v.writePiece pid (.next start data.size done) data esp = (.ok (), v')) :
    v₀.Reaches pid start data esp (done + (Piece.next start data.size done).size) v' := by
  have hpos := Piece.next_size_pos start hdone
  obtain ⟨w, v₁, hfault, rfl⟩ := writePiece_eq_ok hwrite
  rw [Piece.addr_next] at hfault
  refine ⟨h.stores.trans (.of_writePiece hdone hwrite) (Nat.zero_le _) (Nat.le_add_right _ _),
    ?_, fun i hi => ?_, fun i hi hi' => ?_⟩
  · rcases Piece.next_boundary start hdone with hend | hpage
    · exact .inr (.inl hend)
    · exact .inr (.inr hpage)
  · by_cases hlo : i < done
    · exact h.good i hlo
    · rw [h.firstOn_eq hdone (Nat.le_of_not_lt hlo) hi]
      exact ⟨w, (h.verdict hdone).symm.trans (congrArg Prod.fst hfault)⟩
  · have hne : (⟨pid, pageFloor (start + i)⟩ : FrameOwner) ≠ ⟨pid, pageFloor (start + done)⟩ := by
      intro hsame
      exact Piece.pageFloor_ne_of_next_le start hdone hi hi' (FrameOwner.mk.inj hsame).2
    have hahead := faultIn_pages_of_ne v pid (start + done) esp true hne
    rw [hfault] at hahead
    rw [Piece.addr_next, pages_setPage_of_ne _ hne]
    exact hahead.trans (h.ahead i (by omega) hi')

/-- The page that fails is the one that could be told to fail. -/
theorem stops (h : v₀.Reaches pid start data esp done v) (hdone : done < data.size)
    (hwrite : v.writePiece pid (.next start data.size done) data esp = (.error error, v')) :
    v₀.Stores pid start data 0 done v' ∧
      (v₀.faultIn pid (start + done) esp true).1 = .error error := by
  have hfault := writePiece_eq_error hwrite
  rw [Piece.addr_next] at hfault
  have hstores := Stores.of_faultIn v pid start (start + done) esp true (Nat.le_of_lt hdone)
  rw [hfault] at hstores
  exact ⟨h.stores.trans hstores (Nat.zero_le _) (Nat.le_refl _),
    (h.verdict hdone).symm.trans (congrArg Prod.fst hfault)⟩

end Reaches

/-- What `v₀` becomes by a copy of `data` that answers `r` after it has stored `n` bytes. -/
structure CopiesTo (v₀ : Outlook) (pid start : Nat) (data : Bytes) (esp n : Nat)
    (r : Except FaultError Unit) (v : Outlook) : Prop where
  stores : v₀.Stores pid start data 0 n v
  good : ∀ i < n, ∃ w, (v₀.faultIn pid (firstOn start (start + i)) esp true).1 = .ok w
  all : r = .ok () → n = data.size
  stopped : ∀ error, r = .error error → n < data.size ∧ (n = 0 ∨ pageOffset (start + n) = 0) ∧
    (error = .mapFailed ∨ (v₀.faultIn pid (start + n) esp true).1 = .error error)

/-- On the way, at a page that is not written. -/
theorem Reaches.copiesTo_error {v₀ : Outlook} {done : Nat} {error : FaultError}
    (h : v₀.Reaches pid start data esp done v) (hdone : done < data.size)
    (hstores : v₀.Stores pid start data 0 done v')
    (hcause : error = .mapFailed ∨ (v₀.faultIn pid (start + done) esp true).1 = .error error) :
    v₀.CopiesTo pid start data esp done (.error error) v' := by
  refine ⟨hstores, h.good, (fun hr => by cases hr), fun e he => ?_⟩
  cases he
  refine ⟨hdone, ?_, hcause⟩
  rcases h.boundary with hzero | hend | hboundary
  · exact .inl hzero
  · omega
  · exact .inr hboundary

end Outlook

namespace PagerM

open Pager (Owned)

variable {config : Config} {slots pid start esp n : Nat} {data : Bytes}

/-- A copy stores a prefix of its bytes, and can be told to stop where it stops. -/
theorem ensures_storePieces_copiesTo (pid start : Nat) (data : Bytes) (esp done : Nat) (t : Traced)
    {v₀ : Outlook} (ht : Owned config slots t.pager) (hroom : slots * sectorsPerPage ≤ 2 ^ 32)
    (h : v₀.Reaches pid start data esp done t.pager.outlook) :
    Ensures (storePieces pid start data esp done) (fun r t' =>
      v₀.CopiesTo pid start data esp r.2 r.1 t'.pager.outlook) t := by
  rw [storePieces]
  by_cases hdone : done < data.size
  · rw [dif_pos hdone]
    simp only [ensures_bind]
    refine (ensures_writePiece pid _ data esp t).mono ?_
    intro r t₁ hpiece
    have ht₁ := hpiece.attempts.steps.owned ht
    rcases hpiece.outlook_or_refused ht hroom with ⟨rfl, hseen⟩ | hseen
    · have hfound := Outlook.Stores.of_find t.pager.outlook pid start
        (Piece.next start data.size done).addr esp (Nat.le_of_lt hdone)
      rw [← hseen] at hfound
      refine ensures_pure.2 (h.copiesTo_error hdone ?_ (.inl rfl))
      exact h.stores.trans hfound (Nat.zero_le _) (Nat.le_refl _)
    · cases r with
      | error e =>
        obtain ⟨hstores, hcause⟩ := h.stops hdone hseen
        exact ensures_pure.2 (h.copiesTo_error hdone hstores (.inr hcause))
      | ok _ =>
        have := Piece.next_size_pos start hdone
        exact ensures_storePieces_copiesTo pid start data esp _ t₁ ht₁ hroom (h.next hdone hseen)
  · rw [dif_neg hdone]
    have hend : done = data.size := Nat.le_antisymm h.stores.le_size (Nat.le_of_not_lt hdone)
    exact ensures_pure.2 ⟨h.stores, h.good, fun _ => hend, (fun _ he => by cases he)⟩
  termination_by data.size - done

/-! ### The bytes before the page that fails -/

/-- Of the bytes that are not in it, a piece takes no notice. -/
theorem writePiece_congr {piece : Piece} {data' : Bytes}
    (h : data'.extract piece.start (piece.start + piece.size)
      = data.extract piece.start (piece.start + piece.size)) :
    writePiece pid piece data' esp = writePiece pid piece data esp := by
  simp only [writePiece, copyIn, h]

/-- A piece that is not written was not faulted in. -/
theorem run_writePiece_eq_error {piece : Piece} {error : FaultError} {t t' : Traced}
    (h : (writePiece pid piece data esp).run t = .ok (.error error) t') :
    (faultIn pid piece.addr esp true).run t = .ok (.error error) t' := by
  rw [writePiece, pinPage] at h
  obtain ⟨pinned, t₁, hpinned, h⟩ := run_bind_eq_ok.1 h
  obtain ⟨found, t₂, hfound, hpinned⟩ := run_bind_eq_ok.1 hpinned
  cases found with
  | error e =>
    cases hpinned
    cases h
    exact hfound
  | ok f =>
    obtain ⟨_, t₃, -, hpinned⟩ := run_bind_eq_ok.1 hpinned
    cases hpinned
    obtain ⟨_, t₄, -, h⟩ := run_bind_eq_ok.1 h
    obtain ⟨_, t₅, -, h⟩ := run_bind_eq_ok.1 h
    cases h

/-- A copy of the first `n` bytes begins with the same piece as the whole copy, if it has that
piece at all. -/
theorem run_writePieces_extract {done : Nat} {t t₁ : Traced} {r : Except FaultError Unit}
    {t' : Traced} (hdone : done < data.size)
    (hpiece : (writePiece pid (.next start data.size done) data esp).run t = .ok (.ok ()) t₁)
    (hle : done + (Piece.next start data.size done).size ≤ n) (hn : n ≤ data.size)
    (hrest : (writePieces pid start (data.extract 0 n) esp
      (done + (Piece.next start data.size done).size)).run t₁ = .ok r t') :
    (writePieces pid start (data.extract 0 n) esp done).run t = .ok r t' := by
  have hsize : (data.extract 0 n).size = n := by
    rw [Array.size_extract]
    omega
  have hnext := Piece.next_of_le hdone hle hn
  have hsame : writePiece pid (.next start n done) (data.extract 0 n) esp
      = writePiece pid (.next start data.size done) data esp := by
    rw [hnext]
    refine writePiece_congr ?_
    rw [Piece.start_next, Array.extract_extract, Nat.zero_add, Nat.zero_add, Nat.min_eq_left hle]
  have hpos := Piece.next_size_pos start hdone
  rw [writePieces_of_lt (by omega), hsize, hsame]
  refine run_bind_eq_ok.2 ⟨.ok (), t₁, hpiece, ?_⟩
  rw [hnext]
  exact hrest

/-- A copy that stops has done what the copy of the bytes before does, and then met a page that
could not be faulted in. -/
theorem run_storePieces_eq_error {done : Nat} {error : FaultError} {t t' : Traced}
    (h : (storePieces pid start data esp done).run t = .ok (.error error, n) t') :
    done ≤ n ∧ n < data.size ∧
      ∃ u, (writePieces pid start (data.extract 0 n) esp done).run t = .ok (.ok ()) u ∧
        (faultIn pid (start + n) esp true).run u = .ok (.error error) t' := by
  rw [storePieces] at h
  by_cases hdone : done < data.size
  · rw [dif_pos hdone] at h
    obtain ⟨r, t₁, hpiece, h⟩ := run_bind_eq_ok.1 h
    cases r with
    | error e =>
      cases h
      have hsize : (data.extract 0 n).size ≤ n := by
        rw [Array.size_extract]
        omega
      rw [writePieces_of_le hsize]
      exact ⟨Nat.le_refl _, hdone, t, rfl, run_writePiece_eq_error hpiece⟩
    | ok _ =>
      have hpos := Piece.next_size_pos start hdone
      have h : (storePieces pid start data esp
          (done + (Piece.next start data.size done).size)).run t₁ = .ok (.error error, n) t' := h
      obtain ⟨hle, hlt, u, hrest, hfault⟩ := run_storePieces_eq_error h
      exact ⟨by omega, hlt, u,
        run_writePieces_extract hdone hpiece hle (Nat.le_of_lt hlt) hrest, hfault⟩
  · rw [dif_neg hdone] at h
    cases h
  termination_by data.size - done

end PagerM

namespace Pager

variable {p : Pager} {pid addr esp : Nat} {error : FaultError}

/-- Why the page that covers a user address cannot be faulted in for writing. A refusal of the page
tables may come besides. -/
inductive Unwritable (p : Pager) (pid addr esp : Nat) : FaultError → Prop
  /-- No page covers the address, and the stack does not grow there. -/
  | undeclared (undeclared : p.declared ⟨pid, pageFloor addr⟩ = none)
      (stack : p.config.isStackAccess addr esp ≠ .ok true) : Unwritable p pid addr esp .badAddress
  | readOnly {e : PageEntry} (declared : p.declared ⟨pid, pageFloor addr⟩ = some e)
      (readOnly : e.writable = false) : Unwritable p pid addr esp .readOnly
  /-- The page has never been read, and its file cannot be read now. -/
  | unreadable {e : PageEntry} {error : FileError}
      (declared : p.declared ⟨pid, pageFloor addr⟩ = some e) (writable : e.writable = true)
      (untouched : e.residency = .notPopulated)
      (fails : e.source.populate p.view Page.zero = .error error) :
    Unwritable p pid addr esp (.io error)

theorem unwritable_of_undeclared (h : p.declared ⟨pid, pageFloor addr⟩ = none) :
    p.Unwritable pid addr esp error ↔
      error = .badAddress ∧ p.config.isStackAccess addr esp ≠ .ok true := by
  constructor
  · intro hbad
    cases hbad with
    | undeclared _ stack => exact ⟨rfl, stack⟩
    | readOnly declared | unreadable declared => simp [h] at declared
  · rintro ⟨rfl, hstack⟩
    exact .undeclared h hstack

theorem unwritable_of_declared {e : PageEntry} (h : p.declared ⟨pid, pageFloor addr⟩ = some e) :
    p.Unwritable pid addr esp error ↔ (error = .readOnly ∧ e.writable = false) ∨
      ∃ failure, error = .io failure ∧ e.writable = true ∧ e.residency = .notPopulated ∧
        e.source.populate p.view Page.zero = .error failure := by
  constructor
  · intro hbad
    cases hbad with
    | undeclared undeclared => simp [h] at undeclared
    | readOnly declared readOnly =>
      obtain rfl := Option.some.inj (h.symm.trans declared)
      exact .inl ⟨rfl, readOnly⟩
    | unreadable declared writable untouched fails =>
      obtain rfl := Option.some.inj (h.symm.trans declared)
      exact .inr ⟨_, rfl, writable, untouched, fails⟩
  · rintro (⟨rfl, hwritable⟩ | ⟨failure, rfl, hwritable, huntouched, hfails⟩)
    · exact .readOnly h hwritable
    · exact .unreadable h hwritable huntouched hfails

/-- Only a page that has never been touched can fail to be loaded. -/
theorem load_pageView_eq_error {e : PageEntry} {failure : FileError} {view : Handle → File} :
    (p.pageView e).load view = .error failure ↔
      e.residency = .notPopulated ∧ e.source.populate view Page.zero = .error failure := by
  rw [PageView.load_eq]
  cases hres : e.residency with
  | notPopulated =>
    have hfill : (p.pageView e).fill view = e.source.populate view Page.zero := by
      simp [PageView.fill, pageView, Pager.held, hres]
    rw [hfill]
    cases e.source.populate view Page.zero <;> simp [Except.map]
  | resident f => simp [PageView.fill, pageView, Pager.held, hres, Except.map]
  | swapped slot => simp [PageView.fill, pageView, Pager.held, hres, Except.map]

/-- The verdict on a write, where the page tables do not refuse the page. -/
theorem unwritable_iff (huser : p.config.isUser addr = true) :
    p.Unwritable pid addr esp error ↔ (p.outlook.faultIn pid addr esp true).1 = .error error := by
  have huser : p.outlook.layout.isUser addr = true := huser
  have hpage : p.outlook.pages ⟨pid, pageFloor addr⟩
      = (p.declared ⟨pid, pageFloor addr⟩).map p.pageView := rfl
  have hstack : p.outlook.layout.isStackAccess addr esp = p.config.isStackAccess addr esp := rfl
  rw [Outlook.faultIn_fst, if_pos huser, Outlook.find_fst, hpage, hstack]
  cases hdeclared : p.declared ⟨pid, pageFloor addr⟩ with
  | none =>
    rw [unwritable_of_undeclared hdeclared, Option.map_none]
    by_cases hgrows : p.config.isStackAccess addr esp = .ok true
    · simp [hgrows, PageView.load, PageSource.populate, Except.mapError]
    · simp [hgrows, eq_comm]
  | some e =>
    rw [unwritable_of_declared hdeclared, Option.map_some]
    have hload := @load_pageView_eq_error p e
    have hwritable : (p.pageView e).writable = e.writable := rfl
    cases hw : e.writable with
    | false => simp [hwritable, hw, eq_comm]
    | true =>
      simp only [hwritable, hw, Bool.not_true, Bool.and_false]
      cases hload : (p.pageView e).load p.outlook.view with
      | error failure =>
        obtain ⟨huntouched, hfails⟩ := load_pageView_eq_error.1 hload
        have hfails : e.source.populate p.view Page.zero = .error failure := hfails
        simp [huntouched, hfails, Except.mapError, eq_comm]
      | ok w =>
        have hnot : ∀ failure, ¬ (e.residency = .notPopulated ∧
            e.source.populate p.view Page.zero = .error failure) := by
          intro failure h
          have hfails : (p.pageView e).load p.outlook.view = .error failure :=
            load_pageView_eq_error.2 h
          rw [hload] at hfails
          cases hfails
        simp [hnot, Except.mapError]

end Pager

/-! ### The copy -/

/-- A copy of `data` that started in `t` has stopped in `t'` for `error`, at the page behind its
first `n` bytes. -/
structure Traced.StopsAt (t : Traced) (pid start : Nat) (data : Bytes) (esp n : Nat)
    (error : FaultError) (t' : Traced) : Prop where
  lt_size : n < data.size
  /-- The bytes that are not stored begin with a page. -/
  boundary : n = 0 ∨ pageOffset (start + n) = 0
  /-- The bytes before are copied as if there were no others, and then it is the next page that
  fails. -/
  fails : ∃ u, (Pager.copyToUser pid start (data.extract 0 n) esp).run t = .ok (.ok ()) u ∧
    (PagerM.faultIn pid (start + n) esp true).run u = .ok (.error error) t'
  /-- That could be told before the copy began, unless the page tables refused the page. -/
  cause : error = .mapFailed ∨ t.pager.Unwritable pid (start + n) esp error

/-- A copy of `data` that started in `t` has ended in `t'` with the answer `r`, and its first `n`
bytes are stored. -/
structure Traced.CopiesPrefix (t : Traced) (pid start : Nat) (data : Bytes) (esp n : Nat)
    (r : Except FaultError Unit) (t' : Traced) : Prop where
  stores : t.pager.outlook.Stores pid start data 0 n t'.pager.outlook
  /-- No page before could be told to fail. -/
  writable : ∀ i < n, ∀ error, ¬ t.pager.Unwritable pid (firstOn start (start + i)) esp error
  ends : match r with
    | .ok () => n = data.size
    | .error error => t.StopsAt pid start data esp n error t'

namespace Pager

open PagerM (isUserRange_iff)

variable {config : Config} {slots pid start esp : Nat} {data : Bytes} {t : Traced}

theorem run_store_of_isUserRange (h : t.pager.config.isUserRange start data.size = true) :
    (store pid start data esp).run t = (PagerM.storePieces pid start data esp 0).run t := by
  rw [store, EStateM.run_bind]
  show (if t.pager.config.isUserRange start data.size then _ else _ : PagerM _).run t = _
  rw [if_pos h]

theorem run_copyToUser_of_isUserRange (h : t.pager.config.isUserRange start data.size = true) :
    (copyToUser pid start data esp).run t = (PagerM.writePieces pid start data esp 0).run t := by
  rw [copyToUser, EStateM.run_bind]
  show (if t.pager.config.isUserRange start data.size then _ else _ : PagerM _).run t = _
  rw [if_pos h]

/-- A range that is not in user memory is refused at once. -/
theorem run_copyToUser_of_not_isUserRange (h : t.pager.config.isUserRange start data.size = false) :
    (copyToUser pid start data esp).run t = .ok (.error .kernelAddress) t := by
  rw [copyToUser, EStateM.run_bind]
  show (if t.pager.config.isUserRange start data.size then _ else _ : PagerM _).run t = _
  rw [h]
  rfl

/-- The copy of a range in user memory. -/
theorem copiesPrefix_of_run {r : Except FaultError Unit} {t' : Traced}
    (ho : Owned config slots t.pager) (hroom : slots * sectorsPerPage ≤ 2 ^ 32)
    (hrange : start + data.size < 2 ^ 64 ∧ start + data.size ≤ t.pager.config.physBase)
    (h : (copyToUser pid start data esp).run t = .ok r t') :
    ∃ n, t.CopiesPrefix pid start data esp n r t' := by
  have huser : ∀ addr, addr < start + data.size → t.pager.config.isUser addr = true := by
    intro addr haddr
    rw [Config.isUser, decide_eq_true_eq]
    exact Nat.lt_of_lt_of_le haddr hrange.2
  rw [← fst_store] at h
  obtain ⟨⟨r', n⟩, hpieces, hr⟩ := PagerM.run_map_eq_ok.1 h
  obtain rfl : r' = r := hr
  rw [run_store_of_isUserRange (isUserRange_iff.2 hrange)] at hpieces
  have hcopies := PagerM.ensures_storePieces_copiesTo pid start data esp 0 t ho hroom
    (.zero t.pager.outlook pid start data esp) (r', n) t' hpieces
  refine ⟨n, hcopies.stores, fun i hi error hbad => ?_, ?_⟩
  · obtain ⟨w, hgood⟩ := hcopies.good i hi
    have hlt : firstOn start (start + i) < start + data.size := by
      have := pageFloor_le (start + i)
      have := hcopies.stores.le_size
      rw [firstOn]
      omega
    rw [unwritable_iff (huser _ hlt), hgood] at hbad
    cases hbad
  · cases r' with
    | ok _ => exact hcopies.all rfl
    | error error =>
      obtain ⟨hlt, hboundary, hcause⟩ := hcopies.stopped error rfl
      obtain ⟨-, -, u, hprefix, hfault⟩ := PagerM.run_storePieces_eq_error hpieces
      have hsize : (data.extract 0 n).size = n := by
        rw [Array.size_extract]
        omega
      refine ⟨hlt, hboundary, ⟨u, ?_, hfault⟩, ?_⟩
      · rwa [run_copyToUser_of_isUserRange (isUserRange_iff.2 (by omega))]
      · rwa [unwritable_iff (huser _ (by omega))]

/-- A frame that is free or not pinned has no pins. -/
theorem hasUnpinned_of_free_or_unpinned {f : Nat} (ho : Owned config slots t.pager)
    (hfree : t.pager.frames.FreeUnpinned) (hf : f < config.userFrames)
    (h : t.pager.frames.isAllocated f = false ∨ t.pager.frames.isPinned f = .ok false) :
    t.pager.HasUnpinned := by
  refine ⟨f, ho.config_eq ▸ hf, ?_⟩
  rcases h with hunused | hunpinned
  · exact hfree f (ho.frames.consistent.ownerOf_eq_none hunused)
  · rw [FramePool.isPinned_eq (ho.size_frames ▸ hf)] at hunpinned
    simpa using hunpinned

/-- What a copy to user memory does, from every state that a run reaches on a device whose sectors
are numbered in 32 bits. A range that is not in user memory is refused, and nothing changes.
Otherwise the bytes on the pages before the first that cannot be faulted in for writing are stored,
and no others. If there is a frame that is free or not pinned, the copy does not stop because every
frame is pinned. -/
theorem copyToUser_stores_until_failure {device : Block} {ops : List Op} {answers : List Answer}
    (hdevice : device.size ≤ 2 ^ 32) (h : (run ops).run (.start config device) = .ok answers t)
    (pid start : Nat) (data : Bytes) (esp : Nat) :
    (¬ (start + data.size < 2 ^ 64 ∧ start + data.size ≤ config.physBase) →
      (copyToUser pid start data esp).run t = .ok (.error .kernelAddress) t) ∧
    (start + data.size < 2 ^ 64 ∧ start + data.size ≤ config.physBase →
      ∀ r t', (copyToUser pid start data esp).run t = .ok r t' →
        ∃ n, t.CopiesPrefix pid start data esp n r t') ∧
    ((∃ f < config.userFrames, t.pager.frames.isAllocated f = false ∨
        t.pager.frames.isPinned f = .ok false) →
      ∀ e t', (copyToUser pid start data esp).run t = .error e t' → ∀ pid page frames,
        e ≠ .allFramesPinned pid page frames) := by
  have ho := (inOrder_of_run h).owned
  have hconfig := ho.config_eq
  have hroom := (sound_ofConfig config hdevice).room
  refine ⟨fun hrange => ?_, fun hrange r t' hcopy => ?_, ?_⟩
  · refine run_copyToUser_of_not_isUserRange (Bool.eq_false_iff.2 fun hin => hrange ?_)
    rw [← hconfig]
    exact isUserRange_iff.1 hin
  · exact copiesPrefix_of_run ho hroom (hconfig ▸ hrange) hcopy
  · rintro ⟨f, hf, hunpinned⟩ e t' hpanic q page frames rfl
    have hhas := hasUnpinned_of_free_or_unpinned ho (freeUnpinned_of_run h) hf hunpinned
    have hother := PagerM.fed_copyToUser ho hhas pid start data esp _ t' hpanic
    cases hother

/-- Three bytes across a page boundary, where the second page is read-only. There is one frame, and
the copy of the two bytes before the boundary takes it. -/
theorem copyToUser_stores_until_failure_across : ∃ answers t r t',
    (run [.register 1, .declareZero 1 0x1000 true, .declareZero 1 0x2000 false]).run
        (.start { userFrames := 1 } (.attach .swap "swap" (.ram (.blank 64)))) = .ok answers t ∧
    (copyToUser 1 0x1ffe #[1, 2, 3] 0).run t = .ok r t' ∧ r = .error .readOnly ∧
    ∃ n, t.CopiesPrefix 1 0x1ffe #[1, 2, 3] 0 n r t' := by
  have hrun : ∃ answers t,
      (run [.register 1, .declareZero 1 0x1000 true, .declareZero 1 0x2000 false]).run
          (.start { userFrames := 1 } (.attach .swap "swap" (.ram (.blank 64)))) = .ok answers t ∧
      ∃ r t', (copyToUser 1 0x1ffe #[1, 2, 3] 0).run t = .ok r t' ∧ r = .error .readOnly := by
    decide +kernel
  obtain ⟨answers, t, h, r, t', hcopy, herror⟩ := hrun
  have hprefix := (copyToUser_stores_until_failure (by decide) h 1 0x1ffe #[1, 2, 3] 0).2.1
  exact ⟨answers, t, r, t', h, hcopy, herror, hprefix (by decide) r t' hcopy⟩

end Pager

end DemandPaging
