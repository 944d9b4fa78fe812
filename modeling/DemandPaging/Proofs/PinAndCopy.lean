import DemandPaging.Proofs.PoolSize

/-!
# A pin and a copy of the same range

Before a device transfers data a range is pinned, and a system call copies a range. The two walk
the range in different ways. A pin goes from page to page and faults each of them in at the page's
address, the first one at the start of the range. A copy cuts the range at the page boundaries and
faults each piece in at the piece's address. A pin keeps every page in its frame, a copy lets go of
a page before it turns to the next; so different pages are moved to swap on the way.

All the same a pin goes through exactly where a copy does, and where they fail they fail on the same
page for the same reason. To see this we forget what the pages hold as well, and keep of each page
its source, whether it is writable and whether it has been populated. That is its *standing*. A
fault looks at standings only, and the bytes that a copy stores do not change any. The rest is that
the two walks come by the same addresses.

## Main definitions

* `Pager.standing` — a page without its place and its contents.
* `Outlook.Resembles` — two outlooks with the same standings.
* `Piece.StandsAt` — where a copy stands in the walk over the pages.

## Main results

* `Outlook.Resembles.faultIn` — a fault is a matter of the standings.
* `PagerM.ensures_readPieces_touch`, `PagerM.ensures_writePieces_touch` — a copy is such a walk.
* `Pager.pin_agrees_with_copies` — a pin and a copy agree.
-/

namespace DemandPaging

/-- What is known of a page apart from its place and its contents: its source, whether it is
writable and whether it has been populated. -/
def PageView.standing (w : PageView) : PageSource × Bool × Bool :=
  (w.source, w.writable, w.contents.isSome)

/-- What is known of a declared page apart from its place and its contents. -/
def Pager.standing (p : Pager) (o : FrameOwner) : Option (PageSource × Bool × Bool) :=
  (p.declared o).map fun e => (e.source, e.writable, e.populated)

theorem Pager.standing_eq (p : Pager) (o : FrameOwner) :
    p.standing o = (p.outlook.pages o).map PageView.standing := by
  show p.standing o = (p.visible o).map PageView.standing
  rw [standing, visible, Option.map_map]
  refine Option.map_congr fun e _ => ?_
  simp only [Function.comp, PageView.standing, pageView, held, PageEntry.populated]
  cases e.residency <;> simp

/-! ### The walk over the pages -/

/-- How many pages there are from `page` up to `limit`. -/
def pagesUpTo (limit page : Nat) : Nat := (limit - page + (pageSize - 1)) / pageSize

/-- A range that fits in 64 bits touches the pages from its first one up to its end. -/
theorem PageRun.count_spanning {start length : Nat} (hfits : start + length < 2 ^ 64) :
    (spanning start length).count = pagesUpTo (start + length) (pageFloor start) := by
  have hend : saturatingAdd start length = start + length := by
    rw [saturatingAdd_eq]
    omega
  rw [spanning, hend, pagesUpTo]

namespace Piece

/-- A copy that has done `done` of `length` bytes at `start` stands at `page`: the next byte lies
on this page, or there is none and the page lies behind the range. -/
structure StandsAt (start length done page : Nat) : Prop where
  length_pos : 0 < length
  aligned : pageOffset page = 0
  start_lt : start < page + pageSize
  addr_eq : start + done = min (max page start) (start + length)

variable {start length done page : Nat}

theorem standsAt_zero (start : Nat) (h : 0 < length) :
    StandsAt start length 0 (pageFloor start) := by
  have hfloor := pageFloor_add_pageOffset start
  have hlt := pageOffset_lt start
  exact ⟨h, pageOffset_pageFloor start, by omega, by omega⟩

namespace StandsAt

/-- The address of the next piece is the one at which a pin faults its page in. -/
theorem max_eq (h : StandsAt start length done page) (hlt : done < length) :
    max page start = start + done := by
  have := h.addr_eq
  omega

/-- The next piece ends where its page ends, or with the range. -/
theorem next (h : StandsAt start length done page) (hlt : done < length) :
    StandsAt start length (done + (Piece.next start length done).size) (page + pageSize) := by
  obtain ⟨hpos, haligned, hstart, haddr⟩ := h
  have hoffset : pageOffset (start + done) = start + done - page := by
    simp only [pageOffset, pageSize] at *
    omega
  refine ⟨hpos, pageOffset_add_pageSize haligned, by omega, ?_⟩
  simp only [Piece.next, hoffset]
  omega

theorem pagesUpTo_eq (h : StandsAt start length done page) (hlt : done < length) :
    pagesUpTo (start + length) page = pagesUpTo (start + length) (page + pageSize) + 1 := by
  have hmax := h.max_eq hlt
  simp only [pagesUpTo, pageSize]
  omega

theorem pagesUpTo_eq_zero (h : StandsAt start length done page) (hle : length ≤ done) :
    pagesUpTo (start + length) page = 0 := by
  obtain ⟨hpos, -, -, haddr⟩ := h
  have hbehind : start + length - page = 0 := by omega
  rw [pagesUpTo, hbehind]
  rfl

end StandsAt

end Piece

/-! ### Faults and standings -/

/-- Loading a page is a matter of its standing. -/
theorem PageView.load_standing {a b : PageView} (h : a.standing = b.standing)
    (view : Handle → File) : (a.load view).map standing = (b.load view).map standing := by
  obtain ⟨source, writable, contents⟩ := a
  obtain ⟨source', writable', contents'⟩ := b
  simp only [standing, Prod.mk.injEq] at h
  obtain ⟨rfl, rfl, hcontents⟩ := h
  cases contents with
  | none =>
    cases contents' with
    | none => rfl
    | some page' => cases hcontents
  | some page =>
    cases contents' with
    | none => cases hcontents
    | some page' => rfl

namespace Outlook

variable {v v' w w' : Outlook} {a b : PageView}

/-- Two outlooks that differ in what pages hold at most. -/
structure Resembles (v w : Outlook) : Prop where
  layout_eq : v.layout = w.layout
  failing_eq : v.failing = w.failing
  standing_eq : ∀ o, (v.pages o).map PageView.standing = (w.pages o).map PageView.standing

namespace Resembles

theorem refl (v : Outlook) : v.Resembles v := ⟨rfl, rfl, fun _ => rfl⟩

theorem trans {u : Outlook} (h : u.Resembles v) (h' : v.Resembles w) : u.Resembles w :=
  ⟨h.layout_eq.trans h'.layout_eq, h.failing_eq.trans h'.failing_eq,
    fun o => (h.standing_eq o).trans (h'.standing_eq o)⟩

theorem view_eq (h : v.Resembles w) : v.view = w.view := by
  funext handle
  rw [Outlook.view, h.failing_eq, Outlook.view]

theorem setPage (h : v.Resembles w) (hab : a.standing = b.standing) (o : FrameOwner) :
    (v.setPage o (some a)).Resembles (w.setPage o (some b)) := by
  refine ⟨h.layout_eq, h.failing_eq, fun o' => ?_⟩
  by_cases ho : o' = o
  · rw [ho, pages_setPage_self, pages_setPage_self, Option.map_some, Option.map_some, hab]
  · rw [pages_setPage_of_ne v ho, pages_setPage_of_ne w ho, h.standing_eq]

/-- Replacing what a populated page holds does not change its standing. -/
theorem setPage_right {o : FrameOwner} (hpage : v.pages o = some a)
    (hab : a.standing = b.standing) : v.Resembles (v.setPage o (some b)) := by
  have hsame := (refl v).setPage hab o
  rwa [setPage_self v hpage] at hsame

theorem find (h : v.Resembles w) (pid addr esp : Nat) :
    (v.find pid addr esp).1.map PageView.standing = (w.find pid addr esp).1.map PageView.standing ∧
      (v.find pid addr esp).2.Resembles (w.find pid addr esp).2 := by
  have hpage := h.standing_eq ⟨pid, pageFloor addr⟩
  rw [Outlook.find, Outlook.find, h.layout_eq]
  cases hv : v.pages ⟨pid, pageFloor addr⟩ with
  | some a =>
    cases hw : w.pages ⟨pid, pageFloor addr⟩ with
    | some b => exact ⟨by rwa [hv, hw] at hpage, h⟩
    | none => simp [hv, hw] at hpage
  | none =>
    cases hw : w.pages ⟨pid, pageFloor addr⟩ with
    | some b => simp [hv, hw] at hpage
    | none =>
      simp only
      split
      · exact ⟨rfl, h.setPage rfl _⟩
      · exact ⟨rfl, h⟩

/-- A fault is a matter of the standings, and so is what it makes of them. -/
theorem faultIn (h : v.Resembles w) (pid addr esp : Nat) (forWrite : Bool) :
    (v.faultIn pid addr esp forWrite).1.map (fun _ => ())
        = (w.faultIn pid addr esp forWrite).1.map (fun _ => ()) ∧
      (v.faultIn pid addr esp forWrite).2.Resembles (w.faultIn pid addr esp forWrite).2 := by
  obtain ⟨hfound, hafter⟩ := h.find pid addr esp
  rw [Outlook.faultIn, Outlook.faultIn, h.layout_eq]
  split
  · cases hv : v.find pid addr esp with
    | mk found v₁ =>
    cases hw : w.find pid addr esp with
    | mk found' w₁ =>
    rw [hv, hw] at hfound hafter
    cases found with
    | none =>
      cases found' with
      | none => exact ⟨rfl, hafter⟩
      | some b => cases hfound
    | some a =>
      cases found' with
      | none => cases hfound
      | some b =>
        have hstanding : a.standing = b.standing := Option.some.inj hfound
        have hwritable : a.writable = b.writable := congrArg (·.2.1) hstanding
        have hload := PageView.load_standing hstanding w₁.view
        simp only [hwritable, hafter.view_eq]
        split
        · exact ⟨rfl, hafter⟩
        · cases ha : a.load w₁.view with
          | error error =>
            cases hb : b.load w₁.view with
            | error error' =>
              rw [ha, hb] at hload
              cases hload
              exact ⟨rfl, hafter⟩
            | ok b' => simp [ha, hb, Except.map] at hload
          | ok a' =>
            cases hb : b.load w₁.view with
            | error error' => simp [ha, hb, Except.map] at hload
            | ok b' =>
              rw [ha, hb] at hload
              exact ⟨rfl, hafter.setPage (Except.ok.inj hload) _⟩
  · exact ⟨rfl, h⟩

end Resembles

/-- A piece is read where its page can be faulted in. -/
theorem readPiece_faultIn (v : Outlook) (pid : Nat) (piece : Piece) (esp : Nat) :
    (v.faultIn pid piece.addr esp false).1.map (fun _ => ())
        = (v.readPiece pid piece esp).1.map (fun _ => ()) ∧
      (v.faultIn pid piece.addr esp false).2.Resembles (v.readPiece pid piece esp).2 := by
  rw [readPiece]
  rcases v.faultIn pid piece.addr esp false with ⟨_ | page, v'⟩
  · exact ⟨rfl, .refl v'⟩
  · exact ⟨rfl, .refl v'⟩

/-- A piece is written where its page can be faulted in, and the page stays in its standing. -/
theorem writePiece_faultIn (v : Outlook) (pid : Nat) (piece : Piece) (data : Bytes) (esp : Nat) :
    (v.faultIn pid piece.addr esp true).1.map (fun _ => ())
        = (v.writePiece pid piece data esp).1 ∧
      (v.faultIn pid piece.addr esp true).2.Resembles (v.writePiece pid piece data esp).2 := by
  rw [writePiece]
  cases hfault : v.faultIn pid piece.addr esp true with
  | mk seen v' =>
    cases seen with
    | error e => exact ⟨rfl, .refl v'⟩
    | ok page =>
      obtain ⟨found, v₀, -, hload, rfl⟩ := faultIn_eq_ok hfault
      obtain ⟨old, hold⟩ := PageView.contents_of_load hload
      refine ⟨rfl, .setPage_right (pages_setPage_self v₀ _ _) ?_⟩
      simp [PageView.standing, hold]

/-- A range of user memory is faulted in, seen from outside. -/
def touchRange (v : Outlook) (pid start length esp : Nat) (forWrite : Bool) :
    Except FaultError Unit × Outlook :=
  if v.layout.isUserRange start length then
    v.touch pid start esp forWrite (pageFloor start) (pagesUpTo (start + length) (pageFloor start))
  else (.error .kernelAddress, v)

/-- One page of a pin, beside an access to the same address. -/
theorem touch_next {u u' : Outlook} {start length done page pid esp : Nat} {forWrite : Bool}
    {seen : Except FaultError Unit} (hv : v.Resembles u)
    (hat : Piece.StandsAt start length done page) (hlt : done < length)
    (hseen : (u.faultIn pid (start + done) esp forWrite).1.map (fun _ => ()) = seen)
    (hu' : (u.faultIn pid (start + done) esp forWrite).2.Resembles u') :
    ∃ v', v'.Resembles u' ∧
      v.touch pid start esp forWrite page (pagesUpTo (start + length) page) = match seen with
        | .error e => (.error e, v')
        | .ok _ => v'.touch pid start esp forWrite (page + pageSize)
          (pagesUpTo (start + length) (page + pageSize)) := by
  obtain ⟨hsame, hafter⟩ := hv.faultIn pid (start + done) esp forWrite
  refine ⟨(v.faultIn pid (start + done) esp forWrite).2, hafter.trans hu', ?_⟩
  rw [hat.pagesUpTo_eq hlt, touch, hat.max_eq hlt, ← hseen, ← hsame]
  rcases v.faultIn pid (start + done) esp forWrite with ⟨_ | a, v'⟩
  · rfl
  · rfl

end Outlook

namespace PagerM

/-- A copy from user memory goes as far as a pin of the rest of the range does. -/
theorem ensures_readPieces_touch (pid start length esp done page : Nat) (bytes : Bytes)
    (t : Traced) (v : Outlook) (ht : t.pager.Sound) (hv : v.Resembles t.pager.outlook)
    (hat : Piece.StandsAt start length done page) :
    Ensures (readPieces pid start length esp done bytes) (fun r t' => ∃ v',
      v.touch pid start esp false page (pagesUpTo (start + length) page)
        = (r.map fun _ => (), v') ∧ v'.Resembles t'.pager.outlook) t := by
  by_cases hlt : done < length
  · rw [readPieces_of_lt hlt]
    simp only [ensures_bind]
    refine (follows_readPiece pid _ esp t ht).mono ?_
    rintro r t₁ ⟨hpiece, ht₁⟩
    obtain ⟨hsame, hafter⟩ :=
      t.pager.outlook.readPiece_faultIn pid (.next start length done) esp
    rw [Option.some.inj hpiece] at hsame hafter
    obtain ⟨v₁, hv₁, htouch⟩ := Outlook.touch_next hv hat hlt hsame hafter
    rw [htouch]
    cases r with
    | error e => exact ensures_pure.2 ⟨v₁, rfl, hv₁⟩
    | ok found =>
      have := Piece.next_size_pos start hlt
      exact ensures_readPieces_touch pid start length esp _ _ _ t₁ v₁ ht₁ hv₁ (hat.next hlt)
  · rw [readPieces_of_le (Nat.le_of_not_lt hlt), hat.pagesUpTo_eq_zero (Nat.le_of_not_lt hlt)]
    exact ensures_pure.2 ⟨v, rfl, hv⟩
  termination_by length - done

/-- And so does a copy to user memory. -/
theorem ensures_writePieces_touch (pid start : Nat) (data : Bytes) (esp done page : Nat)
    (t : Traced) (v : Outlook) (ht : t.pager.Sound) (hv : v.Resembles t.pager.outlook)
    (hat : Piece.StandsAt start data.size done page) :
    Ensures (writePieces pid start data esp done) (fun r t' => ∃ v',
      v.touch pid start esp true page (pagesUpTo (start + data.size) page) = (r, v') ∧
        v'.Resembles t'.pager.outlook) t := by
  by_cases hlt : done < data.size
  · rw [writePieces_of_lt hlt]
    simp only [ensures_bind]
    refine (follows_writePiece pid _ data esp t ht).mono ?_
    rintro r t₁ ⟨hpiece, ht₁⟩
    obtain ⟨hsame, hafter⟩ :=
      t.pager.outlook.writePiece_faultIn pid (.next start data.size done) data esp
    rw [Option.some.inj hpiece] at hsame hafter
    obtain ⟨v₁, hv₁, htouch⟩ := Outlook.touch_next hv hat hlt hsame hafter
    rw [htouch]
    cases r with
    | error e => exact ensures_pure.2 ⟨v₁, rfl, hv₁⟩
    | ok _ =>
      have := Piece.next_size_pos start hlt
      exact ensures_writePieces_touch pid start data esp _ _ t₁ v₁ ht₁ hv₁ (hat.next hlt)
  · rw [writePieces_of_le (Nat.le_of_not_lt hlt), hat.pagesUpTo_eq_zero (Nat.le_of_not_lt hlt)]
    exact ensures_pure.2 ⟨v, rfl, hv⟩
  termination_by data.size - done

/-! ### The three requests -/

theorem ensures_pin_touchRange {pid start length esp : Nat} {forWrite : Bool} {t : Traced}
    (hlength : 0 < length) (ht : t.pager.Sound) :
    Ensures (Pager.pin pid start length esp forWrite) (fun r t' =>
      t.pager.outlook.touchRange pid start length esp forWrite = (r, t'.pager.outlook)) t := by
  have hrange : t.pager.outlook.layout.isUserRange start length
      = t.pager.config.isUserRange start length := rfl
  rw [Pager.pin, Outlook.touchRange, hrange]
  simp only [ensures_bind, ensures_pager, ensures_ite, ensures_pure]
  refine ⟨fun h => absurd h (Nat.ne_of_gt hlength), fun _ => ⟨fun huser => ?_, fun hkernel => ?_⟩⟩
  · rw [if_pos huser, PageRun.count_spanning (isUserRange_iff.1 huser).1]
    exact ensures_pinPages_touch _ _ _ _ _ _ _ t ht
  · rw [if_neg hkernel]

theorem ensures_copyFromUser_touchRange {pid start length esp : Nat} {t : Traced}
    (hlength : 0 < length) (ht : t.pager.Sound) :
    Ensures (Pager.copyFromUser pid start length esp) (fun r t' => ∃ v,
      t.pager.outlook.touchRange pid start length esp false = (r.map fun _ => (), v) ∧
        v.Resembles t'.pager.outlook) t := by
  have hrange : t.pager.outlook.layout.isUserRange start length
      = t.pager.config.isUserRange start length := rfl
  rw [Pager.copyFromUser, Outlook.touchRange, hrange]
  simp only [ensures_bind, ensures_pager, ensures_ite, ensures_lift, ensures_pure]
  constructor
  · intro huser _ _
    rw [if_pos huser]
    exact ensures_readPieces_touch pid start length esp 0 _ _ t _ ht (.refl _)
      (Piece.standsAt_zero start hlength)
  · intro hkernel
    rw [if_neg hkernel]
    exact ⟨_, rfl, .refl _⟩

theorem ensures_copyToUser_touchRange {pid start esp : Nat} {data : Bytes} {t : Traced}
    (hdata : 0 < data.size) (ht : t.pager.Sound) :
    Ensures (Pager.copyToUser pid start data esp) (fun r t' => ∃ v,
      t.pager.outlook.touchRange pid start data.size esp true = (r, v) ∧
        v.Resembles t'.pager.outlook) t := by
  have hrange : t.pager.outlook.layout.isUserRange start data.size
      = t.pager.config.isUserRange start data.size := rfl
  rw [Pager.copyToUser, Outlook.touchRange, hrange]
  simp only [ensures_bind, ensures_pager, ensures_ite, ensures_pure]
  constructor
  · intro huser
    rw [if_pos huser]
    exact ensures_writePieces_touch pid start data esp 0 _ t _ ht (.refl _)
      (Piece.standsAt_zero start hdata)
  · intro hkernel
    rw [if_neg hkernel]
    exact ⟨_, rfl, .refl _⟩

end PagerM

namespace Pager

theorem standing_of_resembles {p q : Pager} (h : p.outlook.Resembles q.outlook) :
    p.standing = q.standing := by
  funext o
  rw [standing_eq, standing_eq, h.standing_eq]

/-- A pin and a copy of the same range, from the same state, after any run where the page tables
refuse nothing: if they end, they answer the same, and they leave the same pages declared and the
same pages populated. -/
theorem pin_agrees_with_copies {config : Config} {device : Block} {ops : List Op}
    {answers : List Answer} {t : Traced} (hdevice : device.size ≤ 2 ^ 32)
    (hops : ∀ op ∈ ops, op.plans = false)
    (h : (run ops).run (.start config device) = .ok answers t) (pid start esp : Nat) {size : Nat}
    (hsize : 0 < size) :
    (∀ pinned u copied w, (pin pid start size esp false).run t = .ok pinned u →
      (copyFromUser pid start size esp).run t = .ok copied w →
      copied.map (fun _ => ()) = pinned ∧ w.pager.standing = u.pager.standing) ∧
    (∀ data : Bytes, data.size = size → ∀ pinned u copied w,
      (pin pid start size esp true).run t = .ok pinned u →
      (copyToUser pid start data esp).run t = .ok copied w →
      copied = pinned ∧ w.pager.standing = u.pager.standing) := by
  have ht : t.pager.Sound := (PagerM.ensures_run ops _ answers t h).sound
    (fun _ ⟨op, hop, hchange⟩ => (op.ne_plan (hops op hop) hchange)) (sound_ofConfig config hdevice)
  constructor
  · intro pinned u copied w hpin hcopy
    have hpinned := PagerM.ensures_pin_touchRange hsize ht pinned u hpin
    obtain ⟨v, hcopied, hafter⟩ :=
      PagerM.ensures_copyFromUser_touchRange hsize ht copied w hcopy
    rw [hpinned, Prod.mk.injEq] at hcopied
    obtain ⟨hsame, rfl⟩ := hcopied
    exact ⟨hsame.symm, (standing_of_resembles hafter).symm⟩
  · rintro data rfl pinned u copied w hpin hcopy
    have hpinned := PagerM.ensures_pin_touchRange hsize ht pinned u hpin
    obtain ⟨v, hcopied, hafter⟩ :=
      PagerM.ensures_copyToUser_touchRange hsize ht copied w hcopy
    rw [hpinned, Prod.mk.injEq] at hcopied
    obtain ⟨hsame, rfl⟩ := hcopied
    exact ⟨hsame.symm, (standing_of_resembles hafter).symm⟩

/-- Three bytes across a page boundary, where the second page is read-only: a pin for writing and
a copy to user memory fail on it, with the first page populated. -/
theorem pin_agrees_with_copies_across : ∃ answers t,
    (run [.register 1, .declareZero 1 0x1000 true, .declareZero 1 0x2000 false]).run
        (.start { userFrames := 1 } (.attach .swap "swap" (.ram (.blank 64)))) = .ok answers t ∧
    ∃ pinned u, (pin 1 0x1ffe 3 0 true).run t = .ok pinned u ∧ ∃ copied w,
      (copyToUser 1 0x1ffe #[1, 2, 3] 0).run t = .ok copied w ∧
        pinned = .error .readOnly ∧ copied = pinned ∧ w.pager.standing = u.pager.standing := by
  have hrun : ∃ answers t,
      (run [.register 1, .declareZero 1 0x1000 true, .declareZero 1 0x2000 false]).run
          (.start { userFrames := 1 } (.attach .swap "swap" (.ram (.blank 64)))) = .ok answers t ∧
      (∃ pinned u, (pin 1 0x1ffe 3 0 true).run t = .ok pinned u ∧ pinned = .error .readOnly) ∧
        PagerM.Ends (copyToUser 1 0x1ffe #[1, 2, 3] 0) t := by
    decide +kernel
  obtain ⟨answers, t, h, ⟨pinned, u, hpin, herror⟩, copied, w, hcopy⟩ := hrun
  have hsize : 0 < 3 := by decide
  have hagree := (pin_agrees_with_copies (by decide) (by decide) h 1 0x1ffe 0 hsize).2
  exact ⟨answers, t, h, pinned, u, hpin, copied, w, hcopy, herror,
    hagree #[1, 2, 3] rfl pinned u copied w hpin hcopy⟩

end Pager

end DemandPaging
