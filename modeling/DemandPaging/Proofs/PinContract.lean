import DemandPaging.Proofs.PinRanges
import DemandPaging.Proofs.Teardown
import DemandPaging.Proofs.Translation

/-!
# The contract of pinning

A caller that pins a range has to take the same pins off again, and must not tear a page down that
it still has pinned. As long as all callers do so, pins do what they are for: a pinned page stays in
its frame and keeps its translation, a frame has one pin for every range that covers its page, and
every pin can be taken off. Requests that pin for their own use leave no pin behind, whether they
succeed or not.

## Main definitions

* `Op.outstanding`, `outstanding` — the ranges that are pinned, by the requests and their answers.
* `Op.Respects`, `Pager.RespectsPins` — the callers' part of the contract.
* `Pager.KeepsPins` — the pager's part of it.

## Main results

* `PagerM.ensures_perform_holdsPins` — a request that respects the pins keeps the books on them.
* `Pager.pins_of_run` — the contract, for every run.
-/

namespace DemandPaging

/-- The ranges that are pinned after a request, when those in `ranges` were pinned before. -/
def Op.outstanding (op : Op) (answer : Answer) (ranges : List PinnedRange) : List PinnedRange :=
  match op with
  | .pin pid start size _ _ => if answer.isResolved then ⟨pid, start, size⟩ :: ranges else ranges
  | .unpin pid start size => ranges.erase ⟨pid, start, size⟩
  | _ => ranges

/-- The ranges that are pinned after requests with these answers, when those in `ranges` were
pinned before. -/
def outstanding (events : List (Op × Answer)) (ranges : List PinnedRange) : List PinnedRange :=
  events.foldl (fun ranges event => event.1.outstanding event.2 ranges) ranges

/-- What the callers owe to the pins that are outstanding: they unpin what was pinned, and tear no
page down that is pinned. -/
def Op.Respects (op : Op) (ranges : List PinnedRange) (p : Pager) : Prop :=
  match op with
  | .unpin pid start size => ⟨pid, start, size⟩ ∈ ranges
  | .destroy pid => ∀ r ∈ ranges, r.pid = pid → r.size = 0
  | .unmapFile pid id => ∀ m ∈ p.processes[pid]?.bind fun pr => pr.mappings.live[id]?,
    ∀ r ∈ ranges, ∀ page ∈ m.pages.toList, r.covers ⟨pid, page⟩ = false
  | _ => True

instance (op : Op) (ranges : List PinnedRange) (p : Pager) : Decidable (op.Respects ranges p) :=
  match op with
  | .unpin pid start size => inferInstanceAs (Decidable (⟨pid, start, size⟩ ∈ ranges))
  | .destroy pid => inferInstanceAs (Decidable (∀ r ∈ ranges, r.pid = pid → r.size = 0))
  | .unmapFile pid id => inferInstanceAs (Decidable
      (∀ m ∈ p.processes[pid]?.bind fun pr => pr.mappings.live[id]?,
        ∀ r ∈ ranges, ∀ page ∈ m.pages.toList, r.covers ⟨pid, page⟩ = false))
  | .register .. | .refuse .. | .refuseBy .. | .failReads .. | .declareZero ..
  | .tryDeclareZero .. | .declareImage .. | .tryDeclareImage .. | .loadElf .. | .pageFault ..
  | .interrupt .. | .validAddress .. | .pin .. | .copyFromUser .. | .copyToUser ..
  | .mapFile .. => isTrue trivial

/-- Every request of a run that starts at `t` respects the pins that are outstanding when it is
made. -/
def Pager.RespectsPins : List Op → List PinnedRange → Traced → Prop
  | [], _, _ => True
  | op :: rest, ranges, t => op.Respects ranges t.pager ∧
    ∀ answer t', (Pager.perform op).run t = .ok answer t' →
      RespectsPins rest (op.outstanding answer ranges) t'

/-- Whether a run respects the pins can be found out by running it. -/
def Pager.decideRespectsPins :
    (ops : List Op) → (ranges : List PinnedRange) → (t : Traced) →
      Decidable (Pager.RespectsPins ops ranges t)
  | [], _, _ => isTrue trivial
  | op :: rest, ranges, t =>
    have : Decidable (∀ answer t', (Pager.perform op).run t = .ok answer t' →
        RespectsPins rest (op.outstanding answer ranges) t') :=
      match h : (Pager.perform op).run t with
      | .ok answer t' =>
        have := decideRespectsPins rest (op.outstanding answer ranges) t'
        decidable_of_iff (RespectsPins rest (op.outstanding answer ranges) t') (by simp)
      | .error _ _ => isTrue (by simp)
    inferInstanceAs (Decidable (_ ∧ _))

instance (ops : List Op) (ranges : List PinnedRange) (t : Traced) :
    Decidable (Pager.RespectsPins ops ranges t) := Pager.decideRespectsPins ops ranges t

namespace Pager

variable {p p' : Pager} {config : Config} {slots : Nat} {pins pins' : List PagePin}
  {ranges ranges' : List PinnedRange} {o : FrameOwner}

/-- The tables map exactly the resident pages, all of which lie within their reach. -/
theorem Steps.tables {kinds : Change → Prop} (h : Steps kinds p p') (ho : Owned config slots p)
    (hp : p.All fun pr => pr.Charted ∧ pr.WithinReach) :
    p'.All fun pr => pr.Charted ∧ pr.WithinReach := by
  refine h.keeps_owned ho ?_ hp
  intro change q q' _ hstep ho hq
  refine hstep.all ⟨.fresh, .fresh⟩ ?_ ho hq
  exact fun pr pr' hpr hturn => ⟨hturn.charted hpr.1, hturn.withinReach hpr.1 hpr.2⟩

/-- An address on a resident page translates into its frame. -/
theorem translate_of_resident (hp : p.All fun pr => pr.Charted ∧ pr.WithinReach) {pid v f : Nat}
    (h : p.residency ⟨pid, pageFloor v⟩ = some (.resident f)) :
    p.translate pid v = .ok (some (poolBase + f * pageSize + pageOffset v)) := by
  obtain ⟨e, he, hres⟩ := residency_eq_some.1 h
  obtain ⟨pr, hpr, hlookup⟩ := Option.bind_eq_some_iff.1 he
  have hframe : e.frame? = some f := frame_eq_some.2 hres
  have hreach : pageFloor v < 2 ^ 32 := by
    refine (hp pid pr hpr).2 _ ?_
    rw [hlookup, PageEntry.mapping, Option.bind_some, hframe]
    rfl
  have hv : v < 2 ^ 32 := by
    simp only [pageFloor, pageSize] at hreach
    omega
  have hcharted : p.Charted := fun pid pr hpr => (hp pid pr hpr).1
  rw [hcharted.translate_eq hpr hv, PageMap.lookup, hlookup, Option.bind_some, hframe]
  rfl

/-- The number of pins on the frame of a page, if it is in one. -/
def pinsOn (p : Pager) (o : FrameOwner) : Nat :=
  match p.residency o with
  | some (.resident f) => p.frames.pinsOf f
  | _ => 0

/-- The pins on a page are those that were taken for it. -/
theorem Owned.pinsOn_eq (ho : Owned config slots p) (hpins : p.frames.PinnedBy pins) :
    p.pinsOn o = (pins.map PagePin.owner).count o := by
  have hnone : (∀ f, p.residency o ≠ some (.resident f)) →
      0 = (pins.map PagePin.owner).count o := by
    intro hres
    refine (List.count_eq_zero.2 fun ho' => ?_).symm
    obtain ⟨a, ha, rfl⟩ := List.mem_map.1 ho'
    exact hres a.frame (ho.residency_eq (hpins.ownerOf_eq a ha))
  cases hres : p.residency o with
  | none => rw [pinsOn, hres, ← hnone (by simp [hres])]
  | some x =>
    cases x with
    | resident f =>
      rw [pinsOn, hres]
      exact ho.pinsOf_eq hpins (ho.ownerOf_eq hres)
    | swapped s => rw [pinsOn, hres, ← hnone (by simp [hres])]
    | notPopulated => rw [pinsOn, hres, ← hnone (by simp [hres])]

/-- A page that is held by one pin at two moments is in the same frame. -/
theorem Owned.residency_of_pin (ho : Owned config slots p) (ho' : Owned config slots p')
    (hpins : p.frames.PinnedBy pins) (hpins' : p'.frames.PinnedBy pins') {a : PagePin}
    (ha : a ∈ pins) (ha' : a ∈ pins') :
    p.residency a.owner = some (.resident a.frame) ∧
      p'.residency a.owner = some (.resident a.frame) :=
  ⟨ho.residency_eq (hpins.ownerOf_eq a ha), ho'.residency_eq (hpins'.ownerOf_eq a ha')⟩

theorem HoldsPins.congr (h : p.HoldsPins ranges pins) (hpins : p'.frames.PinnedBy pins) :
    p'.HoldsPins ranges pins := ⟨hpins, h.owners_perm, h.fits⟩

/-- The page of a pin is on a page boundary, and some range covers it. -/
theorem HoldsPins.exists_covers (h : p.HoldsPins ranges pins) (ho : Owned config slots p)
    {a : PagePin} (ha : a ∈ pins) : ∃ r ∈ ranges, r.covers a.owner = true := by
  have haligned : pageOffset a.owner.page = 0 := ho.aligned a.owner (by
    obtain ⟨e, he, -⟩ := residency_eq_some.1 (ho.residency_eq (h.pinnedBy.ownerOf_eq a ha))
    rw [he]
    rfl)
  obtain ⟨r, hr, hpage⟩ := List.mem_flatMap.1
    (h.owners_perm.mem_iff.1 (List.mem_map_of_mem (f := PagePin.owner) ha))
  exact ⟨r, hr, (PinnedRange.mem_pages (h.fits r hr) haligned).1 hpage⟩

end Pager

namespace PagerM

open Pager (Owned HoldsPins Steps Change)

variable {config : Config} {slots pid addr esp : Nat} {pins : List PagePin} {t : Traced}

/-! ### Requests that neither pin nor unpin -/

theorem ensures_readPieces_pinnedBy (pid start length esp done : Nat) (bytes : Bytes) (t : Traced)
    (ho : Owned config slots t.pager) (hpins : t.pager.frames.PinnedBy pins) :
    Ensures (readPieces pid start length esp done bytes)
      (fun _ t' => t'.pager.frames.PinnedBy pins) t := by
  by_cases h : done < length
  · rw [readPieces_of_lt h]
    simp only [ensures_bind]
    refine (ensures_readPiece pid _ esp t).mono ?_
    intro r t₁ hpiece
    have hpins₁ := hpiece.pinnedBy ho hpins
    cases r with
    | error e => exact ensures_pure.2 hpins₁
    | ok found =>
      have := Piece.next_size_pos start h
      exact ensures_readPieces_pinnedBy pid start length esp _ _ t₁
        (hpiece.attempts.steps.owned ho) hpins₁
  · rw [readPieces_of_le (Nat.le_of_not_lt h)]
    exact ensures_pure.2 hpins
  termination_by length - done

theorem ensures_writePieces_pinnedBy (pid start : Nat) (data : Bytes) (esp done : Nat) (t : Traced)
    (ho : Owned config slots t.pager) (hpins : t.pager.frames.PinnedBy pins) :
    Ensures (writePieces pid start data esp done)
      (fun _ t' => t'.pager.frames.PinnedBy pins) t := by
  by_cases h : done < data.size
  · rw [writePieces_of_lt h]
    simp only [ensures_bind]
    refine (ensures_writePiece pid _ data esp t).mono ?_
    intro r t₁ hpiece
    have hpins₁ := hpiece.pinnedBy ho hpins
    cases r with
    | error e => exact ensures_pure.2 hpins₁
    | ok _ =>
      have := Piece.next_size_pos start h
      exact ensures_writePieces_pinnedBy pid start data esp _ t₁
        (hpiece.attempts.steps.owned ho) hpins₁
  · rw [writePieces_of_le (Nat.le_of_not_lt h)]
    exact ensures_pure.2 hpins
  termination_by data.size - done

theorem ensures_copyFromUser_pinnedBy (pid start length esp : Nat) (t : Traced)
    (ho : Owned config slots t.pager) (hpins : t.pager.frames.PinnedBy pins) :
    Ensures (Pager.copyFromUser pid start length esp)
      (fun _ t' => t'.pager.frames.PinnedBy pins) t := by
  rw [Pager.copyFromUser]
  simp only [ensures_bind, ensures_pager, ensures_ite, ensures_pure, ensures_lift]
  exact ⟨fun _ _ _ => ensures_readPieces_pinnedBy _ _ _ _ _ _ t ho hpins, fun _ => hpins⟩

theorem ensures_copyToUser_pinnedBy (pid start : Nat) (data : Bytes) (esp : Nat) (t : Traced)
    (ho : Owned config slots t.pager) (hpins : t.pager.frames.PinnedBy pins) :
    Ensures (Pager.copyToUser pid start data esp)
      (fun _ t' => t'.pager.frames.PinnedBy pins) t := by
  rw [Pager.copyToUser]
  simp only [ensures_bind, ensures_pager, ensures_ite, ensures_pure]
  exact ⟨fun _ => ensures_writePieces_pinnedBy _ _ _ _ _ t ho hpins, fun _ => hpins⟩

theorem ensures_pageFault_pinnedBy (pid addr esp : Nat) (t : Traced)
    (ho : Owned config slots t.pager) (hpins : t.pager.frames.PinnedBy pins) :
    Ensures (Pager.pageFault pid addr esp) (fun _ t' => t'.pager.frames.PinnedBy pins) t := by
  rw [Pager.pageFault]
  simp only [ensures_bind, ensures_emit, ensures_pure]
  exact (ensures_faultIn pid addr esp false _).mono fun _ _ h => h.pinnedBy ho hpins

theorem ensures_handlePageFault_pinnedBy (pid addr esp : Nat) (code : FaultCode) (t : Traced)
    (ho : Owned config slots t.pager) (hpins : t.pager.frames.PinnedBy pins) :
    Ensures (Pager.handlePageFault pid addr esp code)
      (fun _ t' => t'.pager.frames.PinnedBy pins) t := by
  rw [Pager.handlePageFault]
  simp only [ensures_bind, ensures_emit, ensures_ite, ensures_pure]
  refine ⟨fun _ => hpins, fun _ => ?_⟩
  refine (ensures_pageFault_pinnedBy pid addr esp
    ⟨t.pager, t.log.push (.trapped pid addr code)⟩ ho hpins).mono ?_
  intro r t₁ hpins₁
  cases r with
  | error e => simpa only [ensures_bind, ensures_emit, ensures_pure] using hpins₁
  | ok _ => exact ensures_pure.2 hpins₁

theorem ensures_validAddress_frames (pid addr esp : Nat) (forWrite : Bool) (t : Traced) :
    Ensures (Pager.validAddress pid addr esp forWrite)
      (fun _ t' => t'.pager.frames = t.pager.frames) t := by
  rw [Pager.validAddress]
  simp only [ensures_bind, ensures_pager, ensures_ite, ensures_pure, implies_true, true_and]
  intro _
  refine (ensures_findOrGrow pid addr esp t).mono ?_
  intro found t₁ hfinds
  cases found with
  | none => exact ensures_pure.2 hfinds.frames_eq
  | some e => exact ensures_pure.2 hfinds.frames_eq

/-! ### Requests that take pages away -/

theorem ensures_destroy_pinnedBy {ranges : List PinnedRange} (ho : Owned config slots t.pager)
    (h : t.pager.HoldsPins ranges pins) (hrespects : (Op.destroy pid).Respects ranges t.pager) :
    Ensures (Pager.destroy pid) (fun _ t' => t'.pager.frames.PinnedBy pins) t := by
  refine ((ensures_destroy pid t).and (ensures_destroy_processes pid t)).mono ?_
  rintro _ t' ⟨hsteps, hprocesses⟩
  refine hsteps.pinnedBy_of_shrink ho h.pinnedBy fun a ha => ?_
  -- a process with a pinned page is not the one that goes
  obtain ⟨r, hr, hcovers⟩ := h.exists_covers ho ha
  have hpid : pid ≠ a.owner.pid := by
    rintro rfl
    simp only [PinnedRange.covers, decide_eq_true_eq] at hcovers
    have := hrespects r hr hcovers.1.symm
    omega
  have hsame : t'.pager.declared a.owner = t.pager.declared a.owner := by
    rw [Pager.declared, hprocesses, Std.ExtTreeMap.getElem?_erase, if_neg (by simpa using hpid)]
    rfl
  rw [hsame]
  exact ho.declared_of_pin h.pinnedBy ha

theorem ensures_unmapFile_pinnedBy {id : Nat} {ranges : List PinnedRange}
    (ho : Owned config slots t.pager) (h : t.pager.HoldsPins ranges pins)
    (hrespects : (Op.unmapFile pid id).Respects ranges t.pager) :
    Ensures (Pager.unmapFile pid id) (fun _ t' => t'.pager.frames.PinnedBy pins) t := by
  cases hpr : t.pager.processes[pid]? with
  | none =>
    rw [Pager.unmapFile]
    simp only [ensures_bind, ensures_process, hpr]
    simp
  | some pr =>
    cases hm : pr.mappings.live[id]? with
    | none =>
      rw [Pager.unmapFile]
      simp only [ensures_bind, ensures_process, hpr, Option.some.injEq, forall_eq',
        MappingTable.remove, hm]
      simp
    | some m =>
      refine ((ensures_unmapFile pid id t).and (ensures_unmapFile_declared hpr hm)).mono ?_
      rintro _ t' ⟨hsteps, hdeclared⟩
      refine hsteps.pinnedBy_of_shrink ho h.pinnedBy fun a ha => ?_
      -- a pinned page is not one of the mapping's
      obtain ⟨r, hr, hcovers⟩ := h.exists_covers ho ha
      rw [hdeclared, if_neg]
      · exact ho.declared_of_pin h.pinnedBy ha
      · rintro ⟨rfl, hpage⟩
        have hlive : m ∈ t.pager.processes[a.owner.pid]?.bind fun pr => pr.mappings.live[id]? := by
          rw [hpr]
          exact hm
        rw [hrespects m hlive r hr a.owner.page hpage] at hcovers
        simp at hcovers

/-! ### All requests -/

/-- A request that respects the pins that are outstanding takes, or takes off, those of its range
and leaves the others. -/
theorem ensures_perform_holdsPins {op : Op} {ranges : List PinnedRange}
    (ho : Owned config slots t.pager) (h : t.pager.HoldsPins ranges pins)
    (hrespects : op.Respects ranges t.pager) :
    Ensures (Pager.perform op) (fun answer t' => ∃ pins',
      t'.pager.HoldsPins (op.outstanding answer ranges) pins' ∧ (pins ⊆ pins' ∨ pins' ⊆ pins))
      t := by
  have hsame : ∀ {p' : Pager}, p'.frames.PinnedBy pins →
      ∃ pins', p'.HoldsPins ranges pins' ∧ (pins ⊆ pins' ∨ pins' ⊆ pins) :=
    fun hpins => ⟨pins, h.congr hpins, .inl fun _ ha => ha⟩
  have hframes : ∀ {p' : Pager}, p'.frames = t.pager.frames →
      ∃ pins', p'.HoldsPins ranges pins' ∧ (pins ⊆ pins' ∨ pins' ⊆ pins) :=
    fun heq => hsame (heq ▸ h.pinnedBy)
  cases op with
  | register pid =>
    simp only [Pager.perform, ensures_bind, ensures_pure]
    refine (ensures_register_fresh pid t).mono ?_
    rintro _ t' ⟨-, hpager⟩
    rw [hpager]
    exact hframes rfl
  | destroy pid =>
    simp only [Pager.perform, ensures_bind, ensures_pure]
    exact (ensures_destroy_pinnedBy ho h hrespects).mono fun _ _ => hsame
  | refuse pid refusing =>
    simp only [Pager.perform, Pager.refuse, Pager.refuseBy, ensures_bind, ensures_update,
      ensures_pure]
    exact hframes rfl
  | refuseBy pid refuses =>
    simp only [Pager.perform, Pager.refuseBy, ensures_bind, ensures_update, ensures_pure]
    exact hframes rfl
  | failReads file failing =>
    simp only [Pager.perform, Pager.failReads, ensures_bind, ensures_update, ensures_pure]
    exact hframes rfl
  | declareZero pid page writable =>
    simp only [Pager.perform, Pager.declareZero, Pager.tryDeclareZero, ensures_bind, ensures_ite,
      ensures_pure, ensures_throw, implies_true, and_true]
    exact (ensures_tryDeclare pid page (.self .zero) writable t).mono fun _ _ hsteps _ =>
      hframes hsteps.frames_of_declares
  | tryDeclareZero pid page writable =>
    simp only [Pager.perform, Pager.tryDeclareZero, ensures_bind, ensures_pure]
    exact (ensures_tryDeclare pid page (.self .zero) writable t).mono fun _ _ hsteps =>
      hframes hsteps.frames_of_declares
  | declareImage pid page file offset read writable =>
    simp only [Pager.perform, Pager.declareImage, Pager.tryDeclareImage, ensures_bind,
      ensures_pager, ensures_ite, ensures_pure, ensures_throw, implies_true, and_true]
    exact (ensures_tryDeclare pid page (.image file _ _) _ t).mono fun _ _ hsteps _ =>
      hframes hsteps.frames_of_declares
  | tryDeclareImage pid page file offset read writable =>
    simp only [Pager.perform, Pager.tryDeclareImage, ensures_bind, ensures_pager, ensures_pure]
    exact (ensures_tryDeclare pid page (.image file _ _) _ t).mono fun _ _ hsteps =>
      hframes hsteps.frames_of_declares
  | loadElf pid file =>
    simp only [Pager.perform, ensures_bind, ensures_pure]
    exact (ensures_loadElf pid file t).mono fun _ _ hsteps => hframes hsteps.frames_of_declares
  | pageFault pid addr esp =>
    simp only [Pager.perform, ensures_bind, ensures_pure]
    exact (ensures_pageFault_pinnedBy pid addr esp t ho h.pinnedBy).mono fun _ _ => hsame
  | interrupt pid addr esp code =>
    simp only [Pager.perform, ensures_bind, ensures_pure]
    exact (ensures_handlePageFault_pinnedBy pid addr esp code t ho h.pinnedBy).mono fun _ _ => hsame
  | validAddress pid addr esp forWrite =>
    simp only [Pager.perform, ensures_bind, ensures_pure]
    exact (ensures_validAddress_frames pid addr esp forWrite t).mono fun _ _ => hframes
  | pin pid start size esp forWrite =>
    simp only [Pager.perform, ensures_bind, ensures_pure]
    refine (ensures_pin_pinnedBy pid start size esp forWrite t ho h.pinnedBy).mono ?_
    intro result t' hresult
    cases result with
    | error e => exact hsame hresult
    | ok _ =>
      obtain ⟨more, hheld, howners, hfits⟩ := hresult
      refine ⟨more ++ pins, ⟨hheld, ?_, ?_⟩, .inl (List.subset_append_right _ _)⟩
      · rw [List.map_append, howners]
        exact h.owners_perm.append_left _
      · exact List.forall_mem_cons.2 ⟨hfits, h.fits⟩
  | unpin pid start size =>
    simp only [Pager.perform, ensures_bind, ensures_pure]
    refine (meets_unpin ho h hrespects).ensures.mono ?_
    rintro _ t' ⟨left, hsub, hheld⟩
    exact ⟨left, hheld, .inr hsub⟩
  | copyFromUser pid start length esp =>
    simp only [Pager.perform, ensures_bind, ensures_pure]
    exact (ensures_copyFromUser_pinnedBy pid start length esp t ho h.pinnedBy).mono fun _ _ => hsame
  | copyToUser pid start data esp =>
    simp only [Pager.perform, ensures_bind, ensures_pure]
    exact (ensures_copyToUser_pinnedBy pid start data esp t ho h.pinnedBy).mono fun _ _ => hsame
  | mapFile pid file addr =>
    simp only [Pager.perform, ensures_bind, ensures_pure]
    exact (ensures_mapFile pid file addr t).mono fun _ _ hsteps =>
      hframes hsteps.frames_of_declares
  | unmapFile pid id =>
    simp only [Pager.perform, ensures_bind, ensures_pure]
    exact (ensures_unmapFile_pinnedBy ho h hrespects).mono fun _ _ => hsame

/-! ### Runs -/

theorem ensures_run_holdsPins (ops : List Op) {ranges : List PinnedRange} (t : Traced)
    (ho : Owned config slots t.pager) (h : t.pager.HoldsPins ranges pins)
    (hrespects : Pager.RespectsPins ops ranges t) :
    Ensures (Pager.run ops) (fun answers t' => ∃ pins',
      t'.pager.HoldsPins (outstanding (ops.zip answers) ranges) pins') t := by
  induction ops generalizing ranges pins t with
  | nil =>
    rw [Pager.run]
    exact ensures_pure.2 ⟨pins, h⟩
  | cons op rest ih =>
    obtain ⟨hop, hrest⟩ := hrespects
    rw [Pager.run]
    simp only [ensures_bind, ensures_pure]
    intro answer t₁ hrun
    obtain ⟨pins₁, h₁, -⟩ := ensures_perform_holdsPins ho h hop answer t₁ hrun
    have ho₁ := (ensures_perform op t answer t₁ hrun).steps.owned ho
    exact ih t₁ ho₁ h₁ (hrest answer t₁ hrun)

/-- A page that some range covers all through a run is in the same frame before and after. -/
theorem exists_frame_of_covered (ops : List Op) {ranges : List PinnedRange}
    {answers : List Answer} {t t' : Traced} {o : FrameOwner} (ho : Owned config slots t.pager)
    (h : t.pager.HoldsPins ranges pins) (hrespects : Pager.RespectsPins ops ranges t)
    (haligned : pageOffset o.page = 0) (hrun : (Pager.run ops).run t = .ok answers t')
    (hcovered : ∀ m, ∃ r ∈ outstanding ((ops.zip answers).take m) ranges, r.covers o = true) :
    ∃ f, t.pager.residency o = some (.resident f) ∧ t'.pager.residency o = some (.resident f) := by
  induction ops generalizing ranges pins t answers with
  | nil =>
    obtain ⟨r, hr, hcovers⟩ := hcovered 0
    obtain ⟨a, ha, rfl⟩ := h.exists_pin hr haligned hcovers
    have hres := ho.residency_eq (h.pinnedBy.ownerOf_eq a ha)
    rw [Pager.run] at hrun
    cases hrun
    exact ⟨a.frame, hres, hres⟩
  | cons op rest ih =>
    obtain ⟨hop, hrest⟩ := hrespects
    rw [Pager.run] at hrun
    obtain ⟨answer, t₁, hperform, hrun⟩ := run_bind_eq_ok.1 hrun
    obtain ⟨later, t₂, hrun, heq⟩ := run_bind_eq_ok.1 hrun
    cases heq
    obtain ⟨pins₁, h₁, hsub⟩ := ensures_perform_holdsPins ho h hop answer t₁ hperform
    have ho₁ := (ensures_perform op t answer t₁ hperform).steps.owned ho
    -- the pin that is held before and after the request holds the page in its frame
    have hpin : ∃ a ∈ pins, a ∈ pins₁ ∧ a.owner = o := by
      obtain ⟨r, hr, hcovers⟩ := hcovered 0
      obtain ⟨a, ha, hao⟩ := h.exists_pin hr haligned hcovers
      obtain ⟨r₁, hr₁, hcovers₁⟩ := hcovered 1
      obtain ⟨b, hb, hbo⟩ := h₁.exists_pin hr₁ haligned hcovers₁
      rcases hsub with hsub | hsub
      · exact ⟨a, ha, hsub ha, hao⟩
      · exact ⟨b, hsub hb, hb, hbo⟩
    obtain ⟨a, ha, ha₁, rfl⟩ := hpin
    obtain ⟨hres, hres₁⟩ := ho.residency_of_pin ho₁ h.pinnedBy h₁.pinnedBy ha ha₁
    obtain ⟨f, hf, hf'⟩ := ih ho₁ h₁ (hrest answer t₁ hperform) hrun fun m => hcovered (m + 1)
    obtain rfl : a.frame = f := by simpa [hres₁] using hf
    exact ⟨a.frame, hres, hf'⟩

/-- The same from any moment of the run on. -/
theorem exists_frame_of_covered_since (n : Nat) {ops : List Op} {ranges : List PinnedRange}
    {answers earlier : List Answer} {t t' u : Traced} {o : FrameOwner}
    (ho : Owned config slots t.pager) (h : t.pager.HoldsPins ranges pins)
    (hrespects : Pager.RespectsPins ops ranges t) (haligned : pageOffset o.page = 0)
    (hrun : (Pager.run ops).run t = .ok answers t')
    (hearlier : (Pager.run (ops.take n)).run t = .ok earlier u)
    (hcovered : ∀ m, n ≤ m →
      ∃ r ∈ outstanding ((ops.zip answers).take m) ranges, r.covers o = true) :
    ∃ f, u.pager.residency o = some (.resident f) ∧ t'.pager.residency o = some (.resident f) := by
  induction n generalizing ops ranges pins t answers earlier with
  | zero =>
    rw [List.take_zero, Pager.run] at hearlier
    cases hearlier
    exact exists_frame_of_covered ops ho h hrespects haligned hrun
      fun m => hcovered m (Nat.zero_le m)
  | succ n ih =>
    cases ops with
    | nil =>
      rw [List.take_nil, Pager.run] at hearlier
      cases hearlier
      exact exists_frame_of_covered [] ho h hrespects haligned hrun fun m => by
        simpa using hcovered (m + n + 1) (by omega)
    | cons op rest =>
      obtain ⟨hop, hrest⟩ := hrespects
      rw [Pager.run] at hrun
      obtain ⟨answer, t₁, hperform, hrun⟩ := run_bind_eq_ok.1 hrun
      obtain ⟨later, t₂, hrun, heq⟩ := run_bind_eq_ok.1 hrun
      cases heq
      rw [List.take_succ_cons, Pager.run] at hearlier
      obtain ⟨answer', u₁, hperform', hearlier⟩ := run_bind_eq_ok.1 hearlier
      obtain ⟨later', u₂, hlater, heq⟩ := run_bind_eq_ok.1 hearlier
      cases heq
      rw [hperform] at hperform'
      cases hperform'
      obtain ⟨pins₁, h₁, -⟩ := ensures_perform_holdsPins ho h hop answer t₁ hperform
      have ho₁ := (ensures_perform op t answer t₁ hperform).steps.owned ho
      exact ih ho₁ h₁ (hrest answer t₁ hperform) hrun hlater fun m hm =>
        hcovered (m + 1) (Nat.succ_le_succ hm)

end PagerM

namespace Pager

variable {config : Config} {device : Block} {ops : List Op} {answers : List Answer} {t : Traced}

/-- A request that takes pins only for its own use: a copy, or a pin that fails. -/
def pinsForItself (op : Op) (answer : Answer) : Bool :=
  match op with
  | .copyFromUser .. | .copyToUser .. => true
  | .pin .. => !answer.isResolved
  | _ => false

theorem ensures_pinsForItself {slots : Nat} {op : Op} {pins : List PagePin}
    (ho : Owned config slots t.pager) (hpins : t.pager.frames.PinnedBy pins) :
    PagerM.Ensures (perform op) (fun answer t' => pinsForItself op answer = true →
      t'.pager.frames.PinnedBy pins) t := by
  cases op with
  | copyFromUser pid start length esp =>
    simp only [perform, PagerM.ensures_bind, PagerM.ensures_pure]
    exact (PagerM.ensures_copyFromUser_pinnedBy pid start length esp t ho hpins).mono
      fun _ _ h _ => h
  | copyToUser pid start data esp =>
    simp only [perform, PagerM.ensures_bind, PagerM.ensures_pure]
    exact (PagerM.ensures_copyToUser_pinnedBy pid start data esp t ho hpins).mono fun _ _ h _ => h
  | pin pid start size esp forWrite =>
    simp only [perform, PagerM.ensures_bind, PagerM.ensures_pure]
    refine (PagerM.ensures_pin_pinnedBy pid start size esp forWrite t ho hpins).mono ?_
    intro result t' h hfails
    cases result with
    | error e => exact h
    | ok _ => simp [pinsForItself, Answer.isResolved] at hfails
  | _ => exact fun _ _ _ h => by simp [pinsForItself] at h

/-- What a run that starts at `start` and ends at `t` keeps of the pins that its callers take. -/
structure KeepsPins (start : Traced) (ops : List Op) (answers : List Answer) (t : Traced) :
    Prop where
  /-- A frame has as many pins as there are outstanding ranges that cover its page. -/
  pinsOf_eq : ∀ f, t.pager.frames.pinsOf f = (outstanding (ops.zip answers) []).countP
    fun r => (t.pager.frames.ownerOf f).any r.covers
  /-- A free frame has no pins. -/
  free : ∀ f, t.pager.frames.isAllocated f = false → t.pager.frames.pinsOf f = 0
  /-- A page that was covered from some moment on is in the frame in which it was, with the same
  translation. -/
  stays : ∀ n earlier u, (run (ops.take n)).run start = .ok earlier u → ∀ pid v,
    (∀ m, n ≤ m → ∃ r ∈ outstanding ((ops.zip answers).take m) [],
      r.covers ⟨pid, pageFloor v⟩ = true) →
    ∃ f, u.pager.residency ⟨pid, pageFloor v⟩ = some (.resident f) ∧
      t.pager.residency ⟨pid, pageFloor v⟩ = some (.resident f) ∧
      u.pager.translate pid v = .ok (some (poolBase + f * pageSize + pageOffset v)) ∧
      t.pager.translate pid v = .ok (some (poolBase + f * pageSize + pageOffset v))
  /-- A copy, and a pin that fails, leave the pins of every page as they were. -/
  leaves : ∀ op answer t', (perform op).run t = .ok answer t' → pinsForItself op answer = true →
    ∀ o, t'.pager.pinsOn o = t.pager.pinsOn o
  /-- The pins of a range that is outstanding can be taken off. -/
  ends : ∀ r ∈ outstanding (ops.zip answers) [], PagerM.Ends (unpin r.pid r.start r.size) t

/-- Every run whose callers respect the pins that are outstanding keeps the pins they take. -/
theorem pins_of_run (h : (run ops).run (.start config device) = .ok answers t)
    (hrespects : RespectsPins ops [] (.start config device)) :
    KeepsPins (.start config device) ops answers t := by
  have hstart := owned_ofConfig config device
  have hnone : HoldsPins (ofConfig config device) [] [] :=
    ⟨FramePool.PinnedBy.ofSize _, .refl _, by simp⟩
  have ho := (PagerM.ensures_run ops _ answers t h).owned hstart
  obtain ⟨pins, hheld⟩ :=
    PagerM.ensures_run_holdsPins ops (.start config device) hstart hnone hrespects answers t h
  have htables : ∀ {ops answers u}, (run ops).run (.start config device) = .ok answers u →
      u.pager.All fun pr => pr.Charted ∧ pr.WithinReach := fun hrun =>
    (PagerM.ensures_run _ _ _ _ hrun).tables hstart (all_ofConfig config device)
  refine ⟨hheld.pinsOf_eq ho, ?_, ?_, ?_, ?_⟩
  · intro f hfree
    exact hheld.pinnedBy.pinsOf_eq_zero (ho.frames.consistent.ownerOf_eq_none hfree)
  · intro n earlier u hearlier pid v hcovered
    obtain ⟨f, hu, ht⟩ := PagerM.exists_frame_of_covered_since n (t := .start config device) hstart
      hnone hrespects (pageOffset_pageFloor v) h hearlier hcovered
    exact ⟨f, hu, ht, translate_of_resident (htables hearlier) hu,
      translate_of_resident (htables h) ht⟩
  · intro op answer t' hrun hitself o
    have hpins' := ensures_pinsForItself ho hheld.pinnedBy answer t' hrun hitself
    have ho' := (PagerM.ensures_perform op t answer t' hrun).steps.owned ho
    rw [ho'.pinsOn_eq hpins', ho.pinsOn_eq hheld.pinnedBy]
  · intro r hr
    exact (PagerM.meets_unpin ho hheld hr).ends

/-- Two ranges share a page. One of them is unpinned and the process that did not pin exits. -/
theorem pins_of_run_overlapping : ∃ ops answers t,
    ops = [.register 1, .register 2, .declareZero 1 0x1000 true, .declareZero 1 0x2000 true,
      .pin 1 0x1800 0x1000 0 true, .pin 1 0x2000 1 0 false, .unpin 1 0x1800 0x1000,
      .copyFromUser 1 0x1000 2 0, .destroy 2] ∧
    (run ops).run (.start { userFrames := 3 } (.attach .swap "swap" (.ram (.blank 64))))
      = .ok answers t ∧
    KeepsPins (.start { userFrames := 3 } (.attach .swap "swap" (.ram (.blank 64)))) ops answers
      t := by
  have hends : PagerM.Ends (run [.register 1, .register 2, .declareZero 1 0x1000 true,
      .declareZero 1 0x2000 true, .pin 1 0x1800 0x1000 0 true, .pin 1 0x2000 1 0 false,
      .unpin 1 0x1800 0x1000, .copyFromUser 1 0x1000 2 0, .destroy 2])
        (.start { userFrames := 3 } (.attach .swap "swap" (.ram (.blank 64)))) := by
    decide +kernel
  have hrespects : RespectsPins [.register 1, .register 2, .declareZero 1 0x1000 true,
      .declareZero 1 0x2000 true, .pin 1 0x1800 0x1000 0 true, .pin 1 0x2000 1 0 false,
      .unpin 1 0x1800 0x1000, .copyFromUser 1 0x1000 2 0, .destroy 2] []
        (.start { userFrames := 3 } (.attach .swap "swap" (.ram (.blank 64)))) := by
    decide +kernel
  obtain ⟨answers, t, h⟩ := hends
  exact ⟨_, answers, t, rfl, h, pins_of_run h hrespects⟩

end Pager

end DemandPaging
