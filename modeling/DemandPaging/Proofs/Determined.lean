import DemandPaging.Proofs.Outlook

/-!
# Requests, seen from outside

What a request answers, and what can be seen of the pager after it, are determined by what could
be seen before. Frames and slots decide how long a request takes and whether it runs into a panic,
but never what it says.

Most requests get this from their parts: an action is determined if its parts are. The parts that
handle frames, or the entries of a process, cannot be taken apart any further. For them the
function that does the determining is written down.

## Main definitions

* `PagerM.Determined` — an action that answers from the outlook alone.
* `PagerM.Follows` — an action that goes by a given function of the outlook.
* `Outlook.touch` — a range is faulted in, seen from outside.

## Main results

* `PagerM.Determined.bind` — a sequence is determined by its parts.
* `PagerM.determined_loadElf`, `PagerM.determined_pin`, `PagerM.determined_copyFromUser`,
  `PagerM.determined_copyToUser` — requests that are made of parts.
-/

namespace DemandPaging

/-- A source draws from the file it names. -/
theorem PageSource.DrawsFrom.self (source : PageSource) : source.DrawsFrom source.handle? :=
  fun h hh => ⟨h, hh, rfl, rfl⟩

namespace Outlook

/-- Faults in `count` pages from `page` on, for an access that starts at `start`, up to the first
page that fails. -/
def touch (v : Outlook) (pid start esp : Nat) (forWrite : Bool) (page : Nat) :
    (count : Nat) → Except FaultError Unit × Outlook
  | 0 => (.ok (), v)
  | count + 1 =>
    match v.faultIn pid (max page start) esp forWrite with
    | (.error e, v) => (.error e, v)
    | (.ok _, v) => v.touch pid start esp forWrite (page + pageSize) count

end Outlook

/-- Two pagers that look the same. -/
structure Pager.Alike (p q : Pager) : Prop where
  left : p.Sound
  right : q.Sound
  outlook_eq : p.outlook = q.outlook

namespace PagerM

open Pager (Change Steps)

variable {α β : Type} {t : Traced} {pid : Nat} {kinds : Change → Prop}

/-- Two runs of `x` from pagers that look the same, if they end, answer the same and leave pagers
that look the same. -/
def Determined (x : PagerM α) : Prop :=
  ∀ (t u : Traced) (a b : α) (t' u' : Traced), t.pager.Alike u.pager →
    x.run t = .ok a t' → x.run u = .ok b u' → a = b ∧ t'.pager.Alike u'.pager

/-- Where `x` starts from a sound pager and ends, `f` says what it answers and what is seen of the
pager then. -/
def Follows (x : PagerM α) (f : Outlook → Option (α × Outlook)) : Prop :=
  ∀ t : Traced, t.pager.Sound → Ensures x (fun a t' =>
    f t.pager.outlook = some (a, t'.pager.outlook) ∧ t'.pager.Sound) t

theorem Follows.determined {x : PagerM α} {f : Outlook → Option (α × Outlook)}
    (h : x.Follows f) : x.Determined := by
  rintro t u a b t' u' ⟨ht, hu, hsame⟩ hx hx'
  obtain ⟨ha, ht'⟩ := h t ht a t' hx
  obtain ⟨hb, hu'⟩ := h u hu b u' hx'
  rw [hsame, hb, Option.some.injEq, Prod.mk.injEq] at ha
  exact ⟨ha.1.symm, ht', hu', ha.2.symm⟩

section Tunables

variable {p q : Pager}

theorem physBase_congr (h : p.outlook = q.outlook) : p.config.physBase = q.config.physBase :=
  congrArg (fun v => v.layout.physBase) h

theorem writableImages_congr (h : p.outlook = q.outlook) :
    p.config.writableImages = q.config.writableImages :=
  congrArg (fun v => v.layout.writableImages) h

theorem isUserRange_congr (h : p.outlook = q.outlook) (start length : Nat) :
    p.config.isUserRange start length = q.config.isUserRange start length :=
  congrArg (fun v => v.layout.isUserRange start length) h

theorem view_congr (h : p.outlook = q.outlook) : p.view = q.view :=
  congrArg (fun v => v.view) h

end Tunables

/-! ### Actions made of parts -/

theorem determined_pure (a : α) : Determined (pure a) := by
  intro t u b c t' u' halike hx hx'
  cases hx
  cases hx'
  exact ⟨rfl, halike⟩

theorem determined_throw (e : Panic) : Determined (throw e : PagerM α) := by
  intro t u a b t' u' _ hx
  cases hx

theorem determined_emit (e : PagerEvent) : Determined (emit e) := by
  intro t u b c t' u' halike hx hx'
  cases hx
  cases hx'
  exact ⟨rfl, halike⟩

theorem determined_lift (x : Except Panic α) : Determined (liftM x) := by
  cases x with
  | error e => exact determined_throw e
  | ok a => exact determined_pure a

theorem Determined.bind {x : PagerM α} {g : α → PagerM β} (hx : x.Determined)
    (hg : ∀ a, (g a).Determined) : (x >>= g).Determined := by
  intro t u b c t' u' halike hrun hrun'
  obtain ⟨a, t₁, hx₁, hg₁⟩ := run_bind_eq_ok.1 hrun
  obtain ⟨a', u₁, hx₂, hg₂⟩ := run_bind_eq_ok.1 hrun'
  obtain ⟨rfl, halike₁⟩ := hx t u a a' t₁ u₁ halike hx₁ hx₂
  exact hg a t₁ u₁ b c t' u' halike₁ hg₁ hg₂

theorem Determined.ite {c : Prop} [Decidable c] {x y : PagerM α} (hx : x.Determined)
    (hy : y.Determined) : (if c then x else y).Determined := by
  split
  · exact hx
  · exact hy

/-- An action may look at the pager, as long as it goes by what is seen of it. -/
theorem determined_pager_bind {g : Pager → PagerM β}
    (hg : ∀ p q, p.outlook = q.outlook → g p = g q) (hdetermined : ∀ p, (g p).Determined) :
    (pager >>= g).Determined := by
  intro t u b c t' u' halike hrun hrun'
  have hrun : (g t.pager).run t = .ok b t' := hrun
  have hrun' : (g u.pager).run u = .ok c u' := hrun'
  rw [← hg _ _ halike.outlook_eq] at hrun'
  exact hdetermined t.pager t u b c t' u' halike hrun hrun'

/-- The steps of an action keep the pager sound, so only what is seen is left to say. -/
theorem follows_of_steps {x : PagerM α} {f : Outlook → Option (α × Outlook)}
    (hsteps : ∀ t, Ensures x (fun _ t' => Steps kinds t.pager t'.pager) t)
    (hkinds : ∀ change, kinds change → change ≠ .plan)
    (hseen : ∀ t : Traced, t.pager.Sound →
      Ensures x (fun a t' => f t.pager.outlook = some (a, t'.pager.outlook)) t) :
    x.Follows f :=
  fun t ht => (hseen t ht).and ((hsteps t).mono fun _ _ h => h.sound hkinds ht)

/-! ### Declarations -/

/-- A declaration in the page map of a process, seen from outside. -/
theorem outlook_tryDeclare {p : Pager} {pr : Process} {page : Nat} {source : PageSource}
    {writable added : Bool} {pages : PageMap} (hpr : p.processes[pid]? = some pr)
    (h : pr.pages.tryDeclare page source writable = .ok (added, pages)) :
    p.outlook.declare ⟨pid, page⟩ source writable
      = (added, (p.withProcess pid { pr with pages }).outlook) := by
  have hpage := Pager.pages_of_getElem? hpr page
  obtain ⟨hcheck, ⟨rfl, hin, rfl⟩ | ⟨rfl, hnone, rfl⟩⟩ := PageMap.tryDeclare_eq_ok.1 h
  · obtain ⟨e, he⟩ := Option.isSome_iff_exists.1 hin
    rw [Outlook.declare, hpage, he, Pager.withProcess_self hpr]
    rfl
  · have hfloor := pageFloor_of_pageOffset (PageMap.pageOffset_of_checkDeclaration hcheck)
    have hseen := Pager.outlook_of_declare hpr page source writable
    rw [hfloor] at hseen
    rw [Outlook.declare, hpage, hnone, hseen]
    rfl

theorem follows_tryDeclare (pid page : Nat) (source : PageSource) (writable : Bool) :
    (tryDeclare pid page source writable).Follows
      fun v => some (v.declare ⟨pid, page⟩ source writable) := by
  refine follows_of_steps (ensures_tryDeclare pid page (.self source) writable)
    (fun _ h => h.grows.ne_plan) fun t _ => ?_
  rw [tryDeclare]
  simp only [ensures_bind, ensures_pager, ensures_ite, ensures_process, ensures_throw,
    implies_true, and_true, ensures_lift, ensures_setProcess, ensures_pure]
  rintro - pr hpr ⟨added, pages⟩ hdecl
  exact congrArg some (outlook_tryDeclare hpr hdecl)

theorem determined_tryDeclareImage (pid page : Nat) (file : Handle) (offset read : Nat)
    (writable : Bool) : (Pager.tryDeclareImage pid page file offset read writable).Determined :=
  determined_pager_bind (fun p q h => by rw [writableImages_congr h])
    fun _ => (follows_tryDeclare pid page _ _).determined

theorem determined_declareSegment (pid : Nat) (file : Handle) (writable : Bool)
    (page offset read zeros : Nat) :
    (declareSegment pid file writable page offset read zeros).Determined := by
  rw [declareSegment]
  split
  · rename_i hleft
    refine (determined_tryDeclareImage pid page file _ _ writable).bind fun added => ?_
    split
    · split
      · rename_i hfits
        have := left_after_page_lt hleft hfits
        exact determined_declareSegment pid file writable _ _ _ _
      · exact determined_throw _
    · exact determined_pure _
  · exact determined_pure _
  termination_by read + zeros

theorem determined_loadSegments (pid : Nat) (file : Handle) (segments : List ProgramHeader) :
    (loadSegments pid file segments).Determined := by
  induction segments with
  | nil =>
    rw [loadSegments]
    exact determined_pure _
  | cons h rest ih =>
    rw [loadSegments]
    split
    · refine determined_pager_bind (fun p q hpq => ?_) fun p => ?_
      · rw [physBase_congr hpq]
      split
      · exact determined_pure _
      · refine Determined.bind ?_ fun r => ?_
        · rw [loadSegment]
          refine (determined_lift _).bind fun ceil => ?_
          refine (determined_lift _).bind fun zeros => ?_
          exact (determined_lift _).bind fun offset =>
            determined_declareSegment _ _ _ _ _ _ _
        · cases r with
          | error e => exact determined_pure _
          | ok _ => exact (determined_emit _).bind fun _ => ih
    · exact determined_pure _
    · exact determined_pure _
    · exact determined_pure _
    · exact ih

theorem determined_loadElf (pid : Nat) (file : Handle) : (Pager.loadElf pid file).Determined := by
  rw [Pager.loadElf]
  refine determined_pager_bind (fun p q hpq => ?_) fun p => ?_
  · rw [view_congr hpq]
  · split
    · exact determined_pure _
    · refine (determined_loadSegments pid file _).bind fun r => ?_
      cases r with
      | error e => exact determined_pure _
      | ok _ =>
        refine determined_pager_bind (fun p q hpq => ?_) fun p => ?_
        · rw [physBase_congr hpq]
        · refine (determined_lift _).bind fun stackPage => ?_
          refine (follows_tryDeclare pid stackPage .zero true).determined.bind fun added => ?_
          exact .ite (determined_pure _) (determined_pure _)

/-! ### Faults and pins -/

theorem follows_validAddress (pid addr esp : Nat) (forWrite : Bool) :
    (Pager.validAddress pid addr esp forWrite).Follows fun v =>
      if addr = 0 || !v.layout.isUser addr then some (false, v)
      else match v.find pid addr esp with
        | (none, v) => some (false, v)
        | (some page, v) => some (!forWrite || page.writable, v) := by
  refine follows_of_steps (ensures_validAddress pid addr esp forWrite) (fun _ h => h.ne_plan)
    fun t _ => ?_
  have huser : t.pager.outlook.layout.isUser addr = t.pager.config.isUser addr := rfl
  rw [Pager.validAddress]
  simp only [ensures_bind, ensures_pager, ensures_ite, ensures_pure, huser]
  constructor
  · intro h
    rw [if_pos h]
  · intro h
    rw [if_neg h]
    refine (ensures_findOrGrow pid addr esp t).mono ?_
    intro found t' hfinds
    rw [hfinds.outlook]
    cases found with
    | none => exact ensures_pure.2 rfl
    | some e => exact ensures_pure.2 rfl

theorem follows_pageFault (pid addr esp : Nat) :
    (Pager.pageFault pid addr esp).Follows fun v =>
      let (result, v) := v.faultIn pid addr esp false
      some (result.map fun _ => (), v) := by
  refine follows_of_steps (fun t => (ensures_pageFault pid addr esp t).mono fun _ _ h => h.steps)
    (fun _ h => h.ne_plan) fun t ht => ?_
  rw [Pager.pageFault]
  simp only [ensures_bind, ensures_emit, ensures_pure]
  refine (ensures_faultIn pid addr esp false _).mono ?_
  intro r t' hfault
  obtain ⟨seen, hseen, hshows⟩ := hfault.outlook ht
  show some _ = _
  rw [hseen]
  cases r with
  | error e =>
    rw [hshows.of_error]
    rfl
  | ok f =>
    obtain ⟨page, rfl, -⟩ := hshows.of_ok
    rfl

theorem determined_handlePageFault (pid addr esp : Nat) (code : FaultCode) :
    (Pager.handlePageFault pid addr esp code).Determined := by
  rw [Pager.handlePageFault]
  refine (determined_emit _).bind fun _ => .ite ?_ ?_
  · exact (determined_emit _).bind fun _ => determined_pure _
  · refine (follows_pageFault pid addr esp).determined.bind fun r => ?_
    cases r with
    | error e => exact (determined_emit _).bind fun _ => determined_pure _
    | ok _ => exact determined_pure _

/-- Taking pins off concerns nothing but the pool. -/
theorem ensures_unpinFrames_frames (frames : List Nat) (t : Traced) :
    Ensures (unpinFrames frames)
      (fun _ t' => ∃ pool, t'.pager = { t.pager with frames := pool }) t := by
  induction frames generalizing t with
  | nil =>
    rw [unpinFrames]
    exact ensures_pure.2 ⟨t.pager.frames, rfl⟩
  | cons f rest ih =>
    rw [unpinFrames]
    simp only [ensures_bind, ensures_unpinFrame]
    intro frames _
    exact ih _

theorem ensures_unpinPages_frames (pages : PageMap) (page count : Nat) (t : Traced) :
    Ensures (unpinPages pages page count)
      (fun _ t' => ∃ pool, t'.pager = { t.pager with frames := pool }) t := by
  induction count generalizing page t with
  | zero =>
    rw [unpinPages]
    exact ensures_pure.2 ⟨t.pager.frames, rfl⟩
  | succ count ih =>
    rw [unpinPages]
    cases (pages.lookup page).bind PageEntry.frame? with
    | none => exact ih _ _
    | some f =>
      simp only [ensures_bind, ensures_unpinFrame]
      intro frames _
      exact ih _ _

theorem ensures_pinPages_touch (pid start esp : Nat) (forWrite : Bool) (page count : Nat)
    (pinned : List Nat) (t : Traced) (ht : t.pager.Sound) :
    Ensures (pinPages pid start esp forWrite page count pinned) (fun r t' =>
      t.pager.outlook.touch pid start esp forWrite page count = (r, t'.pager.outlook)) t := by
  induction count generalizing page pinned t with
  | zero =>
    rw [pinPages]
    exact ensures_pure.2 rfl
  | succ count ih =>
    rw [pinPages, Outlook.touch]
    simp only [ensures_bind]
    refine (ensures_faultIn pid (max page start) esp forWrite t).mono ?_
    intro r t₁ hfault
    obtain ⟨seen, hseen, hshows⟩ := hfault.outlook ht
    rw [hseen]
    cases r with
    | error e =>
      rw [hshows.of_error]
      simp only [ensures_bind, ensures_pure]
      refine (ensures_unpinFrames_frames pinned t₁).mono ?_
      rintro _ t' ⟨pool, ht'⟩
      rw [ht']
      rfl
    | ok f =>
      obtain ⟨page, rfl, -⟩ := hshows.of_ok
      simp only [ensures_bind, ensures_pinFrame]
      intro frames hframes
      have hsteps := hfault.attempts.steps.trans (.of_step (.pin hframes) trivial)
      exact ih _ _ ⟨_, t₁.log⟩ (hsteps.sound (fun _ h => h.ne_plan) ht)

theorem determined_pin (pid start size esp : Nat) (forWrite : Bool) :
    (Pager.pin pid start size esp forWrite).Determined := by
  rw [Pager.pin]
  refine .ite (determined_pure _) (determined_pager_bind (fun p q hpq => ?_) fun p => ?_)
  · rw [isUserRange_congr hpq]
  · refine .ite ?_ (determined_pure _)
    exact (follows_of_steps (f := fun v => some (v.touch pid start esp forWrite _ _))
      (fun t => (ensures_pinPages _ _ _ _ _ _ _ t).mono fun _ _ h => h.steps)
      (fun _ h => h.ne_plan) fun t ht => (ensures_pinPages_touch _ _ _ _ _ _ _ t ht).mono
        fun _ _ h => congrArg some h).determined

theorem follows_unpin (pid start size : Nat) :
    (Pager.unpin pid start size).Follows fun v => some ((), v) := by
  refine follows_of_steps (ensures_unpin pid start size) (fun _ h => h.ne_plan) fun t _ => ?_
  rw [Pager.unpin]
  simp only [ensures_bind, ensures_pager, ensures_ite, ensures_pure]
  constructor
  · intro _
    exact trivial
  · intro _
    cases t.pager.processes[pid]? with
    | none => exact ensures_pure.2 rfl
    | some pr =>
      refine (ensures_unpinPages_frames _ _ _ t).mono ?_
      rintro _ t' ⟨pool, ht'⟩
      rw [ht']
      rfl

/-! ### Copies -/

theorem follows_readPiece (pid : Nat) (piece : Piece) (esp : Nat) :
    (readPiece pid piece esp).Follows fun v => some (v.readPiece pid piece esp) :=
  follows_of_steps (fun t => (ensures_readPiece pid piece esp t).mono fun _ _ h => h.attempts.steps)
    (fun _ h => h.ne_plan) fun t ht => (ensures_readPiece pid piece esp t).mono
      fun _ _ h => congrArg some (h.outlook ht)

theorem follows_writePiece (pid : Nat) (piece : Piece) (data : Bytes) (esp : Nat) :
    (writePiece pid piece data esp).Follows fun v => some (v.writePiece pid piece data esp) :=
  follows_of_steps
    (fun t => (ensures_writePiece pid piece data esp t).mono fun _ _ h => h.attempts.steps)
    (fun _ h => Change.ne_plan_of_grows_or_write h)
    fun t ht => (ensures_writePiece pid piece data esp t).mono
      fun _ _ h => congrArg some (h.outlook ht)

theorem determined_readPieces (pid start length esp done : Nat) (bytes : Bytes) :
    (readPieces pid start length esp done bytes).Determined := by
  by_cases h : done < length
  · rw [readPieces_of_lt h]
    refine (follows_readPiece pid _ esp).determined.bind fun r => ?_
    cases r with
    | error e => exact determined_pure _
    | ok found =>
      have := Piece.next_size_pos start h
      exact determined_readPieces pid start length esp _ _
  · rw [readPieces_of_le (Nat.le_of_not_lt h)]
    exact determined_pure _
  termination_by length - done

theorem determined_writePieces (pid start : Nat) (data : Bytes) (esp done : Nat) :
    (writePieces pid start data esp done).Determined := by
  by_cases h : done < data.size
  · rw [writePieces_of_lt h]
    refine (follows_writePiece pid _ data esp).determined.bind fun r => ?_
    cases r with
    | error e => exact determined_pure _
    | ok _ =>
      have := Piece.next_size_pos start h
      exact determined_writePieces pid start data esp _
  · rw [writePieces_of_le (Nat.le_of_not_lt h)]
    exact determined_pure _
  termination_by data.size - done

theorem determined_copyFromUser (pid start length esp : Nat) :
    (Pager.copyFromUser pid start length esp).Determined := by
  rw [Pager.copyFromUser]
  refine determined_pager_bind (fun p q hpq => ?_) fun p => ?_
  · rw [isUserRange_congr hpq]
  · refine .ite ?_ (determined_pure _)
    exact (determined_lift _).bind fun _ => determined_readPieces _ _ _ _ _ _

theorem determined_copyToUser (pid start : Nat) (data : Bytes) (esp : Nat) :
    (Pager.copyToUser pid start data esp).Determined := by
  rw [Pager.copyToUser]
  refine determined_pager_bind (fun p q hpq => ?_) fun p => ?_
  · rw [isUserRange_congr hpq]
  · exact .ite (determined_writePieces _ _ _ _ _) (determined_pure _)

/-! ### Processes and files -/

theorem follows_register (pid : Nat) :
    (Pager.register pid).Follows fun v => some ((), v.setMappings pid (some .empty)) := by
  refine follows_of_steps (ensures_register pid) (fun _ h => h.ne_plan) fun t _ => ?_
  refine (ensures_register_fresh pid t).mono ?_
  rintro _ t' ⟨hnew, hpager⟩
  rw [hpager]
  exact congrArg (fun v => some ((), v)) (Pager.outlook_of_register hnew).symm

theorem follows_failReads (file : Nat) (failing : Bool) :
    (Pager.failReads file failing).Follows fun v => some ((),
      { v with failing := fun h => if h = file then failing else v.failing h }) := by
  have hsteps : ∀ t, Ensures (Pager.failReads file failing)
      (fun _ t' => Steps (Change.Grows none) t.pager t'.pager) t := by
    intro t
    rw [Pager.failReads, ensures_update]
    exact .of_step (.medium _) trivial
  refine follows_of_steps hsteps (fun _ h => h.ne_plan) fun t _ => ?_
  rw [Pager.failReads, ensures_update]
  rfl

end PagerM

end DemandPaging
