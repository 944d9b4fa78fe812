import DemandPaging.Proofs.Steps
import Mathlib.Tactic.ByContra

/-!
# Faults, pins and copies as sequences of steps

Finding the page of an address, and faulting it in, are stated here as relations with one case for
each way they can go. The loops on top of them, pinning a range and copying, are sequences of
steps in which nothing is ever removed.

One answer deserves to be traced back to its cause: a request that fails because a page could not
be mapped has met an address space that refused it, and `Pager.Attempts` keeps that in view.

## Main definitions

* `Pager.Finds`, `Pager.FaultsIn` — the ways of finding a page and of faulting it in.
* `Pager.Refuses`, `Pager.Attempts` — sequences of steps, with the cause of a failed mapping.

## Main results

* `PagerM.ensures_findOrGrow`, `PagerM.ensures_faultIn` — the code goes one of these ways.
* `PagerM.ensures_pinPages`, `PagerM.ensures_readPieces`, `PagerM.ensures_writePieces` — the loops.
-/

namespace DemandPaging

namespace Pager

variable {p p₁ p' : Pager} {pid addr esp : Nat}

/-- The page that covers `addr` in `p`, and the pager after a stack page was declared for it. -/
inductive Finds (p : Pager) (pid addr esp : Nat) : Option PageEntry → Pager → Prop
  | declared {pr : Process} {e : PageEntry} (process : p.processes[pid]? = some pr)
      (entry : pr.pages.lookup addr = some e) : Finds p pid addr esp (some e) p
  | grown {pr : Process} (process : p.processes[pid]? = some pr)
      (undeclared : pr.pages.lookup addr = none)
      (stack : p.config.isStackAccess addr esp = .ok true) :
    Finds p pid addr esp (some (.fresh .zero true))
      (p.withProcess pid { pr with pages := pr.pages.set addr (.fresh .zero true) })
  | absent {pr : Process} (process : p.processes[pid]? = some pr)
      (undeclared : pr.pages.lookup addr = none)
      (stack : p.config.isStackAccess addr esp = .ok false) : Finds p pid addr esp none p

/-- The ways of making the page that covers `addr` resident, with the answer and the pager
afterwards. -/
inductive FaultsIn (p : Pager) (pid addr esp : Nat) (forWrite : Bool) :
    Except FaultError Nat → Pager → Prop
  | kernel (kernel : p.config.isUser addr = false) :
    FaultsIn p pid addr esp forWrite (.error .kernelAddress) p
  | absent {p' : Pager} (user : p.config.isUser addr = true)
      (finds : p.Finds pid addr esp none p') :
    FaultsIn p pid addr esp forWrite (.error .badAddress) p'
  | readOnly {p' : Pager} {e : PageEntry} (user : p.config.isUser addr = true)
      (finds : p.Finds pid addr esp (some e) p') (forbidden : (forWrite && !e.writable) = true) :
    FaultsIn p pid addr esp forWrite (.error .readOnly) p'
  | resident {p' : Pager} {e : PageEntry} {f : Nat} (user : p.config.isUser addr = true)
      (finds : p.Finds pid addr esp (some e) p') (allowed : (forWrite && !e.writable) = false)
      (frame : e.frame? = some f) : FaultsIn p pid addr esp forWrite (.ok f) p'
  | load {p₁ p' : Pager} {e : PageEntry} {result : Except FaultError Nat}
      (user : p.config.isUser addr = true)
      (finds : p.Finds pid addr esp (some e) p₁) (allowed : (forWrite && !e.writable) = false)
      (frame : e.frame? = none) (loads : p₁.Loads pid (pageFloor addr) result p') :
    FaultsIn p pid addr esp forWrite result p'

/-- The ways of copying a piece out of user memory: its page is faulted in, pinned, read and
unpinned. -/
inductive ReadsPiece (p : Pager) (pid : Nat) (piece : Piece) (esp : Nat) :
    Except FaultError Bytes → Pager → Prop
  | failed {p' : Pager} {error : FaultError}
      (fault : p.FaultsIn pid piece.addr esp false (.error error) p') :
    ReadsPiece p pid piece esp (.error error) p'
  | copied {p₁ : Pager} {f : Nat} {pinned frames : FramePool} {page : Page}
      (fault : p.FaultsIn pid piece.addr esp false (.ok f) p₁)
      (pin : p₁.frames.pin f = .ok pinned) (held : p₁.memory.contents f = .ok page)
      (unpin : pinned.unpin f = .ok frames) :
    ReadsPiece p pid piece esp (.ok (slice page (pageOffset piece.addr) piece.size))
      { p₁ with frames }

/-- The ways of copying a piece of `data` into user memory. -/
inductive WritesPiece (p : Pager) (pid : Nat) (piece : Piece) (data : Bytes) (esp : Nat) :
    Except FaultError Unit → Pager → Prop
  | failed {p' : Pager} {error : FaultError}
      (fault : p.FaultsIn pid piece.addr esp true (.error error) p') :
    WritesPiece p pid piece data esp (.error error) p'
  | copied {p₁ : Pager} {f : Nat} {pinned frames : FramePool} {page : Page} {memory : FrameMemory}
      (fault : p.FaultsIn pid piece.addr esp true (.ok f) p₁)
      (pin : p₁.frames.pin f = .ok pinned) (held : p₁.memory.contents f = .ok page)
      (written : p₁.memory.setContents f (overlay page (pageOffset piece.addr)
        (data.extract piece.start (piece.start + piece.size))) = .ok memory)
      (unpin : pinned.unpin f = .ok frames) :
    WritesPiece p pid piece data esp (.ok ()) { p₁ with memory, frames }

theorem isUser_of_isStackAccess {c : Config} (h : c.isStackAccess addr esp = .ok true) :
    addr < c.physBase := by
  rw [Config.isStackAccess] at h
  by_contra haddr
  simp [Config.isUser, haddr] at h

/-- A page that is found may have been declared for the purpose. -/
theorem Finds.steps {found : Option PageEntry} (h : p.Finds pid addr esp found p') :
    Steps (Change.Grows none) p p' := by
  cases h with
  | declared => rfl
  | absent => rfl
  | @grown pr process undeclared stack =>
    rw [PageMap.lookup] at undeclared
    have hallowed : PageMap.checkDeclaration (pageFloor addr) .zero = .ok () := by
      simp [PageMap.checkDeclaration]
    have hstep := Step.declare true process hallowed
      (Nat.lt_of_le_of_lt (pageFloor_le addr) (isUser_of_isStackAccess stack)) undeclared
    rw [PageMap.set, pageFloor_pageFloor] at hstep
    exact .of_step hstep PageSource.DrawsFrom.zero

theorem Finds.declared_eq {e : PageEntry} (h : p.Finds pid addr esp (some e) p') :
    p'.declared ⟨pid, pageFloor addr⟩ = some e := by
  cases h with
  | declared process entry => rwa [declared_of_getElem? process]
  | grown process => simp [declared_withProcess, PageMap.getElem?_set]

/-! ### Failed mappings -/

/-- Between `p` and `p'` the page tables refuse to install a page. -/
def Refuses (kinds : Change → Prop) (p p' : Pager) : Prop :=
  ∃ q q' pid page, Steps kinds p q ∧ q.Missing ⟨pid, page⟩ ∧
    q.Loads pid page (.error .mapFailed) q' ∧ Steps kinds q' p'

/-- A sequence of steps from `p` to `p'` that answers `result`. If the answer is that a page could
not be mapped, then the tables refused one on the way. -/
structure Attempts {α : Type} (kinds : Change → Prop) (p : Pager) (result : Except FaultError α)
    (p' : Pager) : Prop where
  steps : Steps kinds p p'
  refuses : result = .error .mapFailed → Refuses kinds p p'

variable {α β : Type} {kinds : Change → Prop} {result : Except FaultError α}

namespace Attempts

theorem of_steps (h : Steps kinds p p') (hr : result ≠ .error .mapFailed) :
    Attempts kinds p result p' := ⟨h, fun hr' => absurd hr' hr⟩

theorem ok {a : α} (h : Steps kinds p p') : Attempts kinds p (.ok a : Except FaultError α) p' :=
  of_steps h (by simp)

theorem after (h : Attempts kinds p₁ result p') (h₁ : Steps kinds p p₁) :
    Attempts kinds p result p' where
  steps := h₁.trans h.steps
  refuses hr := by
    obtain ⟨q, q', pid, page, hq, hmissing, hload, hq'⟩ := h.refuses hr
    exact ⟨q, q', pid, page, h₁.trans hq, hmissing, hload, hq'⟩

/-- An error is passed on, and more steps may follow. -/
theorem error {e : FaultError} (h : Attempts kinds p (.error e : Except FaultError α) p₁)
    (h' : Steps kinds p₁ p') : Attempts kinds p (.error e : Except FaultError β) p' where
  steps := h.steps.trans h'
  refuses hr := by
    obtain ⟨q, q', pid, page, hq, hmissing, hload, hq'⟩ := h.refuses (by cases hr; rfl)
    exact ⟨q, q', pid, page, hq, hmissing, hload, hq'.trans h'⟩

theorem mono {kinds' : Change → Prop} (h : Attempts kinds p result p')
    (hk : ∀ change, kinds change → kinds' change) : Attempts kinds' p result p' where
  steps := h.steps.mono hk
  refuses hr := by
    obtain ⟨q, q', pid, page, hq, hmissing, hload, hq'⟩ := h.refuses hr
    exact ⟨q, q', pid, page, hq.mono hk, hmissing, hload, hq'.mono hk⟩

end Attempts

theorem FaultsIn.attempts {forWrite : Bool} {result : Except FaultError Nat}
    (h : p.FaultsIn pid addr esp forWrite result p') :
    Attempts (Change.Grows none) p result p' := by
  cases h with
  | kernel => exact .of_steps (.refl p) (by simp)
  | absent _ finds => exact .of_steps finds.steps (by simp)
  | readOnly _ finds => exact .of_steps finds.steps (by simp)
  | resident _ finds => exact .ok finds.steps
  | load _ finds _ frame loads =>
    have hmissing : Missing _ ⟨pid, pageFloor addr⟩ :=
      ⟨pageOffset_pageFloor addr, _, finds.declared_eq, frame⟩
    refine ⟨finds.steps.trans (.of_step (.load hmissing loads) trivial), ?_⟩
    rintro rfl
    exact ⟨_, _, _, _, finds.steps, hmissing, loads, .refl p'⟩

theorem ReadsPiece.attempts {piece : Piece} {result : Except FaultError Bytes}
    (h : p.ReadsPiece pid piece esp result p') : Attempts (Change.Grows none) p result p' := by
  cases h with
  | failed fault => exact fault.attempts.error (.refl _)
  | copied fault pin held unpin =>
    have hpin := fault.attempts.steps.trans (.of_step (.pin pin) trivial)
    exact .ok (hpin.trans (.of_step (.unpin unpin) trivial))

theorem WritesPiece.attempts {piece : Piece} {data : Bytes} {result : Except FaultError Unit}
    (h : p.WritesPiece pid piece data esp result p') :
    Attempts (fun c => c.Grows none ∨ c = .write) p result p' := by
  cases h with
  | failed fault => exact (fault.attempts.error (.refl _)).mono fun _ => .inl
  | copied fault pin held written unpin =>
    have hfault : Steps (fun c => c.Grows none ∨ c = .write) p _ :=
      fault.attempts.steps.mono fun _ => .inl
    have hpin := hfault.trans (.of_step (.pin pin) (.inl trivial))
    have hwrite := hpin.trans (.of_step (.write written) (.inr rfl))
    exact .ok (hwrite.trans (.of_step (.unpin unpin) (.inl trivial)))

end Pager

namespace PagerM

open Pager (Change Steps Step Attempts)

variable {t : Traced}

/-- Recording the state that a process has is no change. -/
theorem setProcess_self {pid : Nat} {pr : Process} (h : t.pager.processes[pid]? = some pr) :
    (setProcess pid pr).run t = .ok () t := by
  show EStateM.Result.ok () { t with pager := t.pager.withProcess pid pr } = _
  rw [Pager.withProcess_self h]

/-- Nothing is recorded unless a page is declared. -/
theorem findOrGrow_eq (pid addr esp : Nat) : findOrGrow pid addr esp = (do
    let p ← process pid
    match p.pages.lookup addr with
    | some entry => return some entry
    | none =>
      if ← (← pager).config.isStackAccess addr esp then
        emit (.stackGrows pid (pageFloor addr))
        let entry := PageEntry.fresh .zero true
        setProcess pid { p with pages := p.pages.set addr entry }
        return some entry
      else return none) := by
  funext t
  show (findOrGrow pid addr esp).run t = EStateM.run _ t
  rw [findOrGrow, process, bind_assoc, bind_assoc, EStateM.run_bind, EStateM.run_bind]
  show EStateM.run (_ >>= _) t = EStateM.run (_ >>= _) t
  cases hpr : t.pager.processes[pid]? with
  | none => rfl
  | some pr =>
    have hsame (found : Option PageEntry) :
        (setProcess pid pr >>= fun _ => pure found).run t = .ok found t := by
      rw [EStateM.run_bind, setProcess_self hpr]
      rfl
    simp only [pure_bind]
    cases hentry : pr.pages.lookup addr with
    | some entry =>
      simp only [PageMap.lookupOrDeclare, hentry, Option.isSome_some, if_true]
      exact hsame (some entry)
    | none =>
      simp only [PageMap.lookupOrDeclare, hentry, Option.isSome_none, Bool.false_eq_true, if_false,
        growStack, bind_assoc]
      rw [EStateM.run_bind, EStateM.run_bind]
      show EStateM.run (_ >>= _) t = EStateM.run (_ >>= _) t
      cases t.pager.config.isStackAccess addr esp with
      | error e => rfl
      | ok stack =>
        cases stack with
        | true => rfl
        | false => exact hsame none

theorem ensures_findOrGrow (pid addr esp : Nat) (t : Traced) :
    Ensures (findOrGrow pid addr esp) (fun e t' => t.pager.Finds pid addr esp e t'.pager) t := by
  rw [findOrGrow_eq]
  simp only [ensures_bind, ensures_process]
  intro pr hpr
  cases he : pr.pages.lookup addr with
  | some e => exact ensures_pure.2 (.declared hpr he)
  | none =>
    simp only [ensures_bind, ensures_pager, ensures_lift, ensures_ite, ensures_emit,
      ensures_setProcess, ensures_pure]
    intro stack hstack
    constructor
    · rintro rfl
      exact .grown hpr he hstack
    · intro h
      obtain rfl : stack = false := by simpa using h
      exact .absent hpr he hstack

theorem ensures_faultIn (pid addr esp : Nat) (forWrite : Bool) (t : Traced) :
    Ensures (faultIn pid addr esp forWrite)
      (fun r t' => t.pager.FaultsIn pid addr esp forWrite r t'.pager) t := by
  rw [faultIn]
  simp only [ensures_bind, ensures_pager, ensures_ite, ensures_pure]
  constructor
  · intro huser
    refine (ensures_findOrGrow pid addr esp t).mono ?_
    intro found t₁ hfinds
    cases found with
    | none => exact ensures_pure.2 (.absent huser hfinds)
    | some e =>
      simp only [ensures_ite, ensures_pure]
      constructor
      · intro hro
        exact .readOnly huser hfinds hro
      · intro hrw
        have hallowed : (forWrite && !e.writable) = false := by simpa using hrw
        cases hframe : e.frame? with
        | some f => exact ensures_pure.2 (.resident huser hfinds hallowed hframe)
        | none =>
          exact (ensures_loadPage pid (pageFloor addr) t₁).mono fun r t' hloads =>
            .load huser hfinds hallowed hframe hloads
  · intro hkernel
    exact .kernel (by simpa using hkernel)

/-! ### Pins -/

theorem ensures_unpinFrames (frames : List Nat) (t : Traced) :
    Ensures (unpinFrames frames) (fun _ t' => Steps (Change.Grows none) t.pager t'.pager) t := by
  induction frames generalizing t with
  | nil =>
    rw [unpinFrames]
    exact ensures_pure.2 (.refl _)
  | cons f rest ih =>
    rw [unpinFrames]
    simp only [ensures_bind, ensures_unpinFrame]
    intro frames hframes
    exact (ih _).mono fun _ _ hsteps => .trans (.of_step (.unpin hframes) trivial) hsteps

theorem ensures_pinPages (pid start esp : Nat) (forWrite : Bool) (page count : Nat)
    (pinned : List Nat) (t : Traced) :
    Ensures (pinPages pid start esp forWrite page count pinned)
      (fun r t' => Attempts (Change.Grows none) t.pager r t'.pager) t := by
  induction count generalizing page pinned t with
  | zero =>
    rw [pinPages]
    exact ensures_pure.2 (.ok (.refl _))
  | succ count ih =>
    rw [pinPages]
    simp only [ensures_bind]
    refine (ensures_faultIn pid (max page start) esp forWrite t).mono ?_
    intro r t₁ hfault
    cases r with
    | error e =>
      simp only [ensures_bind, ensures_pure]
      exact (ensures_unpinFrames pinned t₁).mono fun _ _ hsteps => hfault.attempts.error hsteps
    | ok f =>
      simp only [ensures_bind, ensures_pinFrame]
      intro frames hframes
      exact (ih _ _ _).mono fun _ _ hrest =>
        hrest.after (hfault.attempts.steps.trans (.of_step (.pin hframes) trivial))

theorem ensures_unpinPages (pages : PageMap) (page count : Nat) (t : Traced) :
    Ensures (unpinPages pages page count)
      (fun _ t' => Steps (Change.Grows none) t.pager t'.pager) t := by
  induction count generalizing page t with
  | zero =>
    rw [unpinPages]
    exact ensures_pure.2 (.refl _)
  | succ count ih =>
    rw [unpinPages]
    cases (pages.lookup page).bind PageEntry.frame? with
    | none => exact ih _ _
    | some f =>
      simp only [ensures_bind, ensures_unpinFrame]
      intro frames hframes
      exact (ih _ _).mono fun _ _ hsteps => .trans (.of_step (.unpin hframes) trivial) hsteps

theorem ensures_pin (pid start size esp : Nat) (forWrite : Bool) (t : Traced) :
    Ensures (Pager.pin pid start size esp forWrite)
      (fun r t' => Attempts (Change.Grows none) t.pager r t'.pager) t := by
  rw [Pager.pin]
  simp only [ensures_bind, ensures_pager, ensures_ite, ensures_pure]
  exact ⟨fun _ => .ok (.refl _), fun _ => ⟨fun _ => ensures_pinPages _ _ _ _ _ _ _ t,
    fun _ => .of_steps (.refl _) (by simp)⟩⟩

theorem ensures_unpin (pid start size : Nat) (t : Traced) :
    Ensures (Pager.unpin pid start size)
      (fun _ t' => Steps (Change.Grows none) t.pager t'.pager) t := by
  rw [Pager.unpin]
  simp only [ensures_bind, ensures_pager, ensures_ite, ensures_pure]
  constructor
  · intro _
    exact .refl _
  · intro _
    cases t.pager.processes[pid]? with
    | none => exact ensures_pure.2 (.refl _)
    | some pr => exact ensures_unpinPages _ _ _ t

/-! ### Copies

A copy repeats one thing, the copy of a piece, and is given here as that repetition. -/

/-- Copies one piece out of user memory. -/
def readPiece (pid : Nat) (piece : Piece) (esp : Nat) : PagerM (Except FaultError Bytes) := do
  match ← pinPage pid piece.addr esp false with
  | .error e => return .error e
  | .ok frame =>
    let found ← copyOut frame piece
    unpinFrame frame
    return .ok found

/-- Copies one piece of `data` into user memory. -/
def writePiece (pid : Nat) (piece : Piece) (data : Bytes) (esp : Nat) :
    PagerM (Except FaultError Unit) := do
  match ← pinPage pid piece.addr esp true with
  | .error e => return .error e
  | .ok frame =>
    copyIn frame piece data
    unpinFrame frame
    return .ok ()

theorem readPieces_of_lt {pid start length esp done : Nat} {bytes : Bytes} (h : done < length) :
    readPieces pid start length esp done bytes = (do
      match ← readPiece pid (.next start length done) esp with
      | .error e => return .error e
      | .ok found =>
        readPieces pid start length esp (done + (Piece.next start length done).size)
          (bytes ++ found)) := by
  rw [readPieces, dif_pos h, readPiece, bind_assoc]
  refine bind_congr fun r => ?_
  cases r with
  | error e => simp
  | ok f => simp

theorem readPieces_of_le {pid start length esp done : Nat} {bytes : Bytes} (h : length ≤ done) :
    readPieces pid start length esp done bytes = return .ok bytes := by
  rw [readPieces, dif_neg (Nat.not_lt.2 h)]

theorem writePieces_of_lt {pid start esp done : Nat} {data : Bytes} (h : done < data.size) :
    writePieces pid start data esp done = (do
      match ← writePiece pid (.next start data.size done) data esp with
      | .error e => return .error e
      | .ok () =>
        writePieces pid start data esp (done + (Piece.next start data.size done).size)) := by
  rw [writePieces, dif_pos h, writePiece, bind_assoc]
  refine bind_congr fun r => ?_
  cases r with
  | error e => simp
  | ok f => simp

theorem writePieces_of_le {pid start esp done : Nat} {data : Bytes} (h : data.size ≤ done) :
    writePieces pid start data esp done = return .ok () := by
  rw [writePieces, dif_neg (Nat.not_lt.2 h)]

theorem ensures_readPiece (pid : Nat) (piece : Piece) (esp : Nat) (t : Traced) :
    Ensures (readPiece pid piece esp)
      (fun r t' => t.pager.ReadsPiece pid piece esp r t'.pager) t := by
  rw [readPiece, pinPage]
  simp only [ensures_bind]
  refine (ensures_faultIn pid piece.addr esp false t).mono ?_
  intro r t₁ hfault
  cases r with
  | error e => exact ensures_pure.2 (ensures_pure.2 (.failed hfault))
  | ok f =>
    simp only [copyOut, ensures_bind, ensures_pinFrame, ensures_pure, ensures_pager, ensures_lift,
      ensures_unpinFrame]
    intro pinned hpin page hpage frames hunpin
    exact .copied hfault hpin hpage hunpin

theorem ensures_writePiece (pid : Nat) (piece : Piece) (data : Bytes) (esp : Nat) (t : Traced) :
    Ensures (writePiece pid piece data esp)
      (fun r t' => t.pager.WritesPiece pid piece data esp r t'.pager) t := by
  rw [writePiece, pinPage]
  simp only [ensures_bind]
  refine (ensures_faultIn pid piece.addr esp true t).mono ?_
  intro r t₁ hfault
  cases r with
  | error e => exact ensures_pure.2 (ensures_pure.2 (.failed hfault))
  | ok f =>
    simp only [copyIn, ensures_bind, ensures_pinFrame, ensures_pure, ensures_pager, ensures_lift,
      ensures_setContents, ensures_unpinFrame]
    intro pinned hpin page hpage memory hmemory frames hunpin
    exact .copied hfault hpin hpage hmemory hunpin

theorem ensures_readPieces (pid start length esp done : Nat) (bytes : Bytes) (t : Traced) :
    Ensures (readPieces pid start length esp done bytes)
      (fun r t' => Attempts (Change.Grows none) t.pager r t'.pager) t := by
  by_cases h : done < length
  · rw [readPieces_of_lt h]
    simp only [ensures_bind]
    refine (ensures_readPiece pid _ esp t).mono ?_
    intro r t₁ hpiece
    cases r with
    | error e => exact ensures_pure.2 (hpiece.attempts.error (.refl _))
    | ok found =>
      have := Piece.next_size_pos start h
      exact (ensures_readPieces pid start length esp _ _ t₁).mono fun _ _ hrest =>
        hrest.after hpiece.attempts.steps
  · rw [readPieces_of_le (Nat.le_of_not_lt h)]
    exact ensures_pure.2 (.ok (.refl _))
  termination_by length - done

theorem ensures_writePieces (pid start : Nat) (data : Bytes) (esp done : Nat) (t : Traced) :
    Ensures (writePieces pid start data esp done)
      (fun r t' => Attempts (fun c => c.Grows none ∨ c = .write) t.pager r t'.pager) t := by
  by_cases h : done < data.size
  · rw [writePieces_of_lt h]
    simp only [ensures_bind]
    refine (ensures_writePiece pid _ data esp t).mono ?_
    intro r t₁ hpiece
    cases r with
    | error e => exact ensures_pure.2 (hpiece.attempts.error (.refl _))
    | ok _ =>
      have := Piece.next_size_pos start h
      exact (ensures_writePieces pid start data esp _ t₁).mono fun _ _ hrest =>
        hrest.after hpiece.attempts.steps
  · rw [writePieces_of_le (Nat.le_of_not_lt h)]
    exact ensures_pure.2 (.ok (.refl _))
  termination_by data.size - done

end PagerM

end DemandPaging
