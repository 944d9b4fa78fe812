import DemandPaging.Pager.Threads
import DemandPaging.Proofs.Capacity
import DemandPaging.Proofs.Exit
import DemandPaging.Proofs.Tally
import DemandPaging.Proofs.Teardown

/-!
# The steps of one thread

A thread of `PagerThreads` works on its own process. Between two of its steps other threads go on,
and they may move its pages to swap, all but the one that it has pinned. So it matters what a step
can do, to the pager and to the pins, and what it needs in order not to panic: a frame that the
other threads leave unpinned.

A thread has one pin at most, and only while it moves the bytes of a piece.

## Main definitions

* `PagerThread.pin?` — the pin that a thread holds.
* `PagerThread.Takes` — the ways in which a thread can step.
* `ThreadRequest.Orderly`, `PagerThread.Ready` — what a thread may ask for, and that its process is
  there for it.

## Main results

* `PagerThread.ensures_step` — the code steps in one of these ways.
* `PagerThread.Takes.pinnedBy` — a step takes one pin or gives it back, and leaves the others.
* `PagerThread.meets_step` — a step panics only for want of a frame, or of a count.
-/

namespace DemandPaging

/-- The copy that a request starts. -/
def ThreadRequest.copy? : ThreadRequest → Option UserCopy
  | .read start length esp => some ⟨.fromUser #[], start, length, esp, 0⟩
  | .write start data esp => some ⟨.toUser data, start, data.size, esp, 0⟩
  | _ => none

/-- Requests that declare pages of user memory by their addresses, and end where the process is
torn down. -/
def ThreadRequest.Orderly (config : Config) : List ThreadRequest → Prop
  | [] => True
  | .declare page _ :: rest => pageOffset page = 0 ∧ page < config.physBase ∧ Orderly config rest
  | .destroy :: rest => rest = []
  | .fault .. :: rest | .read .. :: rest | .write .. :: rest => Orderly config rest

namespace PagerThread

open Pager (Steps Owned Equipped Change)

variable {th th' : PagerThread} {p p' : Pager} {config : Config} {slots : Nat}
  {pins : List PagePin} {t : Traced}

/-- The pin that a thread holds. -/
def pin? (th : PagerThread) : Option PagePin :=
  match th.phase with
  | .moving c f | .unpinning c f => some ⟨f, ⟨th.pid, pageFloor c.piece.addr⟩⟩
  | _ => none

theorem pin?_of_moving {c : UserCopy} {f : Nat} (h : th.phase = .moving c f) :
    th.pin? = some ⟨f, ⟨th.pid, pageFloor c.piece.addr⟩⟩ := by
  rw [pin?, h]

theorem pin?_of_unpinning {c : UserCopy} {f : Nat} (h : th.phase = .unpinning c f) :
    th.pin? = some ⟨f, ⟨th.pid, pageFloor c.piece.addr⟩⟩ := by
  rw [pin?, h]

theorem exists_pin_of_pinned {f : Nat} (h : th.phase.pinned = some f) :
    ∃ a ∈ th.pin?, a.frame = f := by
  cases hphase : th.phase with
  | between | pinning => simp [hphase, CopyPhase.pinned] at h
  | moving c g =>
    rw [hphase, CopyPhase.pinned, Option.some.injEq] at h
    exact ⟨_, pin?_of_moving hphase, h⟩
  | unpinning c g =>
    rw [hphase, CopyPhase.pinned, Option.some.injEq] at h
    exact ⟨_, pin?_of_unpinning hphase, h⟩

@[simp] theorem pin?_continuing (th : PagerThread) (c : UserCopy) :
    (th.continuing c).pin? = none := by
  unfold continuing
  split <;> rfl

@[simp] theorem pid_continuing (th : PagerThread) (c : UserCopy) :
    (th.continuing c).pid = th.pid := by
  unfold continuing
  split <;> rfl

@[simp] theorem requests_continuing (th : PagerThread) (c : UserCopy) :
    (th.continuing c).requests = th.requests := by
  unfold continuing
  split <;> rfl

/-- The ways in which a thread can step, with the pager before and after. -/
inductive Takes (th : PagerThread) (p : Pager) : PagerThread → Pager → Prop
  /-- A thread without requests stands still. -/
  | idle (phase : th.phase = .between) (requests : th.requests = []) : Takes th p th p
  | declared {page : Nat} {writable added : Bool} {rest : List ThreadRequest} {p' : Pager}
      (phase : th.phase = .between) (requests : th.requests = .declare page writable :: rest)
      (steps : Steps (Change.Declares none) p p')
      (seen : p.outlook.declare ⟨th.pid, page⟩ .zero writable = (added, p'.outlook)) :
    Takes th p ({ th with requests := rest }.answered (.yesNo added)) p'
  | faulted {addr esp : Nat} {rest : List ThreadRequest} {r : Except FaultError Nat} {p' : Pager}
      (phase : th.phase = .between) (requests : th.requests = .fault addr esp :: rest)
      (fault : p.FaultsIn th.pid addr esp false r p') :
    Takes th p ({ th with requests := rest }.answered (.resolved (r.map fun _ => ()))) p'
  /-- A copy is started. -/
  | begun {request : ThreadRequest} {rest : List ThreadRequest} {c : UserCopy}
      (phase : th.phase = .between) (requests : th.requests = request :: rest)
      (copy : request.copy? = some c) (user : p.config.isUserRange c.start c.length = true) :
    Takes th p ({ th with requests := rest }.continuing c) p
  /-- A copy is refused for its range. -/
  | refused {request : ThreadRequest} {rest : List ThreadRequest} {c : UserCopy}
      (phase : th.phase = .between) (requests : th.requests = request :: rest)
      (copy : request.copy? = some c) (user : p.config.isUserRange c.start c.length = false) :
    Takes th p ({ th with requests := rest }.answered (c.failure .kernelAddress)) p
  | destroyed {rest : List ThreadRequest} {p' : Pager} (phase : th.phase = .between)
      (requests : th.requests = .destroy :: rest) (steps : Steps (· = .shrink) p p')
      (processes : p'.processes = p.processes.erase th.pid)
      (seen : p'.outlook = p.outlook.removeProcess th.pid) :
    Takes th p ({ th with requests := rest }.answered .done) p'
  /-- The page of a piece cannot be made resident, and the copy fails. -/
  | failed {c : UserCopy} {e : FaultError} {p' : Pager} (phase : th.phase = .pinning c)
      (fault : p.FaultsIn th.pid c.piece.addr c.esp c.writes (.error e) p') :
    Takes th p (th.answered (c.failure e)) p'
  | pinned {c : UserCopy} {f : Nat} {p₁ : Pager} {frames : FramePool}
      (phase : th.phase = .pinning c)
      (fault : p.FaultsIn th.pid c.piece.addr c.esp c.writes (.ok f) p₁)
      (pin : p₁.frames.pin f = .ok frames) :
    Takes th p { th with phase := .moving c f } { p₁ with frames }
  | read {c : UserCopy} {f : Nat} {found : Bytes} {page : Page} (phase : th.phase = .moving c f)
      (direction : c.direction = .fromUser found) (held : p.memory.contents f = .ok page) :
    Takes th p { th with phase := .unpinning { c with
      direction := .fromUser (found ++ slice page (pageOffset c.piece.addr) c.piece.size) } f } p
  | written {c : UserCopy} {f : Nat} {data : Bytes} {page : Page} {memory : FrameMemory}
      (phase : th.phase = .moving c f) (direction : c.direction = .toUser data)
      (held : p.memory.contents f = .ok page)
      (written : p.memory.setContents f (overlay page (pageOffset c.piece.addr)
        (data.extract c.piece.start (c.piece.start + c.piece.size))) = .ok memory) :
    Takes th p { th with phase := .unpinning c f } { p with memory }
  | unpinned {c : UserCopy} {f : Nat} {frames : FramePool} (phase : th.phase = .unpinning c f)
      (unpin : p.frames.unpin f = .ok frames) :
    Takes th p (th.continuing { c with done := c.done + c.piece.size }) { p with frames }

/-! ### What a step does -/

theorem Takes.pid_eq (h : th.Takes p th' p') : th'.pid = th.pid := by
  cases h with
  | begun | unpinned => exact pid_continuing _ _
  | _ => rfl

theorem Takes.steps (h : th.Takes p th' p') : Steps (· ≠ .plan) p p' := by
  cases h with
  | idle | begun | refused | read => exact .refl _
  | declared phase requests steps => exact steps.mono fun _ h => h.grows.ne_plan
  | faulted phase requests fault | failed phase fault =>
    exact fault.attempts.steps.mono fun _ h => h.ne_plan
  | destroyed phase requests steps =>
    refine steps.mono ?_
    rintro change rfl
    simp
  | pinned phase fault pin =>
    exact (fault.attempts.steps.mono fun _ h => h.ne_plan).trans (.of_step (.pin pin) (by simp))
  | written phase direction held written => exact .of_step (.write written) (by simp)
  | unpinned phase unpin => exact .of_step (.unpin unpin) (by simp)

/-- A step takes the pin of the thread or gives it back, and leaves the pins of other processes. -/
theorem Takes.pinnedBy (h : th.Takes p th' p') (ho : Owned config slots p)
    (hpins : p.frames.PinnedBy (th.pin?.toList ++ pins))
    (hothers : ∀ a ∈ pins, a.owner.pid ≠ th.pid) :
    p'.frames.PinnedBy (th'.pin?.toList ++ pins) := by
  have hnone : th.phase = .between ∨ (∃ c, th.phase = .pinning c) → p.frames.PinnedBy pins := by
    rintro (hphase | ⟨c, hphase⟩)
    · simpa [pin?, hphase] using hpins
    · simpa [pin?, hphase] using hpins
  cases h with
  | idle => exact hpins
  | declared phase requests steps =>
    exact steps.frames_of_declares ▸ hnone (.inl phase)
  | faulted phase requests fault => exact fault.pinnedBy ho (hnone (.inl phase))
  | begun phase =>
    rw [pin?_continuing]
    exact hnone (.inl phase)
  | refused phase => exact hnone (.inl phase)
  | destroyed phase requests steps processes =>
    refine steps.pinnedBy_of_shrink ho (hnone (.inl phase)) fun a ha => ?_
    have hsame : p'.declared a.owner = p.declared a.owner := by
      rw [Pager.declared, processes, Std.ExtTreeMap.getElem?_erase,
        if_neg (by simpa using (hothers a ha).symm)]
      rfl
    rw [hsame]
    exact ho.declared_of_pin (hnone (.inl phase)) ha
  | failed phase fault => exact fault.pinnedBy ho (hnone (.inr ⟨_, phase⟩))
  | pinned phase fault pin =>
    have ho₁ := fault.attempts.steps.owned ho
    exact (fault.pinnedBy ho (hnone (.inr ⟨_, phase⟩))).pin (ho₁.ownerOf_eq fault.residency_eq)
      ho₁.frames.consistent pin
  | read phase =>
    simp only [pin?, phase] at hpins
    exact hpins
  | written phase =>
    simp only [pin?, phase] at hpins
    exact hpins
  | @unpinned c f frames phase unpin =>
    rw [pin?_of_unpinning phase, Option.toList_some, List.singleton_append] at hpins
    have hback := hpins.unpin (a := ⟨f, ⟨th.pid, pageFloor c.piece.addr⟩⟩) List.mem_cons_self
      ho.frames.consistent unpin
    rw [List.erase_cons_head] at hback
    rwa [pin?_continuing]

/-! ### The code of a step -/

theorem ensures_startCopy {request : ThreadRequest} {rest : List ThreadRequest} {c : UserCopy}
    (hphase : th.phase = .between) (hrequests : th.requests = request :: rest)
    (hcopy : request.copy? = some c) (t : Traced) :
    PagerM.Ensures ({ th with requests := rest }.startCopy c)
      (fun th' t' => th.Takes t.pager th' t'.pager) t := by
  rw [startCopy]
  simp only [PagerM.ensures_bind, PagerM.ensures_pager, PagerM.ensures_ite, PagerM.ensures_pure,
    PagerM.ensures_lift]
  constructor
  · intro huser
    exact ⟨fun _ => .begun hphase hrequests hcopy huser,
      fun _ _ _ => .begun hphase hrequests hcopy huser⟩
  · intro huser
    exact .refused hphase hrequests hcopy (by simpa using huser)

theorem ensures_start {request : ThreadRequest} {rest : List ThreadRequest}
    (hphase : th.phase = .between) (hrequests : th.requests = request :: rest) (t : Traced)
    (ht : t.pager.Sound) :
    PagerM.Ensures ({ th with requests := rest }.start request)
      (fun th' t' => th.Takes t.pager th' t'.pager) t := by
  cases request with
  | declare page writable =>
    simp only [start, Pager.perform, Pager.tryDeclareZero, PagerM.ensures_bind,
      PagerM.ensures_pure]
    have hzero : PageSource.zero.DrawsFrom none := .zero
    refine ((PagerM.ensures_tryDeclare th.pid page hzero writable t).and
      (PagerM.follows_tryDeclare th.pid page .zero writable t ht)).mono ?_
    rintro added t' ⟨hsteps, hseen, -⟩
    exact .declared hphase hrequests hsteps (Option.some.inj hseen)
  | fault addr esp =>
    simp only [start, Pager.perform, Pager.pageFault, PagerM.ensures_bind, PagerM.ensures_emit,
      PagerM.ensures_pure]
    exact (PagerM.ensures_faultIn th.pid addr esp false _).mono fun r t' hfault =>
      .faulted hphase hrequests hfault
  | read => exact ensures_startCopy hphase hrequests rfl t
  | write => exact ensures_startCopy hphase hrequests rfl t
  | destroy =>
    simp only [start, Pager.perform, PagerM.ensures_bind, PagerM.ensures_pure]
    refine (((PagerM.ensures_destroy th.pid t).and
      (PagerM.ensures_destroy_processes th.pid t)).and
        (PagerM.follows_destroy th.pid t ht)).mono ?_
    rintro _ t' ⟨⟨hsteps, hprocesses⟩, hseen, -⟩
    exact .destroyed hphase hrequests hsteps hprocesses (Prod.mk.inj (Option.some.inj hseen)).2.symm

/-- The code steps in one of the ways of `Takes`. -/
theorem ensures_step (th : PagerThread) (t : Traced) (ht : t.pager.Sound) :
    PagerM.Ensures th.step (fun th' t' => th.Takes t.pager th' t'.pager) t := by
  rw [step]
  cases hphase : th.phase with
  | between =>
    cases hrequests : th.requests with
    | nil => exact PagerM.ensures_pure.2 (.idle hphase hrequests)
    | cons request rest => exact ensures_start hphase hrequests t ht
  | pinning c =>
    simp only [PagerM.pinPage, PagerM.ensures_bind]
    refine (PagerM.ensures_faultIn _ _ _ _ t).mono fun r t₁ hfault => ?_
    cases r with
    | error e => exact PagerM.ensures_pure.2 (PagerM.ensures_pure.2 (.failed hphase hfault))
    | ok f =>
      simp only [PagerM.ensures_bind, PagerM.ensures_pinFrame, PagerM.ensures_pure]
      exact fun frames hpin => .pinned hphase hfault hpin
  | moving c f =>
    cases hdirection : c.direction with
    | fromUser found =>
      simp only [UserCopy.move, hdirection, PagerM.copyOut, PagerM.ensures_bind,
        PagerM.ensures_pager, PagerM.ensures_lift, PagerM.ensures_pure]
      exact fun page hheld => .read hphase hdirection hheld
    | toUser data =>
      simp only [UserCopy.move, hdirection, PagerM.copyIn, PagerM.ensures_bind,
        PagerM.ensures_pager, PagerM.ensures_lift, PagerM.ensures_setContents, PagerM.ensures_pure]
      exact fun page hheld memory hwritten => .written hphase hdirection hheld hwritten
  | unpinning c f =>
    simp only [PagerM.ensures_bind, PagerM.ensures_unpinFrame, PagerM.ensures_pure]
    exact fun frames hunpin => .unpinned hphase hunpin

/-! ### The transfers of a step -/

theorem tallied_startCopy (th : PagerThread) (c : UserCopy) :
    PagerM.Keeps Traced.Tallied (th.startCopy c) := by
  rw [startCopy]
  refine PagerM.keeps_pager.bind fun p => .ite ?_ (PagerM.keeps_pure _)
  exact .ite (PagerM.keeps_pure _) ((PagerM.keeps_lift _).bind fun _ => PagerM.keeps_pure _)

theorem tallied_step (th : PagerThread) : PagerM.Keeps Traced.Tallied th.step := by
  rw [step]
  cases th.phase with
  | between =>
    cases th.requests with
    | nil => exact PagerM.keeps_pure th
    | cons request rest =>
      have hanswered : ∀ {op : Op}, PagerM.Keeps Traced.Tallied (Pager.perform op) →
          PagerM.Keeps Traced.Tallied
            (do return { th with requests := rest }.answered (← Pager.perform op)) :=
        fun hop => hop.bind fun _ => PagerM.keeps_pure _
      cases request with
      | declare page writable =>
        exact hanswered ((PagerM.tallied_tryDeclare _ _ _ _).bind fun _ => PagerM.keeps_pure _)
      | fault addr esp =>
        exact hanswered ((PagerM.tallied_pageFault _ _ _).bind fun _ => PagerM.keeps_pure _)
      | read => exact tallied_startCopy _ _
      | write => exact tallied_startCopy _ _
      | destroy => exact hanswered ((PagerM.tallied_destroy _).bind fun _ => PagerM.keeps_pure _)
  | pinning c =>
    refine (PagerM.tallied_pinPage _ _ _ _).bind fun r => ?_
    cases r with
    | error e => exact PagerM.keeps_pure _
    | ok f => exact PagerM.keeps_pure _
  | moving c f =>
    refine PagerM.Keeps.bind ?_ fun _ => PagerM.keeps_pure _
    cases hdirection : c.direction with
    | fromUser found =>
      simp only [UserCopy.move, hdirection, PagerM.copyOut, bind_assoc, pure_bind]
      exact PagerM.keeps_pager.bind fun _ => (PagerM.keeps_lift _).bind fun _ => PagerM.keeps_pure _
    | toUser data =>
      simp only [UserCopy.move, hdirection, PagerM.copyIn, bind_assoc]
      exact PagerM.keeps_pager.bind fun _ => (PagerM.keeps_lift _).bind fun _ =>
        (PagerM.tallied_setContents _ _).bind fun _ => PagerM.keeps_pure _
  | unpinning c f => exact (PagerM.tallied_unpinFrame f).bind fun _ => PagerM.keeps_pure _

/-! ### Steps without a panic -/

/-- A thread that can go on: its requests are in order, and unless it has come to their end, its
process is registered and maps no files. -/
structure Ready (th : PagerThread) (p : Pager) : Prop where
  orderly : ThreadRequest.Orderly p.config th.requests
  registered : (th.phase = .between ∧ th.requests = []) ∨
    p.outlook.mappings th.pid = some .empty
  pending : ∀ c, th.phase = .pinning c → c.done < c.length

theorem Ready.exists_process (h : th.Ready p) (hbusy : th.phase ≠ .between ∨ th.requests ≠ []) :
    ∃ pr, p.processes[th.pid]? = some pr ∧ pr.mappings = .empty := by
  rcases h.registered with ⟨hphase, hrequests⟩ | hregistered
  · rcases hbusy with hbusy | hbusy
    · exact absurd hphase hbusy
    · exact absurd hrequests hbusy
  · exact Option.map_eq_some_iff.1 hregistered

end PagerThread

namespace PagerM

open Pager (Owned Equipped)

variable {t : Traced} {config : Config} {slots pid page addr esp f : Nat} {pr : Process}
  {pins : List PagePin}

/-- A page of user memory can be declared by its address. -/
theorem meets_tryDeclareZero (hpage : pageOffset page = 0) (huser : page < t.pager.config.physBase)
    (hpr : t.pager.processes[pid]? = some pr) (writable : Bool) :
    Meets (Pager.tryDeclareZero pid page writable) (fun _ _ => True) (fun _ _ => False) t := by
  have hallowed : PageMap.checkDeclaration page .zero = .ok () := by
    simp [PageMap.checkDeclaration, hpage]
  obtain ⟨r, hr⟩ : ∃ r, pr.pages.tryDeclare page .zero writable = .ok r := by
    simp only [PageMap.tryDeclare, hallowed, except_ok_bind]
    split
    · exact ⟨_, rfl⟩
    · exact ⟨_, rfl⟩
  rw [Pager.tryDeclareZero, tryDeclare]
  simp only [meets_bind, meets_pager, meets_ite, Config.isUser, huser, decide_true, true_implies,
    not_true_eq_false, false_implies, and_true]
  rw [meets_process_of_getElem? hpr, meets_lift_of_ok hr]
  exact trivial

/-- The page of a piece is pinned, unless no frame can be had for it. Its frame has no pins yet,
as those that are held are held for other processes. -/
theorem meets_pinPage (ho : Owned config slots t.pager) (hp : t.pager.Equipped)
    (hfits : t.pager.config.Fits) (hpr : t.pager.processes[pid]? = some pr)
    (hpins : t.pager.frames.PinnedBy pins) (hothers : ∀ a ∈ pins, a.owner.pid ≠ pid)
    (forWrite : Bool) :
    Meets (pinPage pid addr esp forWrite) (fun _ _ => True)
      (fun e t' => Halts t ⟨pid, pageFloor addr⟩ e t') t := by
  rw [pinPage]
  simp only [meets_bind]
  refine ((meets_faultIn ho hp hfits hpr forWrite).and_ensures
    (ensures_faultIn pid addr esp forWrite t)).mono ?_ fun _ _ h => h.2
  rintro r t₁ ⟨-, hfault⟩
  cases r with
  | error e => exact trivial
  | ok f =>
    have ho₁ := hfault.attempts.steps.owned ho
    have hpins₁ := hfault.pinnedBy ho hpins
    have howner := ho₁.ownerOf_eq hfault.residency_eq
    have hnone : t₁.pager.frames.pinsOf f = 0 := by
      rw [hpins₁.pinsOf_eq, List.countP_eq_zero]
      intro a ha hframe
      have hpid := hpins₁.ownerOf_eq a ha
      rw [of_decide_eq_true hframe, howner, Option.some.injEq] at hpid
      exact hothers a ha (hpid ▸ rfl)
    have halloc := ho₁.frames.consistent.isAllocated_of_ownerOf howner
    obtain ⟨frames, hpin⟩ := FramePool.exists_pin halloc (by rw [hnone]; decide)
    simp only [meets_bind]
    rw [meets_pinFrame_of_ok hpin]
    exact trivial

/-- The bytes of a piece can be moved while its frame is in use. -/
theorem meets_move (hp : t.pager.Equipped) (hf : f < t.pager.config.userFrames) (c : UserCopy) :
    Meets (c.move f) (fun _ _ => True) (fun _ _ => False) t := by
  obtain ⟨contents, hcontents⟩ := FrameMemory.exists_contents (hp.size_memory ▸ hf)
  cases hdirection : c.direction with
  | fromUser found =>
    simp only [UserCopy.move, hdirection, copyOut, meets_bind, meets_pager]
    rw [meets_lift_of_ok hcontents]
    exact trivial
  | toUser data =>
    obtain ⟨memory, hmemory⟩ := FrameMemory.exists_setContents (hp.size_memory ▸ hf)
      (overlay contents (pageOffset c.piece.addr)
        (data.extract c.piece.start (c.piece.start + c.piece.size)))
    simp only [UserCopy.move, hdirection, copyIn, meets_bind, meets_pager]
    rw [meets_lift_of_ok hcontents, meets_setContents_of_ok hmemory]
    exact trivial

end PagerM

namespace PagerThread

open Pager (Owned Equipped)

variable {th th' : PagerThread} {p p' : Pager} {config : Config} {slots : Nat}
  {pins : List PagePin} {t : Traced}

theorem meets_startCopy (hfits : t.pager.config.Fits) (c : UserCopy) :
    PagerM.Meets (th.startCopy c) (fun _ _ => True) (fun _ _ => False) t := by
  rw [startCopy]
  simp only [PagerM.meets_bind, PagerM.meets_pager, PagerM.meets_ite, PagerM.meets_pure,
    implies_true, and_true]
  intro huser
  obtain ⟨-, hle⟩ := PagerM.lt_of_isUserRange huser
  have hbase := hfits.base_le
  refine ⟨trivial, fun _ => ?_⟩
  exact Iff.mpr (PagerM.meets_lift_of_ok (checkBuffer_of_lt (by
    simp only [Nat.pow_eq]
    omega))) trivial

/-- A thread that is ready steps, unless it needs a frame and none can be had. -/
theorem meets_step (ho : Owned config slots t.pager) (hp : t.pager.Equipped)
    (hfits : t.pager.config.Fits) (hready : th.Ready t.pager)
    (hpins : t.pager.frames.PinnedBy (th.pin?.toList ++ pins))
    (hothers : ∀ a ∈ pins, a.owner.pid ≠ th.pid) :
    PagerM.Meets th.step (fun _ _ => True)
      (fun e t' => th.pin? = none ∧ ∃ page, Halts t ⟨th.pid, page⟩ e t') t := by
  rw [step]
  cases hphase : th.phase with
  | between =>
    have hnone : th.pin? = none := by simp [pin?, hphase]
    cases hrequests : th.requests with
    | nil => exact trivial
    | cons request rest =>
      obtain ⟨pr, hpr, hmappings⟩ := hready.exists_process (.inr (by simp [hrequests]))
      have horderly := hready.orderly
      rw [hrequests] at horderly
      cases request with
      | declare page writable =>
        simp only [start, Pager.perform, PagerM.meets_bind]
        exact (PagerM.meets_tryDeclareZero horderly.1 horderly.2.1 hpr writable).mono
          (fun _ _ _ => trivial) fun _ _ h => h.elim
      | fault addr esp =>
        simp only [start, Pager.perform, PagerM.meets_bind]
        exact (PagerM.meets_pageFault ho hp hfits hpr).mono (fun _ _ _ => trivial)
          fun _ _ h => ⟨hnone, _, h.2⟩
      | read => exact (meets_startCopy hfits _).mono (fun _ _ h => h) fun _ _ h => h.elim
      | write => exact (meets_startCopy hfits _).mono (fun _ _ h => h) fun _ _ h => h.elim
      | destroy =>
        simp only [start, Pager.perform, PagerM.meets_bind]
        exact (PagerM.meets_destroy ho hp hfits.base_le hpr (by rw [hmappings]; rfl)).mono
          (fun _ _ _ => trivial) fun _ _ h => h.elim
  | pinning c =>
    have hnone : th.pin? = none := by simp [pin?, hphase]
    obtain ⟨pr, hpr, -⟩ := hready.exists_process (.inl (by simp [hphase]))
    rw [hnone, Option.toList_none, List.nil_append] at hpins
    simp only [PagerM.meets_bind]
    refine (PagerM.meets_pinPage ho hp hfits hpr hpins hothers c.writes).mono ?_
      fun _ _ h => ⟨hnone, _, h⟩
    intro r t₁ _
    cases r with
    | error e => exact trivial
    | ok f => exact trivial
  | moving c f =>
    have howner := hpins.ownerOf_eq ⟨f, ⟨th.pid, pageFloor c.piece.addr⟩⟩
      (by simp [pin?_of_moving hphase])
    have hf : f < t.pager.config.userFrames := by
      rw [ho.config_eq, ← ho.size_frames]
      exact ho.frames.consistent.lt_size_of_ownerOf howner
    simp only [PagerM.meets_bind]
    exact (PagerM.meets_move hp hf c).mono (fun _ _ _ => trivial) fun _ _ h => h.elim
  | unpinning c f =>
    obtain ⟨frames, hunpin⟩ := hpins.exists_unpin
      (a := ⟨f, ⟨th.pid, pageFloor c.piece.addr⟩⟩) (by simp [pin?_of_unpinning hphase])
    simp only [PagerM.meets_bind]
    rw [PagerM.meets_unpinFrame_of_ok hunpin]
    exact trivial

end PagerThread

end DemandPaging
