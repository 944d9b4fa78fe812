import DemandPaging.Proofs.Faults
import DemandPaging.Proofs.Outcomes

/-!
# Operations as sequences of steps

Every request to the pager is a sequence of steps, and its kind says of which: most requests only
add, two of them only take away, a copy to user memory adds and writes. What is kept by the steps
is kept by every run.

While pages are detached from a process, the code holds the process in its hand and the pager
still knows the old one, or none at all. The steps are those of the pager with the process put
back, `Pager.withProcess`.

## Main definitions

* `Op.changes` — the kinds of changes a request makes.
* `Answer.mapFailed` — the answer of a request that could not map a page.

## Main results

* `PagerM.ensures_perform` — a request is a sequence of steps.
* `PagerM.ensures_run` — so is a run.
* `PagerM.keeps_run` — a run keeps what its requests keep.
-/

namespace DemandPaging

/-- Whether a request is one that gives an address space a plan of refusals. -/
def Op.plans : Op → Bool
  | .refuse .. | .refuseBy .. => true
  | _ => false

/-- The handle that a request is given. -/
def Op.handle? : Op → Option Handle
  | .declareImage _ _ file _ _ _ | .tryDeclareImage _ _ file _ _ _ => some file
  | .loadElf _ file | .mapFile _ file _ => some file
  | _ => none

/-- The kinds of changes that a request makes. -/
def Op.changes : Op → Pager.Change → Prop
  | .destroy .. | .unmapFile .. => (· = .shrink)
  | .refuse .. | .refuseBy .. => (· = .plan)
  | .copyToUser .. => fun change => change.Grows none ∨ change = .write
  | op => Pager.Change.Grows op.handle?

theorem Op.ne_plan {op : Op} (h : op.plans = false) {change : Pager.Change}
    (hchange : op.changes change) : change ≠ .plan := by
  rintro rfl
  cases op <;> simp_all [Op.plans, Op.changes, Pager.Change.Grows]

/-- Whether a request failed because a page could not be mapped. -/
def Answer.mapFailed : Answer → Prop
  | .resolved result => result = .error .mapFailed
  | .bytes result => result = .error .mapFailed
  | _ => False

/-- A request leads from `p` to `p'` by steps of its kinds. If it answers that a page could not be
mapped, then the tables refused one on the way. -/
structure Op.Performs (op : Op) (p : Pager) (answer : Answer) (p' : Pager) : Prop where
  steps : Pager.Steps op.changes p p'
  refuses : answer.mapFailed → Pager.Refuses op.changes p p'

namespace PagerM

open Pager (Change Steps Step Attempts)

variable {t : Traced} {pid : Nat} {pr : Process}

/-! ### Declaring pages -/

theorem ensures_tryDeclare (pid page : Nat) {source : PageSource} {file? : Option Handle}
    (hdraws : source.DrawsFrom file?) (writable : Bool) (t : Traced) :
    Ensures (tryDeclare pid page source writable)
      (fun _ t' => Steps (Change.Declares file?) t.pager t'.pager) t := by
  rw [tryDeclare]
  simp only [ensures_bind, ensures_pager, ensures_ite, ensures_process, ensures_throw,
    implies_true, and_true, ensures_lift, ensures_setProcess, ensures_pure]
  rintro huser pr hpr ⟨added, pages⟩ hdecl
  obtain ⟨hcheck, ⟨-, -, rfl⟩ | ⟨-, hnone, rfl⟩⟩ := PageMap.tryDeclare_eq_ok.1 hdecl
  · exact .of_eq (Pager.withProcess_self hpr).symm
  · have huser : page < t.pager.config.physBase := by simpa [Config.isUser] using huser
    exact .of_step (.declare writable hpr hcheck huser hnone) hdraws

theorem ensures_declareSegment (pid : Nat) (file : Handle) (writable : Bool)
    (page offset read zeros : Nat) (t : Traced) :
    Ensures (declareSegment pid file writable page offset read zeros)
      (fun _ t' => Steps (Change.Declares (some file)) t.pager t'.pager) t := by
  rw [declareSegment]
  split
  · rename_i hleft
    simp only [Pager.tryDeclareImage, ensures_bind, ensures_pager]
    refine (ensures_tryDeclare pid page (.image file _ _) _ t).mono ?_
    intro added t₁ hsteps
    split
    · split
      · rename_i hfits
        have := left_after_page_lt hleft hfits
        exact (ensures_declareSegment pid file writable _ _ _ _ t₁).mono fun _ _ => hsteps.trans
      · simp
    · exact ensures_pure.2 hsteps
  · exact ensures_pure.2 (.refl _)
  termination_by read + zeros

theorem ensures_loadSegments (pid : Nat) (file : Handle) (segments : List ProgramHeader)
    (t : Traced) :
    Ensures (loadSegments pid file segments)
      (fun _ t' => Steps (Change.Declares (some file)) t.pager t'.pager) t := by
  induction segments generalizing t with
  | nil =>
    rw [loadSegments]
    exact ensures_pure.2 (.refl _)
  | cons h rest ih =>
    rw [loadSegments]
    split
    · simp only [ensures_bind, ensures_pager]
      split
      · exact ensures_pure.2 (.refl _)
      · simp only [loadSegment, ensures_bind, ensures_lift]
        intro ceil hceil zeros hzeros offset hoffset
        refine (ensures_declareSegment pid file _ _ _ _ _ t).mono ?_
        intro r t₁ hsteps
        cases r with
        | error e => exact ensures_pure.2 hsteps
        | ok _ =>
          simp only [ensures_bind, ensures_emit]
          exact (ih _).mono fun _ _ => hsteps.trans
    · exact ensures_pure.2 (.refl _)
    · exact ensures_pure.2 (.refl _)
    · exact ensures_pure.2 (.refl _)
    · exact ih t

theorem ensures_loadElf (pid : Nat) (file : Handle) (t : Traced) :
    Ensures (Pager.loadElf pid file)
      (fun _ t' => Steps (Change.Declares (some file)) t.pager t'.pager) t := by
  rw [Pager.loadElf]
  simp only [ensures_bind, ensures_pager]
  split
  · exact ensures_pure.2 (.refl _)
  · simp only [ensures_bind]
    refine (ensures_loadSegments pid file _ t).mono ?_
    intro r t₁ hsegments
    cases r with
    | error e => exact ensures_pure.2 hsegments
    | ok _ =>
      simp only [ensures_bind, ensures_pager, ensures_lift, Pager.tryDeclareZero]
      intro stackPage hstack
      have hzero : PageSource.zero.DrawsFrom (some file) := .zero
      refine (ensures_tryDeclare pid stackPage hzero true t₁).mono ?_
      intro added t' hstack
      split
      · exact ensures_pure.2 (hsegments.trans hstack)
      · exact ensures_pure.2 (hsegments.trans hstack)

/-! ### Mapping files -/

/-- The pages of a mapping are declared one by one. -/
theorem steps_declareMapped {p : Pager} {id serial : Nat} {file : Handle} {page i count : Nat}
    {found : Option Nat} {pages : PageMap} (hpr : p.processes[pid]? = some pr)
    (huser : ∀ k < count, page + k * pageSize < p.config.physBase)
    (h : pr.pages.declareMapped id { file with serial } page i count = .ok (found, pages)) :
    Steps (Change.Declares (some file)) p (p.withProcess pid { pr with pages }) := by
  induction count generalizing page i p pr with
  | zero =>
    rw [PageMap.declareMapped] at h
    cases h
    exact .of_eq (Pager.withProcess_self hpr).symm
  | succ count ih =>
    rw [PageMap.declareMapped] at h
    simp only [except_bind_eq_ok, Prod.exists] at h
    obtain ⟨added, m₁, hdecl, h⟩ := h
    obtain ⟨hcheck, ⟨rfl, -, rfl⟩ | ⟨rfl, hnone, rfl⟩⟩ := PageMap.tryDeclare_eq_ok.1 hdecl
    · simp only [Bool.false_eq_true, if_false, except_pure_eq_ok, Prod.mk.injEq] at h
      obtain ⟨-, rfl⟩ := h
      exact .of_eq (Pager.withProcess_self hpr).symm
    · simp only [if_true] at h
      have hstep := Step.declare true hpr hcheck (by simpa using huser 0 (Nat.succ_pos count)) hnone
      refine .trans (.of_step hstep (.mapped id file serial _)) ?_
      have hself := Pager.getElem?_withProcess_self p pid { pr with
        pages := pr.pages.set page (.fresh (.mapped id { file with serial } (i * pageSize)) true) }
      have hrest := ih hself ?_ h
      · rwa [Pager.withProcess_withProcess] at hrest
      · intro k hk
        have := huser (k + 1) (Nat.succ_lt_succ hk)
        rw [Nat.succ_mul] at this
        show page + pageSize + k * pageSize < p.config.physBase
        omega

theorem isUserRange_iff {c : Config} {start length : Nat} :
    c.isUserRange start length = true ↔
      start + length < 2 ^ 64 ∧ start + length ≤ c.physBase := by
  rw [Config.isUserRange, checkedEnd?, Nat.pow_eq]
  split
  · simp [*]
  · simp [*]

theorem lt_of_isUserRange {c : Config} {start length : Nat}
    (h : c.isUserRange start length = true) :
    start + length < 2 ^ 64 ∧ start + length ≤ c.physBase := isUserRange_iff.1 h

theorem ensures_mapFile (pid : Nat) (file : Handle) (addr : Nat) (t : Traced) :
    Ensures (Pager.mapFile pid file addr)
      (fun _ t' => Steps (Change.Declares (some file)) t.pager t'.pager) t := by
  rw [Pager.mapFile]
  simp only [ensures_bind, ensures_ite, ensures_pure, ensures_pager, ensures_process,
    ensures_lift]
  refine ⟨fun _ => .refl _, fun _ => ?_⟩
  refine ⟨fun _ => .refl _, fun haligned => ?_⟩
  refine ⟨fun _ => .refl _, fun _ => ?_⟩
  refine ⟨fun hrange => ?_, fun _ => .refl _⟩
  refine ⟨fun _ => ?_, fun _ => .refl _⟩
  have haligned : pageOffset addr = 0 := by simpa using haligned
  obtain ⟨hfits, hbelow⟩ := lt_of_isUserRange hrange
  rintro pr hpr ⟨found, pages⟩ hdecl
  cases found with
  | some q =>
    -- the pages declared before `q` are taken back, so nothing has changed
    simp only [ensures_bind, ensures_setProcess, ensures_emit, ensures_pure]
    refine .of_eq ?_
    show t.pager = t.pager.withProcess pid _
    rw [PageMap.removeRun_of_overlap haligned hfits hdecl, Pager.withProcess_self hpr]
  | none =>
    simp only [ensures_bind, ensures_lift, ensures_setProcess, ensures_update, ensures_emit,
      ensures_pure]
    intro mappings _
    have hdeclared := steps_declareMapped hpr (fun k hk => ?_) hdecl
    · have hstep : Step (.declare .zero) _ _ := .mappings mappings (t.pager.nextSerial + 1)
        (Pager.getElem?_withProcess_self t.pager pid { pr with pages })
      rw [Pager.withProcess_withProcess] at hstep
      exact hdeclared.trans (.of_step hstep PageSource.DrawsFrom.zero)
    · have := PageRun.lt_of_lt_count hfits hk
      exact Nat.lt_of_lt_of_le this hbelow

/-! ### Taking pages back -/

/-- What a released page held goes back to the pool or to the swap area; the processes stay. -/
theorem releases_withProcess {p p' : Pager} {page : Nat} {e : PageEntry} {s s' : AddressSpace}
    (h : p.Releases page e s s' p') :
    p'.processes = p.processes ∧
      ∀ pid pr, (p.withProcess pid pr).Releases page e s s' (p'.withProcess pid pr) := by
  cases h with
  | resident residency unmapped released =>
    exact ⟨rfl, fun pid pr => .resident (p := p.withProcess pid pr) residency unmapped released⟩
  | swapped residency released =>
    exact ⟨rfl, fun pid pr => .swapped (p := p.withProcess pid pr) residency released⟩
  | notPopulated residency => exact ⟨rfl, fun pid pr => .notPopulated residency⟩

/-- Detaching a page from a process that is held in the hand. -/
theorem step_remove {p p' : Pager} {page : Nat} {e : PageEntry} {space : AddressSpace}
    (he : pr.pages.entries[page]? = some e) (h : p.Releases page e pr.space space p') :
    Step .shrink (p.withProcess pid pr)
      (p'.withProcess pid { pr with pages := ⟨pr.pages.entries.erase page⟩, space }) := by
  have hstep := Step.remove (Pager.getElem?_withProcess_self p pid pr) he
    ((releases_withProcess h).2 pid pr)
  rwa [Pager.withProcess_withProcess] at hstep

theorem ensures_unmapPages (pid : Nat) (m : Mapping) {page : Nat} (hpage : pageOffset page = 0)
    (count : Nat) (pr : Process) (t : Traced) :
    Ensures (unmapPages m page count pr) (fun pr' t' =>
      t'.pager.processes = t.pager.processes ∧
        Steps (· = .shrink) (t.pager.withProcess pid pr) (t'.pager.withProcess pid pr')) t := by
  induction count generalizing page pr t with
  | zero =>
    rw [unmapPages]
    exact ensures_pure.2 ⟨rfl, .refl _⟩
  | succ count ih =>
    rw [unmapPages, PageMap.remove, PageMap.lookup, pageFloor_of_pageOffset hpage]
    simp only
    cases he : pr.pages.entries[page]? with
    | none =>
      have hsame : (⟨pr.pages.entries.erase page⟩ : PageMap) = pr.pages :=
        PageMap.erase_of_getElem? he
      rw [hsame]
      exact ih (pageOffset_add_pageSize hpage) pr t
    | some e =>
      simp only [ensures_bind, ensures_ite, ensures_throw, implies_true, and_true]
      intro _
      refine (ensures_releaseEntry page e pr.space t).mono ?_
      intro space t₁ hreleases
      refine (ih (pageOffset_add_pageSize hpage) _ t₁).mono ?_
      intro pr' t' hrest
      exact ⟨hrest.1.trans (releases_withProcess hreleases).1,
        .trans (.of_step (step_remove he hreleases) rfl) hrest.2⟩

theorem ensures_unmapFile (pid id : Nat) (t : Traced) :
    Ensures (Pager.unmapFile pid id) (fun _ t' => Steps (· = .shrink) t.pager t'.pager) t := by
  rw [Pager.unmapFile]
  simp only [ensures_bind, ensures_process]
  intro pr hpr
  rw [MappingTable.remove]
  cases hm : pr.mappings.live[id]? with
  | none => simp
  | some m =>
    simp only [ensures_bind, ensures_setProcess, ensures_emit]
    refine (ensures_unmapPages pid m (pageOffset_pageFloor m.base) _ _ t).mono ?_
    intro pr' t' h
    have hstep : Step .shrink _ _ :=
      .mappings { pr.mappings with live := pr.mappings.live.erase id } t.pager.nextSerial hpr
    exact .trans (.of_step hstep rfl) h.2

/-! ### The end of a process -/

theorem ensures_unmapAll (pid : Nat) (mappings : List Mapping) (pr : Process) (t : Traced) :
    Ensures (unmapAll mappings pr) (fun pr' t' =>
      t'.pager.processes = t.pager.processes ∧
        Steps (· = .shrink) (t.pager.withProcess pid pr) (t'.pager.withProcess pid pr')) t := by
  induction mappings generalizing pr t with
  | nil =>
    rw [unmapAll]
    exact ensures_pure.2 ⟨rfl, .refl _⟩
  | cons m rest ih =>
    rw [unmapAll]
    simp only [ensures_bind]
    refine (ensures_unmapPages pid m (pageOffset_pageFloor m.base) _ pr t).mono ?_
    intro pr₁ t₁ h
    exact (ih pr₁ t₁).mono fun pr' t' hrest => ⟨hrest.1.trans h.1, h.2.trans hrest.2⟩

/-- The pages that are left after the first one of a list are those of the process without it. -/
theorem mem_tail_iff_erase {page : Nat} {e : PageEntry} {rest : List (Nat × PageEntry)}
    (hleft : ∀ k x, (k, x) ∈ (page, e) :: rest ↔ pr.pages.entries[k]? = some x)
    (hnew : ∀ a ∈ rest, page ≠ a.1) (k : Nat) (x : PageEntry) :
    (k, x) ∈ rest ↔ (pr.pages.entries.erase page)[k]? = some x := by
  rw [PageMap.getElem?_erase]
  split
  · rename_i hk
    subst hk
    simp only [reduceCtorEq, iff_false]
    exact fun hin => hnew _ hin rfl
  · rename_i hk
    rw [← hleft k x, List.mem_cons, Prod.mk.injEq]
    exact (or_iff_right fun h => hk h.1.symm).symm

/-- Giving back what the pages of a process hold detaches them one by one. The list of the pages
that are left says at any time what the process still has. -/
theorem ensures_releaseAll (pid : Nat) (left : List (Nat × PageEntry)) (pr : Process) (t : Traced)
    (hleft : ∀ page e, (page, e) ∈ left ↔ pr.pages.entries[page]? = some e)
    (hdistinct : left.Pairwise fun a b => a.1 ≠ b.1) :
    Ensures (releaseAll left pr.space) (fun _ t' =>
      t'.pager.processes = t.pager.processes ∧
        ∃ pr', (∀ page : Nat, pr'.pages.entries[page]? = none) ∧
          Steps (· = .shrink) (t.pager.withProcess pid pr) (t'.pager.withProcess pid pr')) t := by
  induction left generalizing pr t with
  | nil =>
    rw [releaseAll]
    refine ensures_pure.2 ⟨rfl, pr, fun page => ?_, .refl _⟩
    rw [Option.eq_none_iff_forall_ne_some]
    intro e he
    exact List.not_mem_nil ((hleft page e).2 he)
  | cons entry rest ih =>
    obtain ⟨page, e⟩ := entry
    obtain ⟨hnew, hrest⟩ := List.pairwise_cons.1 hdistinct
    rw [releaseAll]
    simp only [ensures_bind]
    refine (ensures_releaseEntry page e pr.space t).mono ?_
    intro space t₁ hreleases
    have he := (hleft page e).1 List.mem_cons_self
    refine (ih { pr with pages := ⟨pr.pages.entries.erase page⟩, space } t₁
      (mem_tail_iff_erase hleft hnew) hrest).mono ?_
    rintro _ t' ⟨hprocesses, pr', hbare, hsteps⟩
    exact ⟨hprocesses.trans (releases_withProcess hreleases).1, pr', hbare,
      .trans (.of_step (step_remove he hreleases) rfl) hsteps⟩

theorem ensures_destroy (pid : Nat) (t : Traced) :
    Ensures (Pager.destroy pid) (fun _ t' => Steps (· = .shrink) t.pager t'.pager) t := by
  rw [Pager.destroy]
  simp only [ensures_bind, ensures_process, ensures_update]
  intro pr hpr
  rw [MappingTable.takeAll]
  simp only [ensures_discard, ensures_emit]
  refine (ensures_unmapAll pid _ _ _).mono ?_
  intro pr₁ t₁ hunmapped
  have hkeys : pr₁.pages.toList.Pairwise fun a b => a.1 ≠ b.1 :=
    Std.ExtTreeMap.distinct_keys_toList.imp fun h heq => h (by simp [heq])
  refine (ensures_releaseAll pid pr₁.pages.toList pr₁ t₁
    (fun _ _ => Std.ExtTreeMap.mem_toList_iff_getElem?_eq_some) hkeys).mono ?_
  rintro _ t' ⟨hprocesses, pr', hbare, hreleased⟩
  -- the process leaves the pager first, so all of this happens to a pager with it put back
  have hstart : Step .shrink _ _ :=
    .mappings { pr.mappings with live := ∅ } t.pager.nextSerial hpr
  have hend := Step.discard (Pager.getElem?_withProcess_self t'.pager pid pr') hbare
  have herased : t'.pager.processes[pid]? = none := by
    rw [hprocesses, hunmapped.1]
    simp
  rw [Pager.erase_withProcess herased] at hend
  refine .trans (.of_step hstart rfl) (.trans ?_ (.of_step hend rfl))
  have hboth := hunmapped.2.trans hreleased
  rwa [Pager.withProcess_erase] at hboth

/-! ### Requests and runs -/

theorem ensures_refuseBy (pid : Nat) (refuses : Nat → Bool) (t : Traced) :
    Ensures (Pager.refuseBy pid refuses) (fun _ t' => Steps (· = .plan) t.pager t'.pager) t := by
  rw [Pager.refuseBy, ensures_update]
  cases hpr : t.pager.processes[pid]? with
  | none => exact .of_eq (Pager.modify_of_getElem?_none hpr _).symm
  | some pr =>
    have hmodify := Pager.modify_of_getElem? hpr fun pr =>
      { pr with space := pr.space.plan refuses }
    rw [hmodify]
    exact .of_step (.plan refuses hpr) rfl

/-- A process that is registered is new, and starts with nothing. -/
theorem ensures_register_fresh (pid : Nat) (t : Traced) :
    Ensures (Pager.register pid) (fun _ t' => t.pager.processes[pid]? = none ∧
      t'.pager = t.pager.withProcess pid .fresh) t := by
  rw [Pager.register]
  simp only [ensures_bind, ensures_pager, ensures_ite, ensures_throw, implies_true, true_and,
    ensures_setProcess]
  intro hnew
  exact ⟨by simpa using hnew, rfl⟩

theorem ensures_register (pid : Nat) (t : Traced) :
    Ensures (Pager.register pid) (fun _ t' => Steps (Change.Grows none) t.pager t'.pager) t := by
  refine (ensures_register_fresh pid t).mono ?_
  rintro _ t' ⟨hnew, hpager⟩
  rw [hpager]
  exact .of_step (.register hnew) trivial

theorem ensures_validAddress (pid addr esp : Nat) (forWrite : Bool) (t : Traced) :
    Ensures (Pager.validAddress pid addr esp forWrite)
      (fun _ t' => Steps (Change.Grows none) t.pager t'.pager) t := by
  rw [Pager.validAddress]
  simp only [ensures_bind, ensures_pager, ensures_ite, ensures_pure]
  constructor
  · intro _
    exact .refl _
  · intro _
    refine (ensures_findOrGrow pid addr esp t).mono ?_
    intro found t₁ hfinds
    cases found with
    | none => exact ensures_pure.2 hfinds.steps
    | some e => exact ensures_pure.2 hfinds.steps

theorem ensures_pageFault (pid addr esp : Nat) (t : Traced) :
    Ensures (Pager.pageFault pid addr esp)
      (fun r t' => Attempts (Change.Grows none) t.pager r t'.pager) t := by
  rw [Pager.pageFault]
  simp only [ensures_bind, ensures_emit, ensures_pure]
  refine (ensures_faultIn pid addr esp false _).mono ?_
  intro r t₁ hfault
  cases r with
  | error e => exact hfault.attempts.error (.refl _)
  | ok f => exact .ok hfault.attempts.steps

theorem ensures_handlePageFault (pid addr esp : Nat) (code : FaultCode) (t : Traced) :
    Ensures (Pager.handlePageFault pid addr esp code)
      (fun _ t' => Steps (Change.Grows none) t.pager t'.pager) t := by
  rw [Pager.handlePageFault]
  simp only [ensures_bind, ensures_emit, ensures_ite, ensures_pure]
  constructor
  · intro _
    exact .refl _
  · intro _
    refine (ensures_pageFault pid addr esp _).mono ?_
    intro r t₁ hfault
    cases r with
    | error e =>
      simp only [ensures_bind, ensures_emit, ensures_pure]
      exact hfault.steps
    | ok _ => exact ensures_pure.2 hfault.steps

theorem ensures_copyFromUser (pid start length esp : Nat) (t : Traced) :
    Ensures (Pager.copyFromUser pid start length esp)
      (fun r t' => Attempts (Change.Grows none) t.pager r t'.pager) t := by
  rw [Pager.copyFromUser]
  simp only [ensures_bind, ensures_pager, ensures_ite, ensures_pure, ensures_lift]
  exact ⟨fun _ _ _ => ensures_readPieces _ _ _ _ _ _ t, fun _ => .of_steps (.refl _) (by simp)⟩

theorem ensures_copyToUser (pid start : Nat) (data : Bytes) (esp : Nat) (t : Traced) :
    Ensures (Pager.copyToUser pid start data esp)
      (fun r t' => Attempts (fun c => c.Grows none ∨ c = .write) t.pager r t'.pager) t := by
  rw [Pager.copyToUser]
  simp only [ensures_bind, ensures_pager, ensures_ite, ensures_pure]
  exact ⟨fun _ => ensures_writePieces _ _ _ _ _ t, fun _ => .of_steps (.refl _) (by simp)⟩

/-- Every request is a sequence of steps of its kinds. -/
theorem ensures_perform (op : Op) (t : Traced) :
    Ensures (Pager.perform op) (fun answer t' => op.Performs t.pager answer t'.pager) t := by
  cases op with
  | register pid =>
    simp only [Pager.perform, ensures_bind, ensures_pure]
    exact (ensures_register pid t).mono fun _ _ h => ⟨h, False.elim⟩
  | destroy pid =>
    simp only [Pager.perform, ensures_bind, ensures_pure]
    exact (ensures_destroy pid t).mono fun _ _ h => ⟨h, False.elim⟩
  | refuse pid refusing =>
    simp only [Pager.perform, ensures_bind, ensures_pure]
    exact (ensures_refuseBy pid _ t).mono fun _ _ h => ⟨h, False.elim⟩
  | refuseBy pid refuses =>
    simp only [Pager.perform, ensures_bind, ensures_pure]
    exact (ensures_refuseBy pid refuses t).mono fun _ _ h => ⟨h, False.elim⟩
  | failReads file failing =>
    simp only [Pager.perform, Pager.failReads, ensures_bind, ensures_update, ensures_pure]
    exact ⟨.of_step (.medium _) trivial, False.elim⟩
  | declareZero pid page writable =>
    simp only [Pager.perform, Pager.declareZero, Pager.tryDeclareZero, ensures_bind, ensures_ite,
      ensures_pure, ensures_throw, implies_true, and_true]
    exact (ensures_tryDeclare pid page .zero writable t).mono fun _ _ h _ =>
      ⟨h.grows, False.elim⟩
  | tryDeclareZero pid page writable =>
    simp only [Pager.perform, Pager.tryDeclareZero, ensures_bind, ensures_pure]
    exact (ensures_tryDeclare pid page .zero writable t).mono fun _ _ h => ⟨h.grows, False.elim⟩
  | declareImage pid page file offset read writable =>
    simp only [Pager.perform, Pager.declareImage, Pager.tryDeclareImage, ensures_bind,
      ensures_pager, ensures_ite, ensures_pure, ensures_throw, implies_true, and_true]
    exact (ensures_tryDeclare pid page (.image file _ _) _ t).mono fun _ _ h _ =>
      ⟨h.grows, False.elim⟩
  | tryDeclareImage pid page file offset read writable =>
    simp only [Pager.perform, Pager.tryDeclareImage, ensures_bind, ensures_pager, ensures_pure]
    exact (ensures_tryDeclare pid page (.image file _ _) _ t).mono fun _ _ h =>
      ⟨h.grows, False.elim⟩
  | loadElf pid file =>
    simp only [Pager.perform, ensures_bind, ensures_pure]
    exact (ensures_loadElf pid file t).mono fun _ _ h => ⟨h.grows, False.elim⟩
  | pageFault pid addr esp =>
    simp only [Pager.perform, ensures_bind, ensures_pure]
    exact (ensures_pageFault pid addr esp t).mono fun _ _ h => ⟨h.steps, h.refuses⟩
  | interrupt pid addr esp code =>
    simp only [Pager.perform, ensures_bind, ensures_pure]
    exact (ensures_handlePageFault pid addr esp code t).mono fun _ _ h => ⟨h, False.elim⟩
  | validAddress pid addr esp forWrite =>
    simp only [Pager.perform, ensures_bind, ensures_pure]
    exact (ensures_validAddress pid addr esp forWrite t).mono fun _ _ h => ⟨h, False.elim⟩
  | pin pid start size esp forWrite =>
    simp only [Pager.perform, ensures_bind, ensures_pure]
    exact (ensures_pin pid start size esp forWrite t).mono fun _ _ h => ⟨h.steps, h.refuses⟩
  | unpin pid start size =>
    simp only [Pager.perform, ensures_bind, ensures_pure]
    exact (ensures_unpin pid start size t).mono fun _ _ h => ⟨h, False.elim⟩
  | copyFromUser pid start length esp =>
    simp only [Pager.perform, ensures_bind, ensures_pure]
    exact (ensures_copyFromUser pid start length esp t).mono fun _ _ h => ⟨h.steps, h.refuses⟩
  | copyToUser pid start data esp =>
    simp only [Pager.perform, ensures_bind, ensures_pure]
    exact (ensures_copyToUser pid start data esp t).mono fun _ _ h => ⟨h.steps, h.refuses⟩
  | mapFile pid file addr =>
    simp only [Pager.perform, ensures_bind, ensures_pure]
    exact (ensures_mapFile pid file addr t).mono fun _ _ h => ⟨h.grows, False.elim⟩
  | unmapFile pid id =>
    simp only [Pager.perform, ensures_bind, ensures_pure]
    exact (ensures_unmapFile pid id t).mono fun _ _ h => ⟨h, False.elim⟩

/-- A run is a sequence of the steps of its requests. -/
theorem ensures_run (ops : List Op) (t : Traced) :
    Ensures (Pager.run ops)
      (fun _ t' => Steps (fun change => ∃ op ∈ ops, op.changes change) t.pager t'.pager) t := by
  induction ops generalizing t with
  | nil =>
    rw [Pager.run]
    exact ensures_pure.2 (.refl _)
  | cons op rest ih =>
    rw [Pager.run]
    simp only [ensures_bind, ensures_pure]
    refine (ensures_perform op t).mono ?_
    intro answer t₁ hop
    refine (ih t₁).mono fun answers t' hrest => .trans (hop.steps.mono fun change h => ?_)
      (hrest.mono fun change h => ?_)
    · exact ⟨op, List.mem_cons_self, h⟩
    · obtain ⟨op', hop', h⟩ := h
      exact ⟨op', List.mem_cons_of_mem op hop', h⟩

/-- What each of its requests keeps is kept by a run. -/
theorem keeps_run {P : Traced → Prop} {ops : List Op}
    (h : ∀ op ∈ ops, Keeps P (Pager.perform op)) : Keeps P (Pager.run ops) := by
  induction ops with
  | nil => exact keeps_pure _
  | cons op rest ih =>
    rw [Pager.run]
    refine (h op List.mem_cons_self).bind fun answer => ?_
    exact (ih fun op' hop' => h op' (List.mem_cons_of_mem op hop')).bind fun _ => keeps_pure _

end PagerM

end DemandPaging
