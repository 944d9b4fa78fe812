import DemandPaging.Proofs.Ensures
import DemandPaging.Proofs.PageMap
import DemandPaging.Pager.Run
import Mathlib.Logic.Function.Basic
import Mathlib.Logic.Relation

/-!
# The changes that operations are made of

Every operation of the pager is a sequence of a few changes: a page is declared, loaded or given
back; a frame is pinned, unpinned or written; a process or a mapping comes or goes. `Pager.Step`
lists them, each with everything that is checked on the way. An invariant of the pager is then a
law about one step, and what an operation does to it follows from the steps it takes.

A load is one step although it moves two pages. Half-way through it a frame belongs to a page that
is not in it yet, and no invariant worth having holds there; `Pager.Acquires` and `Pager.Fetches`
are its parts.

## Main definitions

* `Pager.withProcess`, `Pager.declared` — the state of a process, the entry of a page.
* `Pager.Acquires`, `Pager.Fetches`, `Pager.Loads`, `Pager.Releases` — the parts of a step.
* `Pager.Step`, `Pager.Steps` — one change, and a sequence of them.

## Main results

* `PagerM.ensures_acquireFrame`, `PagerM.ensures_loadPage`, `PagerM.ensures_releaseEntry` — what
  the code does is what these relations say.
-/

namespace DemandPaging

/-- A source that reads from `file?`, through whichever opening of it, or from no file. -/
def PageSource.DrawsFrom (source : PageSource) (file? : Option Handle) : Prop :=
  ∀ h, source.handle? = some h → ∃ h₀, file? = some h₀ ∧ h.id = h₀.id ∧ h.file = h₀.file

namespace PageSource.DrawsFrom

variable {file? : Option Handle}

theorem zero : PageSource.zero.DrawsFrom file? := fun _ h => by cases h

theorem image (file : Handle) (offset read : Nat) :
    (PageSource.image file offset read).DrawsFrom (some file) := fun h hh => by
  cases hh
  exact ⟨file, rfl, rfl, rfl⟩

theorem mapped (id : Nat) (file : Handle) (serial offset : Nat) :
    (PageSource.mapped id { file with serial } offset).DrawsFrom (some file) := fun h hh => by
  cases hh
  exact ⟨file, rfl, rfl, rfl⟩

end PageSource.DrawsFrom

namespace Pager

variable {p p' : Pager} {o : FrameOwner} {pid page : Nat} {pr : Process}

/-- The pager with `pr` as the state of process `pid`. -/
def withProcess (p : Pager) (pid : Nat) (pr : Process) : Pager :=
  { p with processes := p.processes.insert pid pr }

/-- The entry of a declared page. -/
def declared (p : Pager) (o : FrameOwner) : Option PageEntry :=
  p.processes[o.pid]?.bind fun pr => pr.pages.entries[o.page]?

theorem getElem?_withProcess (p : Pager) (pid other : Nat) (pr : Process) :
    (p.withProcess pid pr).processes[other]?
      = if pid = other then some pr else p.processes[other]? := by
  simp [withProcess, Std.ExtTreeMap.getElem?_insert]

@[simp] theorem getElem?_withProcess_self (p : Pager) (pid : Nat) (pr : Process) :
    (p.withProcess pid pr).processes[pid]? = some pr := by
  rw [getElem?_withProcess, if_pos rfl]

/-- Writing a process back registers no other. -/
theorem isSome_withProcess {p : Pager} {pid : Nat} {pr : Process}
    (h : p.processes[pid]? = some pr) (pr' : Process) (other : Nat) :
    (p.withProcess pid pr').processes[other]?.isSome = p.processes[other]?.isSome := by
  rw [getElem?_withProcess]
  split
  · rename_i heq
    rw [← heq, h]
    rfl
  · rfl

/-- Two tables of processes are the same if they are the same at `pid` and elsewhere. -/
theorem processes_ext {m m' : Std.ExtTreeMap Nat Process} (pid : Nat)
    (hself : m[pid]? = m'[pid]?) (hother : ∀ q, pid ≠ q → m[q]? = m'[q]?) : m = m' := by
  refine Std.ExtTreeMap.ext_getElem? fun q => ?_
  by_cases hq : pid = q
  · rw [← hq, hself]
  · exact hother q hq

@[simp] theorem withProcess_withProcess (p : Pager) (pid : Nat) (pr pr' : Process) :
    (p.withProcess pid pr).withProcess pid pr' = p.withProcess pid pr' := by
  have : (p.processes.insert pid pr).insert pid pr' = p.processes.insert pid pr' := by
    refine processes_ext pid (by simp) ?_
    intro q hq
    simp [Std.ExtTreeMap.getElem?_insert, hq]
  simp [withProcess, this]

theorem withProcess_self (h : p.processes[pid]? = some pr) : p.withProcess pid pr = p := by
  have : p.processes.insert pid pr = p.processes := by
    refine processes_ext pid (by simp [h]) ?_
    intro q hq
    simp [Std.ExtTreeMap.getElem?_insert, hq]
  simp [withProcess, this]

/-- A process that is put back does not show that it was gone. -/
theorem withProcess_erase (p : Pager) (pid : Nat) (pr : Process) :
    ({ p with processes := p.processes.erase pid } : Pager).withProcess pid pr
      = p.withProcess pid pr := by
  have : (p.processes.erase pid).insert pid pr = p.processes.insert pid pr := by
    refine processes_ext pid (by simp) ?_
    intro q hq
    simp [Std.ExtTreeMap.getElem?_insert, Std.ExtTreeMap.getElem?_erase, hq]
  simp [withProcess, this]

/-- A process that was not there leaves nothing behind. -/
theorem erase_withProcess (h : p.processes[pid]? = none) :
    { p.withProcess pid pr with processes := (p.withProcess pid pr).processes.erase pid } = p := by
  have : (p.processes.insert pid pr).erase pid = p.processes := by
    refine processes_ext pid (by simp [h]) ?_
    intro q hq
    simp [Std.ExtTreeMap.getElem?_insert, Std.ExtTreeMap.getElem?_erase, hq]
  simp [withProcess, this]

theorem modify_of_getElem? (h : p.processes[pid]? = some pr) (f : Process → Process) :
    { p with processes := p.processes.modify pid f } = p.withProcess pid (f pr) := by
  have : p.processes.modify pid f = p.processes.insert pid (f pr) := by
    refine processes_ext pid (by simp [h]) ?_
    intro q hq
    simp [Std.ExtTreeMap.getElem?_modify, Std.ExtTreeMap.getElem?_insert, hq]
  simp [withProcess, this]

theorem modify_of_getElem?_none (h : p.processes[pid]? = none) (f : Process → Process) :
    { p with processes := p.processes.modify pid f } = p := by
  have : p.processes.modify pid f = p.processes := by
    refine processes_ext pid (by simp [h]) ?_
    intro q hq
    simp [Std.ExtTreeMap.getElem?_modify, hq]
  simp [this]

theorem declared_withProcess (p : Pager) (pid : Nat) (pr : Process) (o : FrameOwner) :
    (p.withProcess pid pr).declared o
      = if pid = o.pid then pr.pages.entries[o.page]? else p.declared o := by
  rw [declared, getElem?_withProcess]
  split <;> rfl

theorem declared_of_getElem? (h : p.processes[pid]? = some pr) (page : Nat) :
    p.declared ⟨pid, page⟩ = pr.pages.entries[page]? := by
  simp [declared, h]

/-! ### The entries after a change -/

theorem declared_of_processes_eq (h : p'.processes = p.processes) : p'.declared = p.declared := by
  funext o
  rw [declared, h, declared]

theorem declared_of_pages_eq {pr' : Process} (h : p.processes[pid]? = some pr)
    (hp' : p'.processes = p.processes.insert pid pr') (hpages : pr'.pages = pr.pages) :
    p'.declared = p.declared := by
  rw [declared_of_processes_eq (p := p.withProcess pid pr') hp']
  funext o
  rw [declared_withProcess]
  split
  · rename_i ho
    rw [hpages, declared, ← ho, h]
    rfl
  · rfl

/-- The entries after one entry of one process was replaced. -/
theorem declared_of_pages_update {pr' : Process} {x : Option PageEntry}
    (h : p.processes[pid]? = some pr) (hp' : p'.processes = p.processes.insert pid pr')
    (hpages : ∀ k : Nat, pr'.pages.entries[k]? = if page = k then x else pr.pages.entries[k]?) :
    p'.declared = Function.update p.declared ⟨pid, page⟩ x := by
  rw [declared_of_processes_eq (p := p.withProcess pid pr') hp']
  funext ⟨q, k⟩
  rw [declared_withProcess, hpages]
  by_cases hq : pid = q
  · subst hq
    by_cases hk : page = k
    · subst hk
      simp
    · rw [if_pos rfl, if_neg hk, Function.update_of_ne (by simpa using Ne.symm hk),
        declared_of_getElem? h]
  · rw [if_neg hq, Function.update_of_ne (by simp [Ne.symm hq])]

theorem declared_of_pages_set {pr' : Process} {addr : Nat} {e : PageEntry}
    (h : p.processes[pid]? = some pr) (hp' : p'.processes = p.processes.insert pid pr')
    (hpages : pr'.pages = pr.pages.set addr e) :
    p'.declared = Function.update p.declared ⟨pid, pageFloor addr⟩ (some e) := by
  refine declared_of_pages_update h hp' ?_
  intro k
  rw [hpages, PageMap.getElem?_set]

theorem declared_of_pages_erase {pr' : Process} (h : p.processes[pid]? = some pr)
    (hp' : p'.processes = p.processes.insert pid pr')
    (hpages : pr'.pages = ⟨pr.pages.entries.erase page⟩) :
    p'.declared = Function.update p.declared ⟨pid, page⟩ none := by
  refine declared_of_pages_update h hp' ?_
  intro k
  rw [hpages, PageMap.getElem?_erase]

/-- A process without pages comes and goes unnoticed. -/
theorem declared_withProcess_bare (h : ∀ o : FrameOwner, o.pid = pid → p.declared o = none)
    (hbare : ∀ page : Nat, pr.pages.entries[page]? = none) :
    (p.withProcess pid pr).declared = p.declared := by
  funext o
  rw [declared_withProcess]
  split
  · rw [hbare, h o (by rename_i ho; exact ho.symm)]
  · rfl

theorem declared_eq_none (h : p.processes[pid]? = none) {o : FrameOwner} (ho : o.pid = pid) :
    p.declared o = none := by
  rw [declared, ho, h]
  rfl

theorem declared_erase_bare (h : p.processes[pid]? = some pr)
    (hbare : ∀ page : Nat, pr.pages.entries[page]? = none) :
    ({ p with processes := p.processes.erase pid } : Pager).declared = p.declared := by
  funext o
  simp only [declared, Std.ExtTreeMap.getElem?_erase]
  split
  · rename_i ho
    have ho : pid = o.pid := by simpa using ho
    rw [← ho, h]
    exact (hbare o.page).symm
  · rfl

/-- A declared page that is not in a frame. -/
def Missing (p : Pager) (o : FrameOwner) : Prop :=
  pageOffset o.page = 0 ∧ ∃ e, p.declared o = some e ∧ e.frame? = none

/-! ### The parts of a load -/

/-- `p` hands frame `f` to page `o` and becomes `p'`: a free frame, or the frame of the oldest
unpinned page after that page was moved to swap. -/
inductive Acquires (p : Pager) (o : FrameOwner) (f : Nat) : Pager → Prop
  | free {frames : FramePool} (found : p.frames.tryAllocate o = .ok (some f, frames)) :
    Acquires p o f { p with frames }
  | evicting {full withdrawn frames : FramePool} {v : FrameOwner} {pr : Process} {e : PageEntry}
      {space : AddressSpace} {slot : Nat} {taken swap : Swap} {contents : Page}
      (none_free : p.frames.tryAllocate o = .ok (none, full))
      (victim : full.selectVictim = (some f, withdrawn))
      (owner : withdrawn.owner f = .ok (some v))
      (process : p.processes[v.pid]? = some pr)
      (entry : pr.pages.lookup v.page = some e)
      (resident : e.residency = .resident f)
      (unmapped : pr.space.clearPage v.page = .ok space)
      (slot_free : p.swap.allocate = .ok (slot, taken))
      (held : p.memory.contents f = .ok contents)
      (stored : taken.store slot contents = .ok swap)
      (reassigned : withdrawn.reassign f o = .ok frames) :
    Acquires p o f { p.withProcess v.pid
        { pr with space, pages := pr.pages.set v.page { e with residency := .swapped slot } } with
      frames, swap }

/-- What page entry `e` gets when it becomes resident in a frame that holds `old`, and the swap
area after it was read. -/
inductive Fetches (p : Pager) (e : PageEntry) (old : Page) : Except FileError Page → Swap → Prop
  | swapped {slot : Nat} {contents : Page} {swap : Swap} (residency : e.residency = .swapped slot)
      (fetched : p.swap.fetch slot = .ok (contents, swap)) :
    Fetches p e old (.ok contents) swap
  | populated (residency : e.residency = .notPopulated) :
    Fetches p e old (e.source.populate p.view old) p.swap

/-- The swap area after the slot of `e`, if it has one, was given back. -/
def freesSlot (e : PageEntry) (swap swap' : Swap) : Prop :=
  match e.slot? with
  | some slot => swap.release slot = .ok swap'
  | none => swap' = swap

/-- `p` tries to make the page at `page` of process `pid` resident, answers the frame or an error,
and becomes `p'`. -/
inductive Loads (p : Pager) (pid page : Nat) : Except FaultError Nat → Pager → Prop
  | unreadable {f : Nat} {p₁ : Pager} {pr : Process} {e : PageEntry} {old : Page}
      {error : FileError} {swap : Swap} {frames : FramePool}
      (acquired : p.Acquires ⟨pid, page⟩ f p₁)
      (process : p₁.processes[pid]? = some pr) (entry : pr.pages.lookup page = some e)
      (held : p₁.memory.contents f = .ok old)
      (fetched : p₁.Fetches e old (.error error) swap)
      (released : p₁.frames.release f = .ok frames) :
    Loads p pid page (.error (.io error)) { p₁ with swap, frames }
  | refused {f phys : Nat} {p₁ : Pager} {pr : Process} {e : PageEntry} {old contents : Page}
      {swap : Swap} {memory : FrameMemory} {space : AddressSpace} {frames : FramePool}
      (acquired : p.Acquires ⟨pid, page⟩ f p₁)
      (process : p₁.processes[pid]? = some pr) (entry : pr.pages.lookup page = some e)
      (held : p₁.memory.contents f = .ok old)
      (fetched : p₁.Fetches e old (.ok contents) swap)
      (written : p₁.memory.setContents f contents = .ok memory)
      (address : frameAddress f = .ok phys)
      (refused : pr.space.setPage page phys e.writable = .ok (false, space))
      (released : p₁.frames.release f = .ok frames) :
    Loads p pid page (.error .mapFailed)
      { p₁.withProcess pid { pr with space } with swap, memory, frames }
  | loaded {f phys : Nat} {p₁ : Pager} {pr : Process} {e : PageEntry} {old contents : Page}
      {swap freed : Swap} {memory : FrameMemory} {space : AddressSpace}
      (acquired : p.Acquires ⟨pid, page⟩ f p₁)
      (process : p₁.processes[pid]? = some pr) (entry : pr.pages.lookup page = some e)
      (held : p₁.memory.contents f = .ok old)
      (fetched : p₁.Fetches e old (.ok contents) swap)
      (written : p₁.memory.setContents f contents = .ok memory)
      (address : frameAddress f = .ok phys)
      (mapped : pr.space.setPage page phys e.writable = .ok (true, space))
      (slot_freed : freesSlot e swap freed) :
    Loads p pid page (.ok f)
      { p₁.withProcess pid
          { pr with space, pages := pr.pages.set page { e with residency := .resident f } } with
        swap := freed, memory }

/-- `p` gives back what a page holds that `space` maps, and becomes `p'`. -/
inductive Releases (p : Pager) (page : Nat) (e : PageEntry) (space : AddressSpace) :
    AddressSpace → Pager → Prop
  | resident {f : Nat} {space' : AddressSpace} {frames : FramePool}
      (residency : e.residency = .resident f) (unmapped : space.clearPage page = .ok space')
      (released : p.frames.release f = .ok frames) :
    Releases p page e space space' { p with frames }
  | swapped {slot : Nat} {swap : Swap} (residency : e.residency = .swapped slot)
      (released : p.swap.release slot = .ok swap) :
    Releases p page e space space { p with swap }
  | notPopulated (residency : e.residency = .notPopulated) : Releases p page e space space p

/-! ### The steps -/

/-- The kinds of changes. -/
inductive Change
  /-- A page is declared with the given source. -/
  | declare (source : PageSource)
  /-- A page, a process, a mapping or a pin is added or moved, and nothing is lost. -/
  | grow
  /-- The bytes of a page are replaced. -/
  | write
  /-- A page, a process or a mapping goes. -/
  | shrink
  /-- An address space is told which requests to refuse. -/
  | plan

/-- The changes that lose nothing, where the pages that are declared read from `file?` at most. -/
def Change.Grows (file? : Option Handle) : Change → Prop
  | .declare source => source.DrawsFrom file?
  | .grow => True
  | _ => False

/-- The changes that declare a page, which reads from `file?` at most. -/
def Change.Declares (file? : Option Handle) : Change → Prop
  | .declare source => source.DrawsFrom file?
  | _ => False

theorem Change.Declares.grows {file? : Option Handle} {change : Change}
    (h : change.Declares file?) : change.Grows file? := by
  cases change with
  | declare source => exact h
  | _ => exact h.elim

theorem Change.Grows.ne_plan {file? : Option Handle} {change : Change} (h : change.Grows file?) :
    change ≠ .plan := by
  rintro rfl
  exact h

theorem Change.ne_plan_of_grows_or_write {file? : Option Handle} {change : Change}
    (h : change.Grows file? ∨ change = .write) : change ≠ .plan := by
  rcases h with h | rfl
  · exact h.ne_plan
  · simp

/-- The changes of which every operation is made. -/
inductive Step : Change → Pager → Pager → Prop
  /-- A page of process `pid` is declared. -/
  | declare {p : Pager} {pid page : Nat} {pr : Process} {source : PageSource} (writable : Bool)
      (process : p.processes[pid]? = some pr)
      (allowed : PageMap.checkDeclaration page source = .ok ())
      (user : page < p.config.physBase)
      (undeclared : pr.pages.entries[page]? = none) :
    Step (.declare source) p
      (p.withProcess pid { pr with pages := pr.pages.set page (.fresh source writable) })
  /-- A page is made resident, or its load fails. -/
  | load {p p' : Pager} {pid page : Nat} {result : Except FaultError Nat}
      (missing : p.Missing ⟨pid, page⟩) (loads : p.Loads pid page result p') : Step .grow p p'
  | pin {p : Pager} {f : Nat} {frames : FramePool} (pinned : p.frames.pin f = .ok frames) :
    Step .grow p { p with frames }
  | unpin {p : Pager} {f : Nat} {frames : FramePool} (unpinned : p.frames.unpin f = .ok frames) :
    Step .grow p { p with frames }
  | register {p : Pager} {pid : Nat} (unregistered : p.processes[pid]? = none) :
    Step .grow p (p.withProcess pid .fresh)
  /-- Files begin or cease to fail. -/
  | medium {p : Pager} (failing : Nat → Bool) : Step .grow p { p with failing }
  /-- The bytes of a frame are replaced. -/
  | write {p : Pager} {f : Nat} {contents : Page} {memory : FrameMemory}
      (written : p.memory.setContents f contents = .ok memory) : Step .write p { p with memory }
  /-- A page is detached and what it holds is given back. -/
  | remove {p p' : Pager} {pid page : Nat} {pr : Process} {e : PageEntry} {space : AddressSpace}
      (process : p.processes[pid]? = some pr) (entry : pr.pages.entries[page]? = some e)
      (releases : p.Releases page e pr.space space p') :
    Step .shrink p (p'.withProcess pid { pr with pages := ⟨pr.pages.entries.erase page⟩, space })
  /-- A process without pages goes. -/
  | discard {p : Pager} {pid : Nat} {pr : Process} (process : p.processes[pid]? = some pr)
      (bare : ∀ page : Nat, pr.pages.entries[page]? = none) :
    Step .shrink p { p with processes := p.processes.erase pid }
  /-- The mappings of a process change, and with them the number of the next opening. -/
  | mappings {change : Change} {p : Pager} {pid : Nat} {pr : Process} (mappings : MappingTable)
      (nextSerial : Nat) (process : p.processes[pid]? = some pr) :
    Step change p { p.withProcess pid { pr with mappings } with nextSerial }
  /-- An address space starts a new plan of refusals. -/
  | plan {p : Pager} {pid : Nat} {pr : Process} (refuses : Nat → Bool)
      (process : p.processes[pid]? = some pr) :
    Step .plan p (p.withProcess pid { pr with space := pr.space.plan refuses })

/-- A sequence of steps of the kinds in `kinds`. -/
def Steps (kinds : Change → Prop) : Pager → Pager → Prop :=
  Relation.ReflTransGen fun p p' => ∃ change, kinds change ∧ Step change p p'

variable {kinds : Change → Prop}

namespace Steps

@[refl] theorem refl (p : Pager) : Steps kinds p p := Relation.ReflTransGen.refl

theorem trans {p₁ p₂ p₃ : Pager} (h : Steps kinds p₁ p₂) (h' : Steps kinds p₂ p₃) :
    Steps kinds p₁ p₃ := Relation.ReflTransGen.trans h h'

theorem of_eq (h : p = p') : Steps kinds p p' := h ▸ refl p

theorem of_step {change : Change} (h : Step change p p') (hk : kinds change) :
    Steps kinds p p' := .single ⟨change, hk, h⟩

theorem mono {kinds' : Change → Prop} (h : Steps kinds p p')
    (hk : ∀ change, kinds change → kinds' change) : Steps kinds' p p' := by
  refine Relation.ReflTransGen.mono ?_ _ _ h
  rintro q q' ⟨change, hc, hstep⟩
  exact ⟨change, hk change hc, hstep⟩

/-- What every step keeps, a sequence of steps keeps. -/
theorem keeps {P : Pager → Prop}
    (hP : ∀ {change p p'}, kinds change → Step change p p' → P p → P p')
    (h : Steps kinds p p') (hp : P p) : P p' := by
  induction h with
  | refl => exact hp
  | tail _ hstep ih =>
    obtain ⟨change, hk, hstep⟩ := hstep
    exact hP hk hstep ih

theorem grows {file? : Option Handle} (h : Steps (Change.Declares file?) p p') :
    Steps (Change.Grows file?) p p' := h.mono fun _ => Change.Declares.grows

/-- Declaring pages does not touch the frames. -/
theorem frames_of_declares {file? : Option Handle} (h : Steps (Change.Declares file?) p p') :
    p'.frames = p.frames := by
  refine h.keeps (P := fun q => q.frames = p.frames) ?_ rfl
  intro change q q' hchange hstep hq
  cases hstep with
  | declare | mappings => exact hq
  | _ => exact hchange.elim

end Steps

end Pager

namespace PagerM

variable {t : Traced}

theorem ensures_evict {f : Nat} {Q : Unit → Traced → Prop}
    (h : ∀ (v : FrameOwner) (pr : Process) (e : PageEntry) (space : AddressSpace) (slot : Nat)
      (taken swap : Swap) (contents : Page) (log : Array PagerEvent),
      t.pager.frames.owner f = .ok (some v) → t.pager.processes[v.pid]? = some pr →
      pr.pages.lookup v.page = some e → e.residency = .resident f →
      pr.space.clearPage v.page = .ok space → t.pager.swap.allocate = .ok (slot, taken) →
      t.pager.memory.contents f = .ok contents → taken.store slot contents = .ok swap →
      Q () ⟨{ t.pager.withProcess v.pid
        { pr with space, pages := pr.pages.set v.page { e with residency := .swapped slot } } with
          swap }, log⟩) :
    Ensures (evict f) Q t := by
  rw [evict]
  simp only [ensures_bind, ensures_pager, ensures_lift]
  intro owner howner
  cases owner with
  | none => simp
  | some v =>
    simp only [ensures_bind, ensures_process]
    intro pr hpr
    cases he : pr.pages.lookup v.page with
    | none => simp
    | some e =>
      simp only [ensures_ite, ensures_bind, ensures_throw, ensures_lift, ensures_pager,
        ensures_emit, ensures_setSwap, ensures_setProcess, implies_true, and_true]
      rintro hres space hspace ⟨slot, taken⟩ hslot _ _ contents hcontents swap hswap
      exact h v pr e space slot taken swap contents _ howner hpr he hres hspace hslot hcontents
        hswap

theorem ensures_acquireFrame (o : FrameOwner) (t : Traced) :
    Ensures (acquireFrame o) (fun f t' => t.pager.Acquires o f t'.pager) t := by
  rw [acquireFrame]
  simp only [ensures_bind, ensures_pager, ensures_lift, ensures_setFrames]
  rintro ⟨found, full⟩ hfound
  cases found with
  | some f => exact ensures_pure.2 (.free hfound)
  | none =>
    simp only
    cases hvictim : full.selectVictim with
    | mk victim withdrawn =>
      simp only [ensures_bind, ensures_setFrames]
      cases victim with
      | none => simp
      | some f =>
        simp only [ensures_bind]
        refine ensures_evict fun v pr e space slot taken swap contents log howner hpr he hres
          hspace hslot hheld hstored => ?_
        simp only [ensures_pager, ensures_lift, ensures_setFrames, ensures_pure]
        intro frames hframes
        exact .evicting hfound hvictim howner hpr he hres hspace hslot hheld hstored hframes

theorem ensures_fetchContents (pid page : Nat) (e : PageEntry) (old : Page) (t : Traced) :
    Ensures (fetchContents pid page e old)
      (fun r t' => ∃ swap, t'.pager = { t.pager with swap } ∧ t.pager.Fetches e old r swap) t := by
  rw [fetchContents]
  cases hres : e.residency with
  | swapped slot =>
    simp only [ensures_bind, ensures_emit, ensures_pager, ensures_lift, ensures_setSwap,
      ensures_pure]
    rintro _ _ ⟨contents, swap⟩ hfetch
    exact ⟨swap, rfl, .swapped hres hfetch⟩
  | notPopulated =>
    simp only [ensures_bind, ensures_emit, ensures_pager, ensures_pure]
    exact ⟨t.pager.swap, rfl, .populated hres⟩
  | resident f => simp

theorem ensures_loadPage (pid page : Nat) (t : Traced) :
    Ensures (loadPage pid page) (fun r t' => t.pager.Loads pid page r t'.pager) t := by
  rw [loadPage]
  simp only [ensures_bind]
  refine (ensures_acquireFrame ⟨pid, page⟩ t).mono ?_
  intro f t₁ hacq
  simp only [ensures_process]
  intro pr hpr
  cases he : pr.pages.lookup page with
  | none => simp
  | some e =>
    simp only [ensures_bind, ensures_pager, ensures_lift]
    intro old hold
    refine (ensures_fetchContents pid page e old t₁).mono ?_
    intro r t₂
    obtain ⟨p₂, log⟩ := t₂
    rintro ⟨swap, rfl, hfetch⟩
    cases r with
    | error error =>
      simp only [ensures_bind, ensures_releaseFrame, ensures_pure]
      intro frames hframes
      exact .unreadable hacq hpr he hold hfetch hframes
    | ok contents =>
      simp only [ensures_bind, ensures_setContents, ensures_lift]
      rintro memory hmemory phys hphys ⟨installed, space⟩ hspace
      cases installed with
      | false =>
        simp only [Bool.false_eq_true, if_false, ensures_bind, ensures_setProcess,
          ensures_releaseFrame, ensures_pure]
        intro frames hframes
        exact .refused hacq hpr he hold hfetch hmemory hphys hspace hframes
      | true =>
        have hloaded := fun freed (h : Pager.freesSlot e swap freed) =>
          Pager.Loads.loaded hacq hpr he hold hfetch hmemory hphys hspace h
        simp only [if_true]
        cases hslot : e.slot? with
        | none =>
          simp only [ensures_bind, ensures_setProcess, ensures_pure]
          exact hloaded swap (by simp [Pager.freesSlot, hslot])
        | some slot =>
          simp only [ensures_bind, ensures_pager, ensures_lift, ensures_setSwap,
            ensures_setProcess, ensures_pure]
          intro freed hfreed
          exact hloaded freed (by simpa [Pager.freesSlot, hslot] using hfreed)

theorem ensures_releaseEntry (page : Nat) (e : PageEntry) (space : AddressSpace) (t : Traced) :
    Ensures (releaseEntry page e space)
      (fun space' t' => t.pager.Releases page e space space' t'.pager) t := by
  rw [releaseEntry]
  cases hres : e.residency with
  | resident f =>
    simp only [ensures_bind, ensures_lift, ensures_releaseFrame, ensures_pure]
    intro space' hspace frames hframes
    exact .resident hres hspace hframes
  | swapped slot =>
    simp only [ensures_bind, ensures_pager, ensures_lift, ensures_setSwap, ensures_pure]
    intro swap hswap
    exact .swapped hres hswap
  | notPopulated =>
    simp only [ensures_pure]
    exact .notPopulated hres

end PagerM

end DemandPaging
