import DemandPaging.Proofs.Operations

/-!
# What requests declare

A page is declared with a source, and as writable or not. Being loaded, moved to swap and loaded
again changes neither, so the *declarations* of the pager leave out where its pages are. Faults,
pins, copies and loads of executables take no declaration back, and they do not open or close a
mapping either: all they do to the declarations is to add some.

So there is one question to ask of such a request, namely which declarations it adds. It is asked
here once for all of them. `Pager.Extends` takes the answer as a parameter, and each part of a
request keeps it as soon as the pages that this part declares are among those it allows. A fault
declares stack pages, where the stack may grow; the other requests declare what they are told to.

## Main definitions

* `Pager.declarations` — the source of each declared page, and whether it is writable.
* `Pager.Extends` — pages were moved, and pages of a given kind were declared.
* `Op.remaps` — the requests that register and destroy processes and map and unmap files.
* `Op.access?`, `UserAccess.Grows` — the bytes that a request reaches for, and the stack pages that
  it declares for them.
* `Op.Adds` — the declarations that a request may add.

## Main results

* `PagerM.extends_faultIn`, `PagerM.extends_pinPages`, `PagerM.extends_readPieces`,
  `PagerM.extends_writePieces` — the parts of requests that reach for user memory.
* `PagerM.ensures_perform_extends` — a request that remaps nothing extends the pager.
-/

namespace DemandPaging

/-- Where the contents of a declared page come from, and whether it is writable. -/
def Pager.declarations (p : Pager) (o : FrameOwner) : Option (PageSource × Bool) :=
  (p.declared o).map fun e => (e.source, e.writable)

namespace Pager

variable {p p₁ p' : Pager} {fresh : FrameOwner → PageSource × Bool → Prop}
  {pid addr esp f page : Nat} {forWrite : Bool} {pr pr' : Process} {e : PageEntry}
  {o : FrameOwner}

theorem declarations_congr (h : p'.declared = p.declared) : p'.declarations = p.declarations := by
  funext o
  rw [declarations, h, declarations]

theorem declarations_of_declared (h : p.declared o = some e) :
    p.declarations o = some (e.source, e.writable) := by
  rw [declarations, h, Option.map_some]

/-- Moving a page is no matter of its declaration. -/
theorem declarations_of_residency (h : p.processes[pid]? = some pr)
    (hp' : p'.processes = p.processes.insert pid pr') (he : pr.pages.lookup addr = some e)
    {residency : Residency} (hpages : pr'.pages = pr.pages.set addr { e with residency }) :
    p'.declarations = p.declarations := by
  have hdeclared : p.declared ⟨pid, pageFloor addr⟩ = some e := by
    rwa [declared_of_getElem? h]
  funext o
  rw [declarations, declared_of_pages_set h hp' hpages]
  by_cases ho : o = ⟨pid, pageFloor addr⟩
  · rw [ho, Function.update_self, declarations_of_declared hdeclared, Option.map_some]
  · rw [Function.update_of_ne ho, declarations]

/-! ### Extensions -/

/-- From `p` to `p'` pages were moved, and pages were declared as `fresh` allows. What was declared
before is still declared, and the mappings are as they were. -/
structure Extends (fresh : FrameOwner → PageSource × Bool → Prop) (p p' : Pager) : Prop where
  config_eq : p'.config = p.config
  nextSerial_eq : p'.nextSerial = p.nextSerial
  mappings_eq : ∀ pid : Nat,
    p'.processes[pid]?.map Process.mappings = p.processes[pid]?.map Process.mappings
  kept : ∀ o d, p.declarations o = some d → p'.declarations o = some d
  allowed : ∀ o d, p.declarations o = none → p'.declarations o = some d → fresh o d

/-- A process is replaced by one with the same mappings. -/
theorem mappings_eq_of_insert (h : p.processes[pid]? = some pr)
    (hp' : p'.processes = p.processes.insert pid pr') (hpr : pr'.mappings = pr.mappings) (q : Nat) :
    p'.processes[q]?.map Process.mappings = p.processes[q]?.map Process.mappings := by
  rw [hp', Std.ExtTreeMap.getElem?_insert]
  split
  · rename_i hq
    rw [← Std.LawfulEqCmp.eq_of_compare hq, h, Option.map_some, Option.map_some, hpr]
  · rfl

namespace Extends

/-- No page is declared. -/
theorem of_declarations (hconfig : p'.config = p.config) (hserial : p'.nextSerial = p.nextSerial)
    (hmappings : ∀ pid : Nat,
      p'.processes[pid]?.map Process.mappings = p.processes[pid]?.map Process.mappings)
    (h : p'.declarations = p.declarations) : p.Extends fresh p' where
  config_eq := hconfig
  nextSerial_eq := hserial
  mappings_eq := hmappings
  kept o d hd := by rwa [h]
  allowed o d hnone hd := by
    rw [h, hnone] at hd
    cases hd

@[refl] theorem refl (p : Pager) : p.Extends fresh p := of_declarations rfl rfl (fun _ => rfl) rfl

theorem trans (h : p.Extends fresh p₁) (h' : p₁.Extends fresh p') : p.Extends fresh p' where
  config_eq := h'.config_eq.trans h.config_eq
  nextSerial_eq := h'.nextSerial_eq.trans h.nextSerial_eq
  mappings_eq pid := (h'.mappings_eq pid).trans (h.mappings_eq pid)
  kept o d hd := h'.kept o d (h.kept o d hd)
  allowed o d hnone hd := by
    cases h₁ : p₁.declarations o with
    | none => exact h'.allowed o d h₁ hd
    | some d₁ =>
      rw [h'.kept o d₁ h₁] at hd
      exact Option.some.inj hd ▸ h.allowed o d₁ hnone h₁

/-- The processes are not touched. -/
theorem of_processes (h : p'.processes = p.processes) (hconfig : p'.config = p.config)
    (hserial : p'.nextSerial = p.nextSerial) : p.Extends fresh p' :=
  of_declarations hconfig hserial (fun _ => by rw [h])
    (declarations_congr (declared_of_processes_eq h))

/-- A page is moved. -/
theorem move {space : AddressSpace} (h : p.processes[pid]? = some pr)
    (he : pr.pages.lookup addr = some e) (residency : Residency) :
    p.Extends fresh (p.withProcess pid
      { pr with space, pages := pr.pages.set addr { e with residency } }) :=
  of_declarations rfl rfl (mappings_eq_of_insert h rfl rfl) (declarations_of_residency h rfl he rfl)

/-- The tables of a process change. -/
theorem tables (h : p.processes[pid]? = some pr) (space : AddressSpace) :
    p.Extends fresh (p.withProcess pid { pr with space }) :=
  of_declarations rfl rfl (mappings_eq_of_insert h rfl rfl)
    (declarations_congr (declared_of_pages_eq h rfl rfl))

theorem isSome_declared (h : p.Extends fresh p') (hd : (p.declared o).isSome) :
    (p'.declared o).isSome := by
  obtain ⟨e, he⟩ := Option.isSome_iff_exists.1 hd
  have hkept := h.kept o _ (declarations_of_declared he)
  rw [declarations, Option.map_eq_some_iff] at hkept
  obtain ⟨e', he', -⟩ := hkept
  rw [he']
  rfl

/-- A page is declared. -/
theorem declare {source : PageSource} {writable : Bool} (h : p.processes[pid]? = some pr)
    (hnone : pr.pages.lookup addr = none)
    (hfresh : fresh ⟨pid, pageFloor addr⟩ (source, writable)) :
    p.Extends fresh (p.withProcess pid
      { pr with pages := pr.pages.set addr (.fresh source writable) }) where
  config_eq := rfl
  nextSerial_eq := rfl
  mappings_eq := mappings_eq_of_insert h rfl rfl
  kept o d hd := by
    have hne : o ≠ ⟨pid, pageFloor addr⟩ := by
      rintro rfl
      rw [declarations, declared_of_getElem? h, ← PageMap.lookup, hnone] at hd
      cases hd
    rwa [declarations, declared_of_pages_set h rfl rfl, Function.update_of_ne hne]
  allowed o d hundeclared hd := by
    rw [declarations, declared_of_pages_set h rfl rfl] at hd
    by_cases ho : o = ⟨pid, pageFloor addr⟩
    · rw [ho, Function.update_self] at hd
      cases hd
      rwa [ho]
    · rw [Function.update_of_ne ho, ← declarations, hundeclared] at hd
      cases hd

end Extends

end Pager

/-- Pages were moved since `p`, and pages were declared as `fresh` allows. -/
def Traced.Extends (p : Pager) (fresh : FrameOwner → PageSource × Bool → Prop) (t : Traced) :
    Prop :=
  p.Extends fresh t.pager

/-- A property that looks at the processes, the tunables and the number of the next opening only. -/
def Traced.Lasting (P : Traced → Prop) : Prop :=
  ∀ {t t' : Traced}, t'.pager.processes = t.pager.processes → t'.pager.config = t.pager.config →
    t'.pager.nextSerial = t.pager.nextSerial → P t → P t'

theorem Traced.Extends.lasting {p : Pager} {fresh : FrameOwner → PageSource × Bool → Prop} :
    Lasting (Extends p fresh) := fun hprocesses hconfig hserial ht =>
  Pager.Extends.trans ht (.of_processes hprocesses hconfig hserial)

/-- Pages were moved and declared since `p`, and now process `pid` is `pr`. -/
structure Traced.Holds (p : Pager) (fresh : FrameOwner → PageSource × Bool → Prop) (pid : Nat)
    (pr : Process) (t : Traced) : Prop where
  ext : t.Extends p fresh
  process : t.pager.processes[pid]? = some pr

theorem Traced.Holds.lasting {p : Pager} {fresh : FrameOwner → PageSource × Bool → Prop} {pid : Nat}
    {pr : Process} : Lasting (Holds p fresh pid pr) := fun hprocesses hconfig hserial ht =>
  ⟨Extends.lasting hprocesses hconfig hserial ht.ext, by rw [hprocesses]; exact ht.process⟩

/-- Whether a request may change what is known of mappings. -/
def Op.remaps : Op → Bool
  | .register .. | .destroy .. | .mapFile .. | .unmapFile .. => true
  | _ => false

/-- An access to `length` bytes of user memory from `start` on, with the stack pointer at `esp`. -/
structure UserAccess where
  pid : Nat
  start : Nat
  length : Nat
  esp : Nat

/-- The bytes of user memory that a request reaches for. -/
def Op.access? : Op → Option UserAccess
  | .pageFault pid addr esp | .interrupt pid addr esp _ | .validAddress pid addr esp _ =>
    some ⟨pid, addr, 1, esp⟩
  | .pin pid start size esp _ => some ⟨pid, start, size, esp⟩
  | .copyFromUser pid start length esp => some ⟨pid, start, length, esp⟩
  | .copyToUser pid start data esp => some ⟨pid, start, data.size, esp⟩
  | _ => none

/-- An access declares the writable stack page of one of its bytes, if the stack may grow there. -/
def UserAccess.Grows (a : UserAccess) (c : Config) (o : FrameOwner) (d : PageSource × Bool) :
    Prop :=
  ∃ v, a.start ≤ v ∧ v < a.start + a.length ∧ c.isStackAccess v a.esp = .ok true ∧
    o = ⟨a.pid, pageFloor v⟩ ∧ d = (.zero, true)

/-- The other requests that remap nothing declare pages of zeros, and pages of the executable they
are given. -/
def Op.Declares (op : Op) (source : PageSource) : Prop :=
  source = .zero ∨
    ∃ file offset read, op.handle? = some file ∧ source = .image file offset read

/-- The declarations that a request may add. -/
def Op.Adds (op : Op) (c : Config) : FrameOwner → PageSource × Bool → Prop :=
  match op.access? with
  | some a => a.Grows c
  | none => fun _ d => op.Declares d.1

/-- None of them is a page of a mapping. -/
theorem Op.Adds.declares {op : Op} {c : Config} {o : FrameOwner} {d : PageSource × Bool}
    (h : op.Adds c o d) : op.Declares d.1 := by
  rw [Adds] at h
  cases ha : op.access? with
  | some a =>
    rw [ha] at h
    obtain ⟨v, -, -, -, -, rfl⟩ := h
    exact .inl rfl
  | none =>
    rw [ha] at h
    exact h

namespace PagerM

open Traced (Extends Holds)

variable {α β : Type} {p : Pager} {fresh : FrameOwner → PageSource × Bool → Prop}
  {pid addr esp : Nat} {pr : Process}

/-! ### What leaves the processes alone -/

section Lasting

variable {P : Traced → Prop}

theorem lasting_update (hP : Traced.Lasting P) {g : Pager → Pager}
    (hg : ∀ q, (g q).processes = q.processes ∧ (g q).config = q.config ∧
      (g q).nextSerial = q.nextSerial) : Preserves P (update g) :=
  preserves_update fun t ht => hP (hg t.pager).1 (hg t.pager).2.1 (hg t.pager).2.2 ht

theorem lasting_emit (hP : Traced.Lasting P) (event : PagerEvent) : Preserves P (emit event) :=
  preserves_emit fun t ht => hP (t := t) rfl rfl rfl ht

theorem lasting_setFrames (hP : Traced.Lasting P) (frames : FramePool) :
    Preserves P (setFrames frames) := lasting_update hP fun _ => ⟨rfl, rfl, rfl⟩

theorem lasting_setSwap (hP : Traced.Lasting P) (swap : Swap) : Preserves P (setSwap swap) :=
  lasting_update hP fun _ => ⟨rfl, rfl, rfl⟩

theorem lasting_setContents (hP : Traced.Lasting P) (frame : Nat) (page : Page) :
    Preserves P (setContents frame page) :=
  preserves_pager.bind fun _ => (preserves_lift _).bind fun _ =>
    lasting_update hP fun _ => ⟨rfl, rfl, rfl⟩

theorem lasting_releaseFrame (hP : Traced.Lasting P) (frame : Nat) :
    Preserves P (releaseFrame frame) :=
  preserves_pager.bind fun _ => (preserves_lift _).bind fun _ => lasting_setFrames hP _

theorem lasting_pinFrame (hP : Traced.Lasting P) (frame : Nat) : Preserves P (pinFrame frame) :=
  preserves_pager.bind fun _ => (preserves_lift _).bind fun _ => lasting_setFrames hP _

theorem lasting_unpinFrame (hP : Traced.Lasting P) (frame : Nat) : Preserves P (unpinFrame frame) :=
  preserves_pager.bind fun _ => (preserves_lift _).bind fun _ => lasting_setFrames hP _

theorem lasting_unpinFrames (hP : Traced.Lasting P) (frames : List Nat) :
    Preserves P (unpinFrames frames) := by
  induction frames with
  | nil => exact preserves_pure ()
  | cons f rest ih => exact (lasting_unpinFrame hP f).bind fun _ => ih

theorem lasting_unpinPages (hP : Traced.Lasting P) (pages : PageMap) (page count : Nat) :
    Preserves P (unpinPages pages page count) := by
  induction count generalizing page with
  | zero => exact preserves_pure ()
  | succ count ih =>
    rw [unpinPages]
    cases (pages.lookup page).bind PageEntry.frame? with
    | none => exact (preserves_pure ()).bind fun _ => ih _
    | some f => exact (lasting_unpinFrame hP f).bind fun _ => ih _

theorem lasting_copyOut (frame : Nat) (piece : Piece) : Preserves P (copyOut frame piece) :=
  preserves_pager.bind fun _ => (preserves_lift _).bind fun _ => preserves_pure _

theorem lasting_copyIn (hP : Traced.Lasting P) (frame : Nat) (piece : Piece) (data : Bytes) :
    Preserves P (copyIn frame piece data) :=
  preserves_pager.bind fun _ => (preserves_lift _).bind fun _ => lasting_setContents hP _ _

theorem lasting_fetchContents (hP : Traced.Lasting P) (pid page : Nat) (e : PageEntry)
    (old : Page) : Preserves P (fetchContents pid page e old) := by
  rw [fetchContents]
  cases e.residency with
  | swapped slot =>
    refine (lasting_emit hP _).bind fun _ => preserves_pager.bind fun _ =>
      (preserves_lift _).bind fun _ => (lasting_emit hP _).bind fun _ =>
        preserves_pager.bind fun _ => (preserves_lift _).bind fun fetched => ?_
    exact (lasting_setSwap hP fetched.2).bind fun _ => preserves_pure _
  | notPopulated =>
    exact (lasting_emit hP _).bind fun _ => preserves_pager.bind fun _ => preserves_pure _
  | resident f => exact preserves_throw _

end Lasting

/-! ### The parts of requests -/

theorem extends_update {g : Pager → Pager} (hg : ∀ q : Pager, q.Extends fresh (g q)) :
    Preserves (Extends p fresh) (update g) :=
  preserves_update fun t ht => Pager.Extends.trans ht (hg t.pager)

/-- An action that is about to write process `pid` back, which it has read as `pr`: where it stops,
well or with a panic, pages were moved and declared since `p`. -/
def WritesBack (p : Pager) (fresh : FrameOwner → PageSource × Bool → Prop) (pid : Nat)
    (pr : Process) (x : PagerM α) : Prop :=
  ∀ t, t.Holds p fresh pid pr →
    Meets x (fun _ => Extends p fresh) (fun _ => Extends p fresh) t

theorem Preserves.writesBack {x : PagerM α} (hx : Preserves (Extends p fresh) x) :
    WritesBack p fresh pid pr x := fun t ht => preserves_iff.1 hx t ht.ext

/-- What leaves the processes alone may come before. -/
theorem WritesBack.of_bind {x : PagerM α} {f : α → PagerM β}
    (hx : Preserves (Holds p fresh pid pr) x) (hf : ∀ a, WritesBack p fresh pid pr (f a)) :
    WritesBack p fresh pid pr (x >>= f) := fun _ ht =>
  hx.meets_bind ht hf fun _ _ h => h.ext

theorem WritesBack.ite {c : Prop} [Decidable c] {x y : PagerM α} (hx : WritesBack p fresh pid pr x)
    (hy : WritesBack p fresh pid pr y) : WritesBack p fresh pid pr (if c then x else y) := by
  split
  · exact hx
  · exact hy

/-- A process that was read is what the pager knows of it. -/
theorem extends_process {f : Process → PagerM α} (hf : ∀ pr, WritesBack p fresh pid pr (f pr)) :
    Preserves (Extends p fresh) (process pid >>= f) := by
  refine preserves_iff.2 fun t ht => ?_
  rw [meets_bind, process, meets_bind, meets_pager]
  cases hpr : t.pager.processes[pid]? with
  | none => exact ht
  | some pr => exact hf pr t ⟨ht, hpr⟩

/-- A process is written back. -/
theorem writesBack_setProcess {pr' : Process} {f : Unit → PagerM α}
    (hpr : ∀ q : Pager, q.processes[pid]? = some pr → q.Extends fresh (q.withProcess pid pr'))
    (hf : Preserves (Extends p fresh) (f ())) :
    WritesBack p fresh pid pr (setProcess pid pr' >>= f) := by
  intro t ht
  rw [meets_bind, meets_setProcess]
  exact preserves_iff.1 hf _ (Pager.Extends.trans ht.ext (hpr t.pager ht.process))

/-- The page in a frame is moved to swap. -/
theorem extends_evict (frame : Nat) : Preserves (Extends p fresh) (evict frame) := by
  refine preserves_pager.bind fun _ => (preserves_lift _).bind fun owner => ?_
  cases owner with
  | none => exact preserves_throw _
  | some v =>
    refine extends_process fun pr => ?_
    cases he : pr.pages.lookup v.page with
    | none => exact (preserves_throw _).writesBack
    | some e =>
      refine .ite ?swap (.of_bind (preserves_throw _) fun _ => ?swap)
      refine .of_bind (preserves_lift _) fun space => .of_bind preserves_pager fun _ =>
        .of_bind (preserves_lift _) fun taken => .of_bind (preserves_lift _) fun _ => ?_
      refine .of_bind (lasting_emit Holds.lasting _) fun _ => .of_bind preserves_pager fun _ =>
        .of_bind (preserves_lift _) fun held => .of_bind (preserves_lift _) fun swap => ?_
      refine .of_bind (lasting_setSwap Holds.lasting swap) fun _ => ?_
      exact writesBack_setProcess (fun q hq => .move hq he _) (lasting_emit Extends.lasting _)

theorem extends_acquireFrame (o : FrameOwner) :
    Preserves (Extends p fresh) (acquireFrame o) := by
  refine preserves_pager.bind fun _ => (preserves_lift _).bind ?_
  rintro ⟨found, full⟩
  refine (lasting_setFrames Extends.lasting full).bind fun _ => ?_
  cases found with
  | some f => exact preserves_pure f
  | none =>
    simp only
    cases hvictim : full.selectVictim with
    | mk victim withdrawn =>
      refine (lasting_setFrames Extends.lasting withdrawn).bind fun _ => ?_
      cases victim with
      | none => exact preserves_throw _
      | some f =>
        refine (extends_evict f).bind fun _ => preserves_pager.bind fun _ => ?_
        exact (preserves_lift _).bind fun frames =>
          (lasting_setFrames Extends.lasting frames).bind fun _ => preserves_pure f

theorem extends_loadPage (pid page : Nat) : Preserves (Extends p fresh) (loadPage pid page) := by
  refine (extends_acquireFrame ⟨pid, page⟩).bind fun f => extends_process fun pr => ?_
  cases he : pr.pages.lookup page with
  | none => exact (preserves_throw _).writesBack
  | some e =>
    refine .of_bind preserves_pager fun _ => .of_bind (preserves_lift _) fun old => ?_
    refine .of_bind (lasting_fetchContents Holds.lasting pid page e old) fun r => ?_
    have hrelease : ∀ error : FaultError,
        Preserves (Extends p fresh) (do
          releaseFrame f
          return (.error error : Except FaultError Nat)) := fun error =>
      (lasting_releaseFrame Extends.lasting f).bind fun _ => preserves_pure _
    cases r with
    | error error => exact (hrelease _).writesBack
    | ok contents =>
      refine .of_bind (lasting_setContents Holds.lasting f contents) fun _ =>
        .of_bind (preserves_lift _) fun phys => .of_bind (preserves_lift _) ?_
      rintro ⟨installed, space⟩
      cases installed with
      | false => exact writesBack_setProcess (fun q hq => .tables hq space) (hrelease _)
      | true =>
        have hloaded : WritesBack p fresh pid pr (do
            setProcess pid { pr with
              space, pages := pr.pages.set page { e with residency := .resident f } }
            return (.ok f : Except FaultError Nat)) :=
          writesBack_setProcess (fun q hq => .move hq he _) (preserves_pure _)
        simp only [if_true]
        cases e.slot? with
        | none => exact hloaded
        | some slot =>
          exact .of_bind preserves_pager fun _ => .of_bind (preserves_lift _) fun swap =>
            .of_bind (lasting_setSwap Holds.lasting swap) fun _ => hloaded

section Access

/-- Finding a page declares it if the stack has to grow for it. -/
theorem extends_findOrGrow (hfresh : p.config.isStackAccess addr esp = .ok true →
      fresh ⟨pid, pageFloor addr⟩ (.zero, true)) :
    Preserves (Extends p fresh) (findOrGrow pid addr esp) := by
  rw [findOrGrow_eq]
  refine extends_process fun pr => ?_
  cases he : pr.pages.lookup addr with
  | some e => exact (preserves_pure _).writesBack
  | none =>
    intro t ht
    rw [meets_bind, meets_pager, meets_bind, meets_lift]
    refine ⟨fun stack hstack => ?_, fun _ _ => ht.ext⟩
    rw [ht.ext.config_eq] at hstack
    cases stack with
    | false => exact ht.ext
    | true => exact Pager.Extends.trans ht.ext (.declare ht.process he (hfresh hstack))

theorem extends_faultIn (hfresh : p.config.isStackAccess addr esp = .ok true →
      fresh ⟨pid, pageFloor addr⟩ (.zero, true)) (forWrite : Bool) :
    Preserves (Extends p fresh) (faultIn pid addr esp forWrite) := by
  rw [faultIn]
  refine preserves_pager.bind fun q => .ite ?_ (preserves_pure _)
  refine (extends_findOrGrow hfresh).bind fun found => ?_
  cases found with
  | none => exact preserves_pure _
  | some e =>
    refine .ite (preserves_pure _) ?_
    cases e.frame? with
    | some f => exact preserves_pure _
    | none => exact extends_loadPage pid (pageFloor addr)

theorem extends_pinPage (hfresh : p.config.isStackAccess addr esp = .ok true →
      fresh ⟨pid, pageFloor addr⟩ (.zero, true)) (forWrite : Bool) :
    Preserves (Extends p fresh) (pinPage pid addr esp forWrite) := by
  refine (extends_faultIn hfresh forWrite).bind fun r => ?_
  cases r with
  | error e => exact preserves_pure _
  | ok f => exact (lasting_pinFrame Extends.lasting f).bind fun _ => preserves_pure _

/-- Pinning pages lets the stack grow at the first address of the access on each of them. -/
theorem extends_pinPages {start page count : Nat}
    (hfresh : ∀ i < count,
      p.config.isStackAccess (max (page + i * pageSize) start) esp = .ok true →
        fresh ⟨pid, pageFloor (max (page + i * pageSize) start)⟩ (.zero, true))
    (forWrite : Bool) (pinned : List Nat) :
    Preserves (Extends p fresh) (pinPages pid start esp forWrite page count pinned) := by
  induction count generalizing page pinned with
  | zero => exact preserves_pure _
  | succ count ih =>
    rw [pinPages]
    have hfirst := hfresh 0 (Nat.succ_pos count)
    rw [Nat.zero_mul, Nat.add_zero] at hfirst
    refine (extends_faultIn hfirst forWrite).bind fun r => ?_
    cases r with
    | error e => exact (lasting_unpinFrames Extends.lasting pinned).bind fun _ => preserves_pure _
    | ok f =>
      refine (lasting_pinFrame Extends.lasting f).bind fun _ => ih (fun i hi => ?_) _
      have hnext := hfresh (i + 1) (Nat.succ_lt_succ hi)
      rwa [Nat.succ_mul, Nat.add_comm (i * pageSize), ← Nat.add_assoc] at hnext

/-- Copying pieces lets the stack grow at their first addresses. -/
theorem extends_readPieces {start length done : Nat}
    (hfresh : ∀ v, start + done ≤ v → v < start + length →
      p.config.isStackAccess v esp = .ok true → fresh ⟨pid, pageFloor v⟩ (.zero, true))
    (bytes : Bytes) :
    Preserves (Extends p fresh) (readPieces pid start length esp done bytes) := by
  by_cases h : done < length
  · have hfirst := hfresh (start + done) (Nat.le_refl _) (by omega)
    have hpiece : Preserves (Extends p fresh) (readPiece pid (.next start length done) esp) := by
      refine (extends_pinPage hfirst false).bind fun r => ?_
      cases r with
      | error e => exact preserves_pure _
      | ok f =>
        exact (lasting_copyOut f _).bind fun _ =>
          (lasting_unpinFrame Extends.lasting f).bind fun _ => preserves_pure _
    rw [readPieces_of_lt h]
    refine hpiece.bind fun r => ?_
    cases r with
    | error e => exact preserves_pure _
    | ok found =>
      have := Piece.next_size_pos start h
      exact extends_readPieces (fun v hv => hfresh v (by omega)) _
  · rw [readPieces_of_le (Nat.le_of_not_lt h)]
    exact preserves_pure _
  termination_by length - done

theorem extends_writePieces {start done : Nat} {data : Bytes}
    (hfresh : ∀ v, start + done ≤ v → v < start + data.size →
      p.config.isStackAccess v esp = .ok true → fresh ⟨pid, pageFloor v⟩ (.zero, true)) :
    Preserves (Extends p fresh) (writePieces pid start data esp done) := by
  by_cases h : done < data.size
  · have hfirst := hfresh (start + done) (Nat.le_refl _) (by omega)
    have hpiece : Preserves (Extends p fresh)
        (writePiece pid (.next start data.size done) data esp) := by
      refine (extends_pinPage hfirst true).bind fun r => ?_
      cases r with
      | error e => exact preserves_pure _
      | ok f =>
        exact (lasting_copyIn Extends.lasting f _ data).bind fun _ =>
          (lasting_unpinFrame Extends.lasting f).bind fun _ => preserves_pure _
    rw [writePieces_of_lt h]
    refine hpiece.bind fun r => ?_
    cases r with
    | error e => exact preserves_pure _
    | ok _ =>
      have := Piece.next_size_pos start h
      exact extends_writePieces fun v hv => hfresh v (by omega)
  · rw [writePieces_of_le (Nat.le_of_not_lt h)]
    exact preserves_pure _
  termination_by data.size - done

end Access

/-! ### Declaring pages -/

theorem extends_tryDeclare (pid page : Nat) {source : PageSource} {writable : Bool}
    (hfresh : fresh ⟨pid, page⟩ (source, writable)) :
    Preserves (Extends p fresh) (tryDeclare pid page source writable) := by
  rw [tryDeclare]
  refine preserves_pager.bind fun _ => .ite ?declare ((preserves_throw _).bind fun _ => ?declare)
  refine extends_process fun pr t ht => ?_
  rw [meets_bind, meets_lift]
  refine ⟨?_, fun _ _ => ht.ext⟩
  rintro ⟨added, pages⟩ hdecl
  obtain ⟨hcheck, ⟨-, -, rfl⟩ | ⟨-, hnone, rfl⟩⟩ := PageMap.tryDeclare_eq_ok.1 hdecl
  · show p.Extends fresh (t.pager.withProcess pid _)
    rw [Pager.withProcess_self ht.process]
    exact ht.ext
  · have hfloor := pageFloor_of_pageOffset (PageMap.pageOffset_of_checkDeclaration hcheck)
    exact Pager.Extends.trans ht.ext
      (.declare ht.process (by rwa [PageMap.lookup, hfloor]) (by rwa [hfloor]))

theorem extends_tryDeclareImage (pid page : Nat) (file : Handle) (offset read : Nat)
    (writable : Bool) (hfresh : ∀ writable, fresh ⟨pid, page⟩ (.image file offset read, writable)) :
    Preserves (Extends p fresh) (Pager.tryDeclareImage pid page file offset read writable) :=
  preserves_pager.bind fun _ => extends_tryDeclare pid page (hfresh _)

section Load

variable {file : Handle}

theorem extends_declareSegment
    (hfresh : ∀ o offset read writable, fresh o (.image file offset read, writable))
    (pid : Nat) (writable : Bool) (page offset read zeros : Nat) :
    Preserves (Extends p fresh) (declareSegment pid file writable page offset read zeros) := by
  rw [declareSegment]
  split
  · rename_i hleft
    refine (extends_tryDeclareImage pid page file offset _ writable (hfresh _ _ _)).bind
      fun added => ?_
    refine .ite ?_ (preserves_pure _)
    split
    · rename_i hfits
      have := left_after_page_lt hleft hfits
      exact extends_declareSegment hfresh pid writable _ _ _ _
    · exact preserves_throw _
  · exact preserves_pure _
  termination_by read + zeros

theorem extends_loadSegments
    (hfresh : ∀ o offset read writable, fresh o (.image file offset read, writable))
    (pid : Nat) (segments : List ProgramHeader) :
    Preserves (Extends p fresh) (loadSegments pid file segments) := by
  induction segments with
  | nil => exact preserves_pure _
  | cons h rest ih =>
    rw [loadSegments]
    cases h.kind with
    | load =>
      refine preserves_pager.bind fun q => ?_
      cases h.validate file.file.length q.config.physBase with
      | error e => exact preserves_pure _
      | ok _ =>
        have hsegment : Preserves (Extends p fresh) (loadSegment pid file h) :=
          (preserves_lift _).bind fun _ => (preserves_lift _).bind fun _ =>
            (preserves_lift _).bind fun _ => extends_declareSegment hfresh pid _ _ _ _ _
        refine hsegment.bind fun r => ?_
        cases r with
        | error e => exact preserves_pure _
        | ok _ => exact (lasting_emit Extends.lasting _).bind fun _ => ih
    | dynamic | interpret | shlib => exact preserves_pure _
    | _ => exact ih

theorem extends_loadElf
    (hfresh : ∀ o offset read writable, fresh o (.image file offset read, writable))
    (hstack : ∀ o, fresh o (.zero, true)) (pid : Nat) :
    Preserves (Extends p fresh) (Pager.loadElf pid file) := by
  rw [Pager.loadElf]
  refine preserves_pager.bind fun q => ?_
  cases ElfImage.ofFile (q.view file) with
  | error e => exact preserves_pure _
  | ok image =>
    refine (extends_loadSegments hfresh pid _).bind fun r => ?_
    cases r with
    | error e => exact preserves_pure _
    | ok _ =>
      refine preserves_pager.bind fun _ => (preserves_lift _).bind fun stackPage => ?_
      exact (extends_tryDeclare pid stackPage (hstack _)).bind fun _ =>
        .ite (preserves_pure _) (preserves_pure _)

end Load

/-! ### Requests -/

theorem extends_refuseBy (pid : Nat) (refuses : Nat → Bool) :
    Preserves (Extends p fresh) (Pager.refuseBy pid refuses) := by
  refine extends_update fun q => ?_
  cases hpr : q.processes[pid]? with
  | none => rw [Pager.modify_of_getElem?_none hpr]
  | some pr =>
    rw [Pager.modify_of_getElem? hpr]
    exact .of_declarations rfl rfl (Pager.mappings_eq_of_insert hpr rfl rfl)
      (Pager.declarations_congr (Pager.declared_of_pages_eq hpr rfl rfl))

section Access

variable {start length : Nat}

/-- A single byte is reached for. -/
theorem grows_one {c : Config} (h : c.isStackAccess addr esp = .ok true) :
    UserAccess.Grows ⟨pid, addr, 1, esp⟩ c ⟨pid, pageFloor addr⟩ (.zero, true) :=
  ⟨addr, Nat.le_refl addr, Nat.lt_succ_self addr, h, rfl, rfl⟩

theorem extends_pageFault (pid addr esp : Nat) :
    Preserves (Extends p (UserAccess.Grows ⟨pid, addr, 1, esp⟩ p.config))
      (Pager.pageFault pid addr esp) :=
  (lasting_emit Extends.lasting _).bind fun _ =>
    (extends_faultIn grows_one false).bind fun _ => preserves_pure _

theorem extends_handlePageFault (pid addr esp : Nat) (code : FaultCode) :
    Preserves (Extends p (UserAccess.Grows ⟨pid, addr, 1, esp⟩ p.config))
      (Pager.handlePageFault pid addr esp code) := by
  rw [Pager.handlePageFault]
  refine (lasting_emit Extends.lasting _).bind fun _ => .ite ?_ ?_
  · exact (lasting_emit Extends.lasting _).bind fun _ => preserves_pure _
  · refine (extends_pageFault pid addr esp).bind fun r => ?_
    cases r with
    | error e => exact (lasting_emit Extends.lasting _).bind fun _ => preserves_pure _
    | ok _ => exact preserves_pure _

theorem extends_validAddress (pid addr esp : Nat) (forWrite : Bool) :
    Preserves (Extends p (UserAccess.Grows ⟨pid, addr, 1, esp⟩ p.config))
      (Pager.validAddress pid addr esp forWrite) := by
  rw [Pager.validAddress]
  refine preserves_pager.bind fun _ => .ite (preserves_pure _) ?_
  refine (extends_findOrGrow grows_one).bind fun found => ?_
  cases found <;> exact preserves_pure _

theorem extends_pin (pid start size esp : Nat) (forWrite : Bool) :
    Preserves (Extends p (UserAccess.Grows ⟨pid, start, size, esp⟩ p.config))
      (Pager.pin pid start size esp forWrite) := by
  refine preserves_iff.2 fun t ht => ?_
  rw [Pager.pin]
  simp only [meets_bind, meets_pager, meets_ite, meets_pure]
  refine ⟨fun _ => ht, fun hsize => ⟨fun hrange => ?_, fun _ => ht⟩⟩
  refine preserves_iff.1 (extends_pinPages (fun i hi hstack => ?_) forWrite []) t ht
  have hpage := PageRun.lt_of_lt_count (isUserRange_iff.1 hrange).1 hi
  have hstart : start < start + size := Nat.lt_add_of_pos_right (Nat.pos_of_ne_zero hsize)
  exact ⟨_, Nat.le_max_right _ _, Nat.max_lt.2 ⟨hpage, hstart⟩, hstack, rfl, rfl⟩

theorem extends_unpin (pid start size : Nat) :
    Preserves (Extends p fresh) (Pager.unpin pid start size) := by
  rw [Pager.unpin]
  refine .ite (preserves_pure _) (preserves_pager.bind fun q => ?_)
  cases q.processes[pid]? with
  | none => exact preserves_pure _
  | some pr => exact lasting_unpinPages Extends.lasting pr.pages _ _

theorem extends_copyFromUser (pid start length esp : Nat) :
    Preserves (Extends p (UserAccess.Grows ⟨pid, start, length, esp⟩ p.config))
      (Pager.copyFromUser pid start length esp) := by
  refine preserves_pager.bind fun _ => .ite ((preserves_lift _).bind fun _ => ?_) (preserves_pure _)
  exact extends_readPieces (fun v hv hend hstack => ⟨v, by omega, hend, hstack, rfl, rfl⟩) #[]

theorem extends_copyToUser (pid start : Nat) (data : Bytes) (esp : Nat) :
    Preserves (Extends p (UserAccess.Grows ⟨pid, start, data.size, esp⟩ p.config))
      (Pager.copyToUser pid start data esp) := by
  refine preserves_pager.bind fun _ => .ite ?_ (preserves_pure _)
  exact extends_writePieces fun v hv hend hstack => ⟨v, by omega, hend, hstack, rfl, rfl⟩

end Access

theorem extends_perform {op : Op} (hop : op.remaps = false) :
    Preserves (Extends p (op.Adds p.config)) (Pager.perform op) := by
  cases op with
  | register | destroy | mapFile | unmapFile => cases hop
  | refuse pid refusing => exact (extends_refuseBy pid _).bind fun _ => preserves_pure _
  | refuseBy pid refuses => exact (extends_refuseBy pid refuses).bind fun _ => preserves_pure _
  | failReads file failing =>
    exact Preserves.bind (extends_update fun _ => .of_processes rfl rfl rfl)
      fun _ => preserves_pure _
  | declareZero pid page writable =>
    exact Preserves.bind ((extends_tryDeclare pid page (.inl rfl)).bind fun _ =>
      .ite (preserves_pure _) (preserves_throw _)) fun _ => preserves_pure _
  | tryDeclareZero pid page writable =>
    exact (extends_tryDeclare pid page (.inl rfl)).bind fun _ => preserves_pure _
  | declareImage pid page file offset read writable =>
    have himage : Preserves
        (Extends p (Op.Adds (.declareImage pid page file offset read writable) p.config))
        (Pager.tryDeclareImage pid page file offset read writable) :=
      extends_tryDeclareImage pid page file offset read writable
        fun _ => .inr ⟨file, offset, read, rfl, rfl⟩
    exact Preserves.bind (himage.bind fun _ => .ite (preserves_pure _) (preserves_throw _))
      fun _ => preserves_pure _
  | tryDeclareImage pid page file offset read writable =>
    exact (extends_tryDeclareImage pid page file offset read writable
      fun _ => .inr ⟨file, offset, read, rfl, rfl⟩).bind fun _ => preserves_pure _
  | loadElf pid file =>
    exact (extends_loadElf (fun _ offset read _ => .inr ⟨file, offset, read, rfl, rfl⟩)
      (fun _ => .inl rfl) pid).bind fun _ => preserves_pure _
  | pageFault pid addr esp => exact (extends_pageFault pid addr esp).bind fun _ => preserves_pure _
  | interrupt pid addr esp code =>
    exact (extends_handlePageFault pid addr esp code).bind fun _ => preserves_pure _
  | validAddress pid addr esp forWrite =>
    exact (extends_validAddress pid addr esp forWrite).bind fun _ => preserves_pure _
  | pin pid start size esp forWrite =>
    exact (extends_pin pid start size esp forWrite).bind fun _ => preserves_pure _
  | unpin pid start size => exact (extends_unpin pid start size).bind fun _ => preserves_pure _
  | copyFromUser pid start length esp =>
    exact (extends_copyFromUser pid start length esp).bind fun _ => preserves_pure _
  | copyToUser pid start data esp =>
    exact (extends_copyToUser pid start data esp).bind fun _ => preserves_pure _

/-- A request that is none of the four takes no declaration back, leaves the mappings as they are,
and declares what a request of its kind may. -/
theorem ensures_perform_extends {op : Op} (hop : op.remaps = false) (t : Traced) :
    Ensures (Pager.perform op)
      (fun _ t' => t.pager.Extends (op.Adds t.pager.config) t'.pager) t :=
  (extends_perform hop).keeps t (Pager.Extends.refl t.pager)

end PagerM

end DemandPaging
