import DemandPaging.Proofs.Declarations
import DemandPaging.Proofs.FailedFaults

/-!
# Addresses that a system call has checked

A system call asks whether an address is valid before it works with it, and then has its page
pinned or faulted in. The question and the two ways of working are answered by different code, and
each looks the page up, lets the stack grow and compares the access with what is declared on its
own. They have to come to the same verdict, and each has to leave the same pages declared, or a
check would promise what the access does not keep.

Loading a page is what an access does beyond the question. A load moves pages, and it can fail in
the file or at the page tables, but it declares nothing and takes no declaration back. So the
errors of a load are the ones that a valid address can still meet, then and as long as nothing is
unmapped.

## Main definitions

* `Pager.Validates` — the ways of answering whether an address is valid.
* `Traced.Foresees` — what the answer says of an access.

## Main results

* `Pager.FaultsIn.denied_iff` — an access is denied where the address is not valid.
* `PagerM.ensures_perform_declaration` — a declaration stays until its process unmaps something.
* `Pager.validAddress_foresees` — the question is always answered, and the answer is right.
-/

namespace DemandPaging

/-- An access was denied: it failed, and not because its page could not be loaded. -/
def Denied {α : Type} (result : Except FaultError α) : Prop :=
  ∃ error, result = .error error ∧ error.isLoadFailure = false

theorem denied_iff {α : Type} {result : Except FaultError α} :
    Denied result ↔ result = .error .kernelAddress ∨ result = .error .badAddress ∨
      result = .error .readOnly := by
  constructor
  · rintro ⟨error, rfl, herror⟩
    cases error <;> simp_all [FaultError.isLoadFailure]
  · rintro (rfl | rfl | rfl) <;> exact ⟨_, rfl, rfl⟩

theorem denied_map {α β : Type} {result : Except FaultError α} {g : α → β} :
    Denied (result.map g) ↔ Denied result := by
  cases result with
  | ok a => simp [Denied, Except.map]
  | error error => simp [Denied, Except.map]

/-- An error that is not a denial comes from the file or from the page tables. -/
theorem eq_of_not_denied {α : Type} {error : FaultError}
    (h : ¬ Denied (.error error : Except FaultError α)) :
    error = .mapFailed ∨ ∃ e, error = .io e := by
  cases error with
  | io e => exact .inr ⟨e, rfl⟩
  | mapFailed => exact .inl rfl
  | kernelAddress | badAddress | readOnly => exact absurd ⟨_, rfl, rfl⟩ h

/-- Whether a request takes pages away from process `pid`. -/
def Op.takesFrom (op : Op) (pid : Nat) : Bool :=
  match op with
  | .destroy q | .unmapFile q _ => q == pid
  | _ => false

/-- What the answer `valid` to the question whether `addr` is valid foretells. The question was
asked at `t` and left the pager at `t'`. -/
structure Traced.Foresees (t : Traced) (pid addr esp : Nat) (forWrite valid : Bool) (t' : Traced) :
    Prop where
  /-- A pin of the byte instead of the question is denied where the address is not valid, and
  leaves the same pages declared. -/
  pin : ∀ result u, (Pager.pin pid addr 1 esp forWrite).run t = .ok result u →
    (valid = false ↔ result = .error .kernelAddress ∨ result = .error .badAddress ∨
      result = .error .readOnly) ∧ u.pager.declarations = t'.pager.declarations
  /-- And so does a fault, where the question is about reading. -/
  fault : forWrite = false → ∀ result u, (Pager.pageFault pid addr esp).run t = .ok result u →
    (valid = false ↔ result = .error .kernelAddress ∨ result = .error .badAddress) ∧
      u.pager.declarations = t'.pager.declarations
  /-- A valid address stays valid, whatever is requested, until pages are taken from its process:
  an access can fail in the file or at the page tables then, and in no other way. -/
  afterwards : valid = true → ∀ later answers u, (∀ op ∈ later, op.takesFrom pid = false) →
    (Pager.run later).run t' = .ok answers u → ∀ esp' error w,
      ((Pager.pin pid addr 1 esp' forWrite).run u = .ok (.error error) w ∨
        (Pager.pageFault pid addr esp').run u = .ok (.error error) w) →
      error = .mapFailed ∨ ∃ e, error = .io e

namespace Pager

variable {p p₁ p' : Pager} {o : FrameOwner} {f pid page addr esp : Nat} {forWrite valid : Bool}
  {e : PageEntry} {pr pr' : Process} {α : Type} {result : Except FaultError α}

/-- The ways of answering whether `addr` may be accessed, and the pager after a stack page was
declared for it. -/
inductive Validates (p : Pager) (pid addr esp : Nat) (forWrite : Bool) : Bool → Pager → Prop
  | null (null : addr = 0) : Validates p pid addr esp forWrite false p
  | kernel (kernel : p.config.isUser addr = false) : Validates p pid addr esp forWrite false p
  | found {found : Option PageEntry} {p' : Pager} (user : p.config.isUser addr = true)
      (finds : p.Finds pid addr esp found p') :
    Validates p pid addr esp forWrite (found.any fun e => !forWrite || e.writable) p'

/-! ### Loads and declarations -/

theorem Acquires.declarations_eq (h : p.Acquires o f p₁) : p₁.declarations = p.declarations := by
  cases h with
  | free => rfl
  | evicting none_free victim owner process entry =>
    exact declarations_of_residency process rfl entry rfl

theorem Loads.declarations_eq {result : Except FaultError Nat} (h : p.Loads pid page result p') :
    p'.declarations = p.declarations := by
  cases h with
  | unreadable acquired => exact acquired.declarations_eq
  | refused acquired process =>
    rw [← acquired.declarations_eq]
    exact declarations_congr (declared_of_pages_eq process rfl rfl)
  | loaded acquired process entry =>
    rw [← acquired.declarations_eq]
    exact declarations_of_residency process rfl entry rfl

/-- A load fails in the file or at the page tables. -/
theorem Loads.not_denied {result : Except FaultError Nat} (h : p.Loads pid page result p') :
    ¬ Denied result := by
  rintro ⟨error, rfl, herror⟩
  cases h with
  | unreadable | refused => cases herror

/-! ### Accesses -/

theorem Finds.pager_eq {found found' : Option PageEntry} {p₂ : Pager}
    (h : p.Finds pid addr esp found p₁) (h' : p.Finds pid addr esp found' p₂) : p₁ = p₂ := by
  cases h <;> cases h' <;> simp_all

theorem Finds.found_of_declared {found : Option PageEntry} (h : p.Finds pid addr esp found p')
    (he : p.declared ⟨pid, pageFloor addr⟩ = some e) : found = some e := by
  obtain ⟨pr, hpr, hentry⟩ := Option.bind_eq_some_iff.1 he
  exact h.unique (.declared hpr hentry)

/-- An access below the kernel finds the page, and is denied if there is none or the page may not
be written. A load declares nothing. -/
theorem FaultsIn.exists_finds {result : Except FaultError Nat}
    (h : p.FaultsIn pid addr esp forWrite result p') (huser : p.config.isUser addr = true) :
    ∃ found p₁, p.Finds pid addr esp found p₁ ∧ p'.declarations = p₁.declarations ∧
      ((found.any fun e => !forWrite || e.writable) = false ↔ Denied result) := by
  cases h with
  | kernel kernel => simp [huser] at kernel
  | absent _ finds => exact ⟨none, p', finds, rfl, by simp [Denied, FaultError.isLoadFailure]⟩
  | @readOnly _ e _ finds forbidden =>
    refine ⟨some e, p', finds, rfl, iff_of_true ?_ ⟨.readOnly, rfl, rfl⟩⟩
    simpa using forbidden
  | @resident _ e _ _ finds allowed =>
    refine ⟨some e, p', finds, rfl, iff_of_false ?_ (by simp [Denied])⟩
    simpa using allowed
  | @load p₁ _ e _ _ finds allowed _ loads =>
    refine ⟨some e, p₁, finds, loads.declarations_eq, iff_of_false ?_ loads.not_denied⟩
    simpa using allowed

/-- An access is denied where the address is not valid, and the stack grows in the one case as it
does in the other. -/
theorem FaultsIn.denied_iff {p₂ : Pager} {result : Except FaultError Nat}
    (h : p.FaultsIn pid addr esp forWrite result p₂)
    (hvalid : p.Validates pid addr esp forWrite valid p') (haddr : addr ≠ 0) :
    (valid = false ↔ Denied result) ∧ p₂.declarations = p'.declarations := by
  cases hvalid with
  | null null => exact absurd null haddr
  | kernel kernel =>
    cases h with
    | kernel => exact ⟨by simp [Denied, FaultError.isLoadFailure], rfl⟩
    | absent user | readOnly user | resident user | load user => simp [kernel] at user
  | found user finds =>
    obtain ⟨found, p₁, hfinds, hsame, hdenied⟩ := h.exists_finds user
    obtain rfl := hfinds.unique finds
    obtain rfl := hfinds.pager_eq finds
    exact ⟨hdenied, hsame⟩

theorem FaultsIn.ne_readOnly {β : Type} {result : Except FaultError Nat} {g : Nat → β}
    (h : p.FaultsIn pid addr esp false result p') : result.map g ≠ .error .readOnly := by
  cases h with
  | kernel | absent | resident => simp [Except.map]
  | readOnly _ _ forbidden => simp at forbidden
  | load _ _ _ _ loads =>
    intro hreadOnly
    have hdenied : Denied (result.map g) := ⟨.readOnly, hreadOnly, rfl⟩
    exact loads.not_denied (denied_map.1 hdenied)

/-- A valid address has a declaration that allows the access. -/
theorem Validates.of_valid (h : p.Validates pid addr esp forWrite valid p')
    (hvalid : valid = true) : p.config.isUser addr = true ∧ ∃ source writable,
      p'.declarations ⟨pid, pageFloor addr⟩ = some (source, writable) ∧
        (!forWrite || writable) = true := by
  cases h with
  | null | kernel => cases hvalid
  | @found found _ user finds =>
    cases found with
    | none => cases hvalid
    | some e =>
      exact ⟨user, e.source, e.writable, declarations_of_declared finds.declared_eq, hvalid⟩

/-- An access that its declaration allows is not denied. -/
theorem FaultsIn.not_denied {source : PageSource} {writable : Bool}
    {result : Except FaultError Nat} (h : p.FaultsIn pid addr esp forWrite result p')
    (huser : p.config.isUser addr = true)
    (hd : p.declarations ⟨pid, pageFloor addr⟩ = some (source, writable))
    (hallowed : (!forWrite || writable) = true) : ¬ Denied result := by
  obtain ⟨e, he, hsame⟩ := Option.map_eq_some_iff.1 hd
  obtain ⟨rfl, rfl⟩ := Prod.mk.inj hsame
  obtain ⟨found, p₁, hfinds, -, hdenied⟩ := h.exists_finds huser
  have hfound := hfinds.found_of_declared he
  rw [← hdenied, hfound, Option.any_some, hallowed]
  simp

/-- What is declared stays declared, as long as nothing is taken away. -/
theorem Step.declarations_eq_some {change : Change} {d : PageSource × Bool} (h : Step change p p')
    (hchange : change ≠ .shrink) (hd : p.declarations o = some d) :
    p'.declarations o = some d := by
  cases h with
  | @declare _ pid page pr source writable process allowed user undeclared =>
    have hfloor := pageFloor_of_pageOffset (PageMap.pageOffset_of_checkDeclaration allowed)
    have hne : o ≠ ⟨pid, page⟩ := by
      rintro rfl
      rw [declarations, declared_of_getElem? process, undeclared] at hd
      cases hd
    rw [declarations, declared_of_pages_set process rfl rfl, hfloor, Function.update_of_ne hne]
    exact hd
  | load _ loads => rwa [loads.declarations_eq]
  | pin | unpin | medium | write => exact hd
  | register unregistered =>
    rwa [declarations_congr]
    exact declared_withProcess_bare (fun o ho => declared_eq_none unregistered ho)
      fun page => by simp [Process.fresh, PageMap.empty]
  | remove | discard => exact absurd rfl hchange
  | mappings mappings nextSerial process =>
    rwa [declarations_congr]
    exact declared_of_pages_eq process rfl rfl
  | plan refuses process =>
    rwa [declarations_congr]
    exact declared_of_pages_eq process rfl rfl

end Pager

namespace PagerM

open Pager (Change Steps Owned)

variable {t : Traced} {config : Config} {slots pid addr esp : Nat} {forWrite : Bool}
  {pr : Process} {o : FrameOwner} {d : PageSource × Bool}

/-! ### The three requests -/

theorem ensures_validAddress_validates (pid addr esp : Nat) (forWrite : Bool) (t : Traced) :
    Ensures (Pager.validAddress pid addr esp forWrite)
      (fun valid t' => t.pager.Validates pid addr esp forWrite valid t'.pager) t := by
  rw [Pager.validAddress]
  simp only [ensures_bind, ensures_pager, ensures_ite, ensures_pure]
  constructor
  · intro h
    rcases Bool.or_eq_true _ _ ▸ h with hnull | hkernel
    · exact .null (by simpa using hnull)
    · exact .kernel (by simpa using hkernel)
  · intro h
    have huser : t.pager.config.isUser addr = true := by
      simp only [Bool.or_eq_true, not_or, Bool.not_eq_true, Bool.not_eq_false'] at h
      exact h.2
    refine (ensures_findOrGrow pid addr esp t).mono ?_
    intro found t' hfinds
    cases found with
    | none => exact ensures_pure.2 (.found huser hfinds)
    | some e => exact ensures_pure.2 (.found huser hfinds)

/-- The question whether an address is valid is always answered. -/
theorem ends_validAddress (hpr : t.pager.processes[pid]? = some pr)
    (hstack : t.pager.config.maxStack ≤ t.pager.config.physBase) (addr esp : Nat)
    (forWrite : Bool) : Ends (Pager.validAddress pid addr esp forWrite) t := by
  refine Meets.ends (Q := fun _ _ => True) ?_
  rw [Pager.validAddress]
  simp only [meets_bind, meets_pager, meets_ite, meets_pure, implies_true, true_and]
  intro _
  refine (meets_findOrGrow hstack hpr).mono ?_ fun _ _ h => h
  intro found t' _
  cases found with
  | none => trivial
  | some e => trivial

/-- A pin of one byte faults in its page. -/
theorem ensures_pin_one (hwords : t.pager.config.physBase < 2 ^ 64) :
    Ensures (Pager.pin pid addr 1 esp forWrite) (fun answer t' => ∃ r p',
      answer = r.map (fun _ => ()) ∧ t.pager.FaultsIn pid addr esp forWrite r p' ∧
        t'.pager.declared = p'.declared) t := by
  rw [Pager.pin]
  simp only [ensures_bind, ensures_pager, ensures_ite, ensures_pure]
  refine ⟨fun h => absurd h (by decide), fun _ => ⟨fun hrange => ?_, fun hrange => ?_⟩⟩
  · have hfits := (isUserRange_iff.1 hrange).1
    have hcount : (PageRun.spanning addr 1).count = 1 := by
      have hoffset := pageFloor_add_pageOffset addr
      have hlt := pageOffset_lt addr
      simp only [PageRun.spanning, saturatingAdd_eq, pageSize] at *
      omega
    have hmax : max (PageRun.spanning addr 1).first addr = addr :=
      Nat.max_eq_right (pageFloor_le addr)
    rw [hcount, pinPages, hmax]
    simp only [ensures_bind]
    refine (ensures_faultIn pid addr esp forWrite t).mono ?_
    intro r t₁ hfault
    cases r with
    | error e =>
      simp only [ensures_bind, unpinFrames, ensures_pure]
      exact ⟨.error e, t₁.pager, rfl, hfault, rfl⟩
    | ok f =>
      simp only [ensures_bind, ensures_pinFrame, pinPages, ensures_pure]
      intro frames _
      exact ⟨.ok f, t₁.pager, rfl, hfault, rfl⟩
  · have hkernel : t.pager.config.isUser addr = false := by
      rw [isUserRange_iff] at hrange
      rw [Config.isUser, decide_eq_false_iff_not]
      omega
    exact ⟨.error .kernelAddress, t.pager, rfl, .kernel hkernel, rfl⟩

/-! ### Afterwards -/

/-- What is declared for a process stays declared until a request takes pages away from it. -/
theorem ensures_perform_declaration {op : Op} (hop : op.takesFrom o.pid = false)
    (hd : t.pager.declarations o = some d) :
    Ensures (Pager.perform op) (fun _ t' => t'.pager.declarations o = some d) t := by
  have hkeeps : (∀ change, op.changes change → change ≠ .shrink) →
      Ensures (Pager.perform op) (fun _ t' => t'.pager.declarations o = some d) t := by
    intro hchanges
    refine (ensures_perform op t).mono fun _ t' hperforms => ?_
    exact hperforms.steps.keeps (P := fun q => q.declarations o = some d)
      (fun hk hstep => hstep.declarations_eq_some (hchanges _ hk)) hd
  cases op with
  | destroy q =>
    have hq : q ≠ o.pid := by simpa [Op.takesFrom] using hop
    simp only [Pager.perform, ensures_bind, ensures_pure]
    refine (ensures_destroy_processes q t).mono fun _ t' hprocesses => ?_
    rwa [Pager.declarations, Pager.declared, hprocesses, Std.ExtTreeMap.getElem?_erase,
      if_neg (by simpa using hq)]
  | unmapFile q id =>
    have hq : q ≠ o.pid := by simpa [Op.takesFrom] using hop
    simp only [Pager.perform, ensures_bind, ensures_pure]
    refine (ensures_unmapFile_cases q id t).mono ?_
    rintro _ t' ⟨pr, m, pr', p₁, -, -, -, -, ⟨frames, swap, -, rfl⟩, hpager⟩
    rw [Pager.declarations, hpager, Pager.declared_withProcess, if_neg hq]
    exact hd
  | _ =>
    refine hkeeps ?_
    rintro _ h rfl
    simp [Op.changes, Change.Grows] at h

theorem ensures_run_declaration {ops : List Op} (hops : ∀ op ∈ ops, op.takesFrom o.pid = false)
    (hd : t.pager.declarations o = some d) :
    Ensures (Pager.run ops) (fun _ t' => t'.pager.declarations o = some d) t :=
  keeps_run (fun op hop _ ht => ensures_perform_declaration (hops op hop) ht) t hd

end PagerM

namespace Pager

variable {config : Config} {device : Block} {ops : List Op} {answers : List Answer}
  {t : Traced} {pid addr : Nat}

/-- After any run, whatever the device and the plans of refusals, the question whether an address
other than 0 is valid is answered, and the answer is what an access of that kind would meet. -/
theorem validAddress_foresees (hwords : config.physBase < 2 ^ 64)
    (hstack : config.maxStack ≤ config.physBase)
    (h : (run ops).run (.start config device) = .ok answers t)
    (hpid : t.pager.processes[pid]?.isSome) (haddr : addr ≠ 0) (esp : Nat) (forWrite : Bool) :
    ∃ valid t', (validAddress pid addr esp forWrite).run t = .ok valid t' ∧
      t.Foresees pid addr esp forWrite valid t' := by
  have ho := (PagerM.ensures_run ops _ answers t h).owned (owned_ofConfig config device)
  obtain ⟨pr, hpr⟩ := Option.isSome_iff_exists.1 hpid
  obtain ⟨valid, t', hrun⟩ :=
    PagerM.ends_validAddress hpr (ho.config_eq ▸ hstack) addr esp forWrite
  have hvalid := PagerM.ensures_validAddress_validates pid addr esp forWrite t valid t' hrun
  have ho' := (PagerM.ensures_validAddress pid addr esp forWrite t valid t' hrun).owned ho
  refine ⟨valid, t', hrun, ?_, ?_, ?_⟩
  · intro result u hpin
    obtain ⟨r, p', rfl, hfault, hsame⟩ :=
      PagerM.ensures_pin_one (ho.config_eq ▸ hwords) result u hpin
    obtain ⟨hdenied, hdeclarations⟩ := hfault.denied_iff hvalid haddr
    rw [← denied_iff, denied_map, declarations_congr hsame]
    exact ⟨hdenied, hdeclarations⟩
  · rintro rfl result u hfaults
    obtain ⟨r, rfl, hfault⟩ := PagerM.ensures_pageFault_faultsIn pid addr esp t result u hfaults
    obtain ⟨hdenied, hdeclarations⟩ := hfault.denied_iff hvalid haddr
    have hwritable : r.map (fun _ => ()) ≠ .error .readOnly := hfault.ne_readOnly
    rw [hdenied, ← denied_map (g := fun _ => ()), denied_iff]
    exact ⟨by simp [hwritable], hdeclarations⟩
  · rintro rfl later answers' u hlater hrun' esp' error w haccess
    obtain ⟨huser, source, writable, hd, hallowed⟩ := hvalid.of_valid rfl
    have hd' := PagerM.ensures_run_declaration hlater hd answers' u hrun'
    have hconfig := ((PagerM.ensures_run later t' answers' u hrun').owned ho').config_eq
    rw [ho.config_eq, ← hconfig] at huser
    rcases haccess with hpin | hfaults
    · obtain ⟨r, p', hr, hfault, -⟩ :=
        PagerM.ensures_pin_one (hconfig.symm ▸ hwords) _ w hpin
      have hnot := hfault.not_denied huser hd' hallowed
      rw [← denied_map (g := fun _ => ()), ← hr] at hnot
      exact eq_of_not_denied hnot
    · obtain ⟨r, hr, hfault⟩ := PagerM.ensures_pageFault_faultsIn pid addr esp' u _ w hfaults
      have hnot := hfault.not_denied huser hd' rfl
      rw [← denied_map (g := fun _ => ()), ← hr] at hnot
      exact eq_of_not_denied hnot

/-- An address in the stack region is asked for, for writing. Nothing is declared there yet. -/
theorem validAddress_foresees_stack : ∃ answers t,
    (run [.register 1]).run (.start { userFrames := 1 }
        (.attach .swap "swap" (.ram (.blank 64)))) = .ok answers t ∧
    ∃ valid t', (validAddress 1 0xbffff000 0xbffff010 true).run t = .ok valid t' ∧
      t.Foresees 1 0xbffff000 0xbffff010 true valid t' := by
  have hrun : ∃ answers t, (run [.register 1]).run (.start { userFrames := 1 }
      (.attach .swap "swap" (.ram (.blank 64)))) = .ok answers t ∧
        t.pager.processes[1]?.isSome := by
    decide +kernel
  obtain ⟨answers, t, h, hpid⟩ := hrun
  exact ⟨answers, t, h,
    validAddress_foresees (by decide) (by decide) h hpid (by decide) 0xbffff010 true⟩

end Pager

end DemandPaging
