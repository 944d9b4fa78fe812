import DemandPaging.Proofs.FailedFaults

/-!
# Faults that are repeated after they failed

A fault that could not read or could not map its page leaves a free frame, and the page where it
was. So when its file can be read and its address space takes the page, the same fault goes through,
on any device: no other page has to make room, and a page that is in swap was read from there once.
What it leaves is what the first fault would have left, since that is a matter of the outlook, and
the outlook has not changed.

A fault that is repeated can still run out of words, as an address has 32 bits and so has the count
of the sectors that were read.

## Main definitions

* `Pager.mend` — files fail differently, and an address space refuses differently.
* `Pager.RunsOut` — what a repeated fault needs does not fit in a word.
* `Traced.Repeats` — why a fault failed, and what becomes of it when it is repeated.

## Main results

* `PagerM.ends_pageFault_of_free` — a fault ends if there is a free frame and what the page holds
  can be fetched.
* `Pager.pageFault_loses_nothing` — a failed fault loses nothing, and it can be repeated.
* `Pager.pageFault_again_wide` — a fault beyond 4 GiB fails once, and panics when it is repeated.
-/

namespace DemandPaging

namespace Outlook

/-- A page that was found is found again. -/
theorem find_find (v : Outlook) (pid addr esp : Nat) :
    (v.find pid addr esp).2.find pid addr esp = v.find pid addr esp := by
  cases hpage : v.pages ⟨pid, pageFloor addr⟩ with
  | some page => simp only [find, hpage]
  | none =>
    cases hstack : v.layout.isStackAccess addr esp with
    | error e => simp only [find, hpage, hstack]
    | ok stack =>
      cases stack with
      | true => simp only [find, hpage, hstack, pages_setPage_self]
      | false => simp only [find, hpage, hstack]

/-- A fault whose page was found before is the same fault. -/
theorem faultIn_find {v : Outlook} {pid addr esp : Nat} (huser : v.layout.isUser addr = true)
    (forWrite : Bool) :
    (v.find pid addr esp).2.faultIn pid addr esp forWrite = v.faultIn pid addr esp forWrite := by
  obtain ⟨pages, hpages, -⟩ := find_touches v pid addr esp
  have hlayout : (v.find pid addr esp).2.layout = v.layout := by rw [hpages]
  rw [faultIn, find_find, hlayout, if_pos huser, faultIn, if_pos huser]

/-- The outlook after files have come to fail as `failing` says. -/
def withFailing (v : Outlook) (failing : Nat → Bool) : Outlook := { v with failing }

/-- Which files fail has no part in finding a page. -/
theorem find_withFailing (v : Outlook) (failing : Nat → Bool) (pid addr esp : Nat) :
    ((v.withFailing failing).find pid addr esp).2
      = (v.find pid addr esp).2.withFailing failing := by
  simp only [find, withFailing]
  cases v.pages ⟨pid, pageFloor addr⟩ with
  | some page => rfl
  | none =>
    cases v.layout.isStackAccess addr esp with
    | error e => rfl
    | ok stack => cases stack <;> rfl

end Outlook

namespace Pager

variable {p p₁ p' : Pager} {config : Config} {slots pid page addr esp f : Nat} {e : PageEntry}
  {o : FrameOwner} {result : Except FaultError Nat} {failing refuses : Nat → Bool} {requests : Nat}

/-! ### Definitions -/

/-- The pager after files have come to fail as `failing` says, and the address space of process
`pid` to refuse as `refuses` says, from request number `requests` on. An address space that is given
its own plan and number is as it was, so that only files are different then. -/
def mend (p : Pager) (failing : Nat → Bool) (pid : Nat) (refuses : Nat → Bool) (requests : Nat) :
    Pager :=
  { p with
    failing
    processes := p.processes.modify pid fun pr =>
      { pr with space := { pr.space with refuses, requests } } }

/-- What a repeated fault of process `pid` on `addr` needs does not fit in a word. -/
inductive RunsOut (p : Pager) (pid addr : Nat) : Prop
  | address (wide : 2 ^ 32 ≤ addr) : RunsOut p pid addr
  /-- A frame that is free ends beyond 4 GiB. -/
  | frame {f : Nat} (size : f < p.config.userFrames) (free : p.frames.isAllocated f = false)
      (wide : 2 ^ 32 < poolBase + (f + 1) * pageSize) : RunsOut p pid addr
  /-- The page is in swap, and its sectors cannot be counted any more when they are read. -/
  | reads {slot : Nat} (swapped : p.residency ⟨pid, pageFloor addr⟩ = some (.swapped slot))
      (count : 2 ^ 32 ≤ p.swap.device.reads + sectorsPerPage) : RunsOut p pid addr

end Pager

/-- A fault of process `pid` on `addr` failed with `error`, which made `t` into `t'`. Here is why,
and what becomes of the fault when it is repeated. -/
structure Traced.Repeats (t : Traced) (pid addr esp : Nat) (error : FaultError) (t' : Traced) :
    Prop where
  /-- Either the file of the page could not be read, or the page was ready and was refused. -/
  cause : (∃ e, error = .io e ∧
      (t.pager.outlook.faultIn pid addr esp false).1 = .error (.io e)) ∨
    (error = .mapFailed ∧ ∃ page, (t.pager.outlook.faultIn pid addr esp false).1 = .ok page)
  /-- When the page can be read and the next request is not refused, the fault succeeds, and leaves
  what it would have left in the first place. It may panic only if it runs out of words. -/
  succeeds : ∀ failing refuses requests page after, refuses requests = false →
    (t.pager.mend failing pid refuses requests).outlook.faultIn pid addr esp false
      = (.ok page, after) →
    PagerM.Meets (Pager.pageFault pid addr esp)
      (fun answer u => answer = .ok () ∧ u.pager.outlook = after ∧
        ∃ f, u.pager.residency ⟨pid, pageFloor addr⟩ = some (.resident f))
      (fun _ _ => t'.pager.RunsOut pid addr)
      ⟨t'.pager.mend failing pid refuses requests, t'.log⟩
  /-- The fault that does not fail in the first place leaves the same. -/
  agrees : ∀ failing refuses requests u w,
    (Pager.pageFault pid addr esp).run ⟨t.pager.mend failing pid refuses requests, t.log⟩
      = .ok (.ok ()) w →
    (Pager.pageFault pid addr esp).run ⟨t'.pager.mend failing pid refuses requests, t'.log⟩
      = .ok (.ok ()) u → u.pager.outlook = w.pager.outlook

namespace Pager

variable {p p₁ p' : Pager} {config : Config} {slots pid page addr esp f : Nat} {e : PageEntry}
  {o : FrameOwner} {result : Except FaultError Nat} {pr : Process} {failing refuses : Nat → Bool}
  {requests : Nat}

/-! ### After the cause is gone -/

theorem mend_of_getElem? (h : p.processes[pid]? = some pr) :
    p.mend failing pid refuses requests = ({ p with failing } : Pager).withProcess pid
      { pr with space := { pr.space with refuses, requests } } :=
  modify_of_getElem? (p := { p with failing }) h _

/-- There is nothing to refuse for a process that is not registered. -/
theorem mend_of_getElem?_none (h : p.processes[pid]? = none) :
    p.mend failing pid refuses requests = { p with failing } :=
  modify_of_getElem?_none (p := { p with failing }) h _

theorem declared_mend : (p.mend failing pid refuses requests).declared = p.declared := by
  cases h : p.processes[pid]? with
  | none =>
    rw [mend_of_getElem?_none h]
    rfl
  | some pr =>
    rw [mend_of_getElem? h]
    exact declared_of_pages_eq (p := { p with failing }) h rfl rfl

theorem outlook_mend :
    (p.mend failing pid refuses requests).outlook = p.outlook.withFailing failing := by
  cases h : p.processes[pid]? with
  | none =>
    rw [mend_of_getElem?_none h]
    rfl
  | some pr =>
    rw [mend_of_getElem? h]
    exact outlook_of_space (p := { p with failing }) h _

theorem Owned.mend (ho : Owned config slots p) :
    Owned config slots (p.mend failing pid refuses requests) :=
  ho.congr declared_mend rfl rfl rfl

theorem All.mend (hp : p.All Process.Mappable) :
    (p.mend failing pid refuses requests).All Process.Mappable := by
  cases h : p.processes[pid]? with
  | none =>
    rw [mend_of_getElem?_none h]
    exact hp
  | some pr =>
    obtain ⟨⟨hwf, hmapping⟩, hcounted⟩ := hp pid pr h
    rw [mend_of_getElem? h]
    exact All.insert (p := p) hp rfl ⟨⟨hwf, hmapping⟩, hcounted⟩

/-! ### A fault with a free frame -/

/-- While a frame is free, no page has to make room. -/
theorem Acquires.processes_of_free (h : p.Acquires o f p₁) (hp : p.frames.Consistent [])
    (hfree : p.frames.allocated < p.frames.size) : p₁.processes = p.processes := by
  cases h with
  | free => rfl
  | evicting none_free =>
    rcases hp.tryAllocate_cases o with ⟨-, g, q, halloc⟩ | ⟨hfull, -⟩
    · rw [none_free] at halloc
      cases halloc
    · omega

/-- While a frame is free, an address space that takes its next page is not asked for anything
before, so the load is not refused. -/
theorem Loads.ne_mapFailed (h : p.Loads pid page result p') (hp : p.frames.Consistent [])
    (hfree : p.frames.allocated < p.frames.size) (hpr : p.processes[pid]? = some pr)
    (hcharted : pr.Charted) (haccepts : pr.space.refuses pr.space.requests = false)
    (hmissing : p.Missing ⟨pid, page⟩) : result ≠ .error .mapFailed := by
  cases h with
  | unreadable | loaded => simp
  | refused acquired process entry held fetched written address refused =>
    rw [acquired.processes_of_free hp hfree, hpr] at process
    cases process
    obtain ⟨hpage, e, he, hframe⟩ := hmissing
    have hlookup := entry
    rw [PageMap.lookup, pageFloor_of_pageOffset hpage, ← declared_of_getElem? hpr, he] at entry
    cases entry
    exact (hcharted.setPage_ne_false haccepts hlookup hframe refused).elim

/-- A page that is declared is found as it is. -/
theorem Finds.eq_of_declared {found : Option PageEntry} (h : p.Finds pid addr esp found p')
    (he : p.declared ⟨pid, pageFloor addr⟩ = some e) : p' = p := by
  cases h with
  | declared | absent => rfl
  | grown process undeclared =>
    rw [declared_of_getElem? process, ← PageMap.lookup, undeclared] at he
    cases he

/-- A fault that goes well as far as can be seen goes well where a frame is free and the address
space takes its next page. -/
theorem FaultsIn.ok_of_free {seen : PageView} {after : Outlook}
    (h : p.FaultsIn pid addr esp false result p') (ho : Owned config slots p)
    (hroom : slots * sectorsPerPage ≤ 2 ^ 32) (hfree : p.frames.allocated < p.frames.size)
    (he : p.declared ⟨pid, pageFloor addr⟩ = some e) (hpr : p.processes[pid]? = some pr)
    (hcharted : pr.Charted) (haccepts : pr.space.refuses pr.space.requests = false)
    (hseen : p.outlook.faultIn pid addr esp false = (.ok seen, after)) :
    p'.outlook = after ∧
      ∃ f, result = .ok f ∧ p'.residency ⟨pid, pageFloor addr⟩ = some (.resident f) := by
  rcases h.outlook_or_refused ho hroom with ⟨rfl, -⟩ | ⟨seen', hseen', hshows⟩
  · cases h with
    | @load p₁ _ e' _ user finds allowed frame loads =>
      have hmissing : p₁.Missing ⟨pid, pageFloor addr⟩ :=
        ⟨pageOffset_pageFloor addr, e', finds.declared_eq, frame⟩
      obtain rfl := finds.eq_of_declared he
      exact absurd rfl
        (loads.ne_mapFailed ho.frames.consistent hfree hpr hcharted haccepts hmissing)
  · rw [hseen', Prod.mk.injEq] at hseen
    obtain ⟨rfl, rfl⟩ := hseen
    cases result with
    | error error => exact hshows.elim
    | ok f => exact ⟨rfl, f, rfl, hshows.1⟩

end Pager

namespace PagerM

open Pager (Owned)

variable {t : Traced} {config : Config} {slots pid page addr esp : Nat} {e : PageEntry}

/-- A free frame is had at once. -/
theorem meets_acquireFrame_of_free (hp : t.pager.frames.Consistent [])
    (hfree : t.pager.frames.allocated < t.pager.frames.size) (o : FrameOwner) :
    Meets (acquireFrame o)
      (fun f t₁ => t.pager.frames.isAllocated f = false ∧ t₁.pager.swap = t.pager.swap)
      (fun _ _ => False) t := by
  rw [acquireFrame]
  simp only [meets_bind, meets_pager]
  rcases hp.tryAllocate_cases o with ⟨-, f, frames, halloc⟩ | ⟨hfull, -⟩
  · simp only [meets_lift_of_ok halloc, meets_setFrames, meets_pure, and_true]
    exact (hp.tryAllocate halloc).2.2.1
  · omega

/-- What a page holds is fetched if the device can still be read. -/
theorem meets_fetchContents_of_fetch (hframe : e.frame? = none)
    (hslot : ∀ slot, e.residency = .swapped slot →
      t.pager.swap.isInUse slot = true ∧ ∃ r, t.pager.swap.fetch slot = .ok r) (old : Page) :
    Meets (fetchContents pid page e old) (fun _ _ => True) (fun _ _ => False) t := by
  rw [fetchContents]
  cases hres : e.residency with
  | swapped slot =>
    obtain ⟨huse, r, hfetch⟩ := hslot slot hres
    have hcheck : t.pager.swap.checkRead slot = .ok () := by rw [Swap.checkRead, if_pos huse]
    simp only [meets_bind, meets_emit, meets_pager]
    rw [meets_lift_of_ok hcheck, meets_lift_of_ok hfetch]
    simp only [meets_setSwap, meets_pure]
  | notPopulated => simp only [meets_bind, meets_emit, meets_pager, meets_pure]
  | resident f => simp [PageEntry.frame?, hres] at hframe

section FreeFrame

variable (ho : Owned config slots t.pager) (hmemory : t.pager.memory.size = config.userFrames)
  (hmappable : t.pager.All Process.Mappable)
  (hframes : ∀ f < config.userFrames, t.pager.frames.isAllocated f = false →
    poolBase + (f + 1) * pageSize ≤ 2 ^ 32)
  (hfree : t.pager.frames.allocated < t.pager.frames.size) (hframe : e.frame? = none)
  (hfetch : ∀ slot, e.residency = .swapped slot → ∃ r, t.pager.swap.fetch slot = .ok r)

include ho hmemory hmappable hframes hfree hframe hfetch

/-- A page that is not in a frame is loaded, or cannot be, if a frame is free and what the page
holds can be fetched. -/
theorem meets_loadPage_of_free (haligned : pageOffset page = 0) (hpage : page < 2 ^ 32)
    (he : t.pager.declared ⟨pid, page⟩ = some e) :
    Meets (loadPage pid page) (fun _ _ => True) (fun _ _ => False) t := by
  refine meets_loadPage_of ho hmemory hmappable hpage ⟨haligned, e, he, hframe⟩
    (meets_acquireFrame_of_free ho.frames.consistent hfree ⟨pid, page⟩)
    (fun f _ hacquired hf => hframes f hf hacquired.1) ?_
  rintro f t₁ e' old ⟨-, hswap⟩ hacquires he' hframe'
  have hsame := hacquires.processes_of_free ho.frames.consistent hfree
  rw [Pager.declared_of_processes_eq hsame, he, Option.some.injEq] at he'
  subst he'
  refine meets_fetchContents_of_fetch hframe (fun slot hslot => ?_) old
  rw [hswap]
  have huse := Owned.isInUse_of_swapped ho.swap
    ((Pager.residency_of_declared he).trans (congrArg some hslot))
  exact ⟨huse.1, hfetch slot hslot⟩

/-- A fault on such a page ends. -/
theorem meets_faultIn_of_free (haddr : addr < 2 ^ 32)
    (he : t.pager.declared ⟨pid, pageFloor addr⟩ = some e) :
    Meets (faultIn pid addr esp false) (fun _ _ => True) (fun _ _ => False) t := by
  have hpage := pageOffset_pageFloor addr
  obtain ⟨pr, hpr, hlookup⟩ := Pager.exists_process_of_declared he hpage
  have hlookup : pr.pages.lookup addr = some e := by
    rwa [PageMap.lookup, pageFloor_pageFloor, ← PageMap.lookup] at hlookup
  rw [faultIn, findOrGrow_eq]
  simp only [meets_bind, meets_pager, meets_ite, meets_pure]
  refine ⟨fun _ => (meets_process_of_getElem? hpr).2 ?_, fun _ => trivial⟩
  simp only [hlookup, meets_pure, Bool.false_and, Bool.false_eq_true, if_false, hframe]
  exact meets_loadPage_of_free ho hmemory hmappable hframes hfree hframe hfetch hpage
    (Nat.lt_of_le_of_lt (pageFloor_le addr) haddr) he

theorem ends_pageFault_of_free (haddr : addr < 2 ^ 32)
    (he : t.pager.declared ⟨pid, pageFloor addr⟩ = some e) :
    Ends (Pager.pageFault pid addr esp) t := by
  refine Meets.ends (Q := fun _ _ => True) ?_
  rw [Pager.pageFault]
  simp only [meets_bind, meets_emit, meets_pure]
  exact meets_faultIn_of_free (t := ⟨t.pager, t.log.push (.faulting pid addr esp)⟩) ho hmemory
    hmappable hframes hfree hframe hfetch haddr he

end FreeFrame

end PagerM

namespace Pager

variable {p p₁ p' : Pager} {config : Config} {slots pid page addr esp : Nat} {e : PageEntry}
  {pr : Process} {failing refuses : Nat → Bool} {requests : Nat} {error : FaultError}
  {t t' u : Traced}

/-! ### The same fault again -/

/-- A page that was refused could be read. -/
theorem Loads.exists_load (h : p.Loads pid page (.error .mapFailed) p')
    (ho : Owned config slots p) (hroom : slots * sectorsPerPage ≤ 2 ^ 32)
    (hmissing : p.Missing ⟨pid, page⟩) (he : p.declared ⟨pid, page⟩ = some e) :
    ∃ v, (p.pageView e).load p.outlook.view = .ok v := by
  cases h with
  | @refused f phys p₁ pr e' old contents swap memory space frames acquired process entry held
      fetched =>
    have he' : p₁.declared ⟨pid, page⟩ = some e' := by
      rwa [PageMap.lookup, pageFloor_of_pageOffset hmissing.1, ← declared_of_getElem? process]
        at entry
    have hslot : ∀ slot, e'.residency = .swapped slot → slot * sectorsPerPage < 2 ^ 32 :=
      fun slot hslot => (acquired.ownedBy ho hmissing.residency_ne).slot_lt hroom
        ((residency_of_declared he').trans (congrArg some hslot))
    have hsame := acquired.outlook_eq ho hroom
    have hview := congrFun (congrArg Outlook.pages hsame) ⟨pid, page⟩
    have hpage : p₁.pageView e' = p.pageView e := Option.some.inj
      ((visible_of_declared he').symm.trans (hview.trans (visible_of_declared he)))
    rw [← hpage, ← hsame, (fetched.load hslot).1]
    exact ⟨_, rfl⟩

/-- A load fails because the file of the page cannot be read, or because the page is refused. -/
theorem FaultsIn.cause (h : p.FaultsIn pid addr esp false (.error error) p')
    (ho : Owned config slots p) (hroom : slots * sectorsPerPage ≤ 2 ^ 32)
    (herror : error.isLoadFailure = true) :
    (∃ e, error = .io e ∧ (p.outlook.faultIn pid addr esp false).1 = .error (.io e)) ∨
      (error = .mapFailed ∧ ∃ page, (p.outlook.faultIn pid addr esp false).1 = .ok page) := by
  obtain ⟨e, p₁, huser, hfinds, hframe, hloads⟩ := h.loads_of_error herror
  have ho₁ := hfinds.steps.owned ho
  have hmissing : p₁.Missing ⟨pid, pageFloor addr⟩ :=
    ⟨pageOffset_pageFloor addr, e, hfinds.declared_eq, hframe⟩
  have hview := visible_of_declared hfinds.declared_eq
  rw [Outlook.faultIn_of_allowed (huser : p.outlook.layout.isUser addr = true) hfinds.outlook
    (by rfl)]
  rcases hloads.outlook_or_refused ho₁ hroom hmissing with ⟨hrefused, -⟩ | ⟨v, hv, hresult⟩
  · cases hrefused
    obtain ⟨v, hv⟩ := hloads.exists_load ho₁ hroom hmissing hfinds.declared_eq
    exact .inr ⟨rfl, v, by rw [hv]⟩
  · obtain rfl : p₁.pageView e = v := Option.some.inj (hview.symm.trans hv)
    cases hload : (p₁.pageView e).load p₁.outlook.view with
    | error error' =>
      rw [hload] at hresult
      cases hresult.1
      exact .inl ⟨error', rfl, rfl⟩
    | ok v' =>
      rw [hload] at hresult
      obtain ⟨_, hok, -⟩ := hresult
      cases hok

/-- The failed fault and the repeated one are seen to be the same. -/
theorem FaultsIn.faultIn_mend (h : p.FaultsIn pid addr esp false (.error error) p')
    (ho : Owned config slots p) (hroom : slots * sectorsPerPage ≤ 2 ^ 32)
    (herror : error.isLoadFailure = true) :
    (p'.mend failing pid refuses requests).outlook.faultIn pid addr esp false
      = (p.mend failing pid refuses requests).outlook.faultIn pid addr esp false := by
  obtain ⟨_, _, huser, -⟩ := h.loads_of_error herror
  rw [outlook_mend, outlook_mend, h.outlook_of_error ho hroom herror, ← Outlook.find_withFailing]
  exact Outlook.faultIn_find huser false

/-- A fault that goes well leaves what is seen to be left by it. -/
theorem outlook_of_pageFault (ho : Owned config slots t.pager)
    (hroom : slots * sectorsPerPage ≤ 2 ^ 32)
    (hrun : (pageFault pid addr esp).run t = .ok (.ok ()) u) :
    (t.pager.outlook.faultIn pid addr esp false).2 = u.pager.outlook := by
  obtain ⟨r, hr, hfault⟩ := PagerM.ensures_pageFault_faultsIn pid addr esp t _ _ hrun
  rcases hfault.outlook_or_refused ho hroom with ⟨rfl, -⟩ | ⟨seen, hseen, -⟩
  · cases hr
  · rw [hseen]

end Pager

namespace PagerM

open Pager (Owned)

variable {t t' : Traced} {config : Config} {slots pid addr esp : Nat} {error : FaultError}
  {failing refuses : Nat → Bool} {requests : Nat}

/-- A fault that failed goes through when it is repeated after its cause is gone, or it runs out of
words. -/
theorem meets_pageFault_again {page : PageView} {after : Outlook}
    (h : t.pager.FaultsIn pid addr esp false (.error error) t'.pager)
    (ho : Owned config slots t.pager) (hroom : slots * sectorsPerPage ≤ 2 ^ 32)
    (hmemory : t'.pager.memory.size = config.userFrames)
    (hmappable : t'.pager.All Process.Mappable) (herror : error.isLoadFailure = true)
    (haccepts : refuses requests = false)
    (hseen : (t.pager.mend failing pid refuses requests).outlook.faultIn pid addr esp false
      = (.ok page, after)) :
    Meets (Pager.pageFault pid addr esp)
      (fun answer u => answer = .ok () ∧ u.pager.outlook = after ∧
        ∃ f, u.pager.residency ⟨pid, pageFloor addr⟩ = some (.resident f))
      (fun _ _ => t'.pager.RunsOut pid addr)
      ⟨t'.pager.mend failing pid refuses requests, t'.log⟩ := by
  have ho' := h.attempts.steps.owned ho
  have hcharted : t'.pager.Charted := fun q pr hpr => (hmappable q pr hpr).charted
  have hfree := (h.losesNothing ho hcharted hroom herror).handsBack.allocated_lt ho'
  rw [← h.faultIn_mend ho hroom herror] at hseen
  obtain ⟨e, p₁, f, p₂, -, -, hgives, hframe, hdeclared⟩ := h.givesUp ho herror
  obtain ⟨pr, hpr, -⟩ := Pager.exists_process_of_declared hdeclared (pageOffset_pageFloor addr)
  have hagain : (t'.pager.mend failing pid refuses requests).declared ⟨pid, pageFloor addr⟩
      = some e := by
    rwa [Pager.declared_mend]
  have hmended : (t'.pager.mend failing pid refuses requests).processes[pid]?
      = some { pr with space := { pr.space with refuses, requests } } := by
    rw [Pager.mend_of_getElem? hpr, Pager.getElem?_withProcess_self]
  have hmappable' : (t'.pager.mend failing pid refuses requests).All Process.Mappable :=
    hmappable.mend
  refine .of_ensures ((ensures_pageFault_faultsIn pid addr esp _).mono ?_) fun hwords => ?_
  · rintro answer u ⟨r, rfl, hfault⟩
    obtain ⟨hafter, f, rfl, hres⟩ := hfault.ok_of_free ho'.mend hroom hfree hagain hmended
      (hmappable' pid _ hmended).charted haccepts hseen
    exact ⟨rfl, hafter, f, hres⟩
  · have hwaits := Pager.residency_of_declared hdeclared
    refine ends_pageFault_of_free ho'.mend hmemory hmappable' ?_ hfree hframe ?_ ?_ hagain
    · intro g hg hgfree
      exact Nat.le_of_not_lt fun hwide => hwords (.frame (ho'.config_eq.symm ▸ hg) hgfree hwide)
    · intro slot hslot
      rw [hslot] at hwaits
      obtain ⟨contents, hfetch⟩ :=
        hgives.fetched slot (Pager.residency_congr hgives.declared_eq ▸ hwaits)
      exact Swap.exists_fetch_again hfetch
        (Nat.lt_of_not_le fun hcount => hwords (.reads hwaits hcount))
    · exact Nat.lt_of_not_le fun hwide => hwords (.address hwide)

end PagerM

namespace Pager

variable {config : Config} {device : Block} {ops : List Op} {answers : List Answer}
  {t t' : Traced} {pid addr esp : Nat} {error : FaultError}

/-- After any run, whatever the device and the plans of refusals, a fault that cannot read or cannot
map its page loses nothing, and it goes through when it is repeated after the cause is gone. -/
theorem pageFault_loses_nothing (hdevice : device.size ≤ 2 ^ 32)
    (h : (run ops).run (.start config device) = .ok answers t)
    (hfault : (pageFault pid addr esp).run t = .ok (.error error) t')
    (herror : error.isLoadFailure = true) :
    t.pager.LosesNothing pid addr esp t'.pager ∧ t.Repeats pid addr esp error t' := by
  obtain ⟨ho, hreleasable, -⟩ := inOrder_of_run h
  have hroom := (sound_ofConfig config hdevice).room
  obtain ⟨r, hr, hfaults⟩ := PagerM.ensures_pageFault_faultsIn pid addr esp t _ _ hfault
  obtain rfl : r = .error error := by
    cases r with
    | ok f => cases hr
    | error e =>
      cases hr
      rfl
  have hsteps := hfaults.attempts.steps
  have hmappable : t'.pager.All Process.Mappable := fun q pr hpr =>
    (hsteps.releasable ho hreleasable q pr hpr).mappable
  have hmemory : t'.pager.memory.size = config.userFrames := by
    rw [hsteps.size_memory.1, (PagerM.ensures_run ops _ answers t h).size_memory.1]
    exact size_memory_ofConfig config device
  refine ⟨hfaults.losesNothing ho (fun q pr hpr => (hmappable q pr hpr).charted) hroom herror,
    hfaults.cause ho hroom herror, ?_, ?_⟩
  · intro failing refuses requests page after haccepts hseen
    exact PagerM.meets_pageFault_again hfaults ho hroom hmemory hmappable herror haccepts hseen
  · intro failing refuses requests u w hw hu
    rw [← outlook_of_pageFault ho.mend hroom hw,
      ← outlook_of_pageFault (hsteps.owned ho).mend hroom hu,
      hfaults.faultIn_mend ho hroom herror]

/-- An address space that refuses every page is asked for one. -/
theorem pageFault_loses_nothing_refused : ∃ answers t t',
    (run [.register 1, .declareZero 1 0x1000 true, .refuse 1 true]).run
        (.start { userFrames := 1 } (.attach .swap "swap" (.ram (.blank 64)))) = .ok answers t ∧
    (pageFault 1 0x1000 0).run t = .ok (.error .mapFailed) t' ∧
    t.pager.LosesNothing 1 0x1000 0 t'.pager ∧ t.Repeats 1 0x1000 0 .mapFailed t' := by
  have hrun : ∃ answers t,
      (run [.register 1, .declareZero 1 0x1000 true, .refuse 1 true]).run
          (.start { userFrames := 1 } (.attach .swap "swap" (.ram (.blank 64)))) = .ok answers t ∧
      ∃ result t', (pageFault 1 0x1000 0).run t = .ok result t' ∧
        result = .error .mapFailed := by
    decide +kernel
  obtain ⟨answers, t, h, _, t', hfault, rfl⟩ := hrun
  exact ⟨answers, t, t', h, hfault,
    pageFault_loses_nothing (by decide) h hfault rfl⟩

/-- User memory reaches beyond 4 GiB and a file is mapped there. When it can be read again, a frame
is free and so are all slots, but the page tables have no place for the page. -/
theorem pageFault_again_wide : ∃ answers t,
    (run [.register 1, .mapFile 1 ⟨5, 0, .ofBytes #[1, 2, 3]⟩ 0x100000000, .failReads 5 true]).run
        (.start { userFrames := 1, physBase := 0x200000000 }
          (.attach .swap "swap" (.ram (.blank 64)))) = .ok answers t ∧
    ∃ result t', (pageFault 1 0x100000000 0).run t = .ok result t' ∧ result = .error (.io .io) ∧
      t'.pager.freeFrames = .ok 1 ∧ t'.pager.freeSlots = 8 ∧
      ¬ PagerM.Ends (do failReads 5 false; pageFault 1 0x100000000 0) t' := by
  decide +kernel

end Pager

end DemandPaging
