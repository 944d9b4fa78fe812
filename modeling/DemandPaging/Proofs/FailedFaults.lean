import DemandPaging.Proofs.Capacity
import DemandPaging.Proofs.GivingBack
import DemandPaging.Proofs.PinContract

/-!
# What a failed fault leaves behind

A fault whose page cannot be read or cannot be mapped has already had its frame, and another page
may have been moved to swap for it. The frame is given back, but the page that was moved stays where
it is: seen from outside it is the same page, so nothing is lost by it.

So there are two accounts of a failed fault. In terms of places it is a frame that was free and is
free again, or the frame of one unpinned page that is free now. In terms of what the pages hold it
is nothing at all, apart from a stack page that may have been declared for it.

## Main definitions

* `Pager.GivesUp` — a load that gets a frame and gives it back.
* `Pager.HandsBack` — what became of the frame of a failed fault.
* `Pager.LosesNothing` — both accounts of a failed fault.

## Main results

* `Pager.FaultsIn.givesUp` — a fault fails after it got a frame.
* `Pager.GivesUp.handsBack` — the frame is free then, and at most one other page has moved.
* `Pager.FaultsIn.losesNothing` — a failed fault loses nothing.
-/

namespace DemandPaging

namespace FramePool

variable {p q : FramePool} {o : FrameOwner} {f : Nat}

/-! ### The number of frames in use -/

theorem allocated_of_tryAllocate (h : p.tryAllocate o = .ok (some f, q)) :
    q.allocated = p.allocated + 1 := by
  rcases tryAllocate_eq_ok h with ⟨hnone, -⟩ | ⟨_, _, -, -, -, rfl⟩
  · cases hnone
  · rfl

theorem allocated_of_selectVictim (h : p.selectVictim = (some f, q)) :
    q.allocated = p.allocated := by
  simp only [FramePool.selectVictim, Prod.mk.injEq] at h
  rw [← h.2]

theorem allocated_of_reassign (h : p.reassign f o = .ok q) : q.allocated = p.allocated := by
  simp only [FramePool.reassign, except_bind_eq_ok, except_ite_eq_ok, except_throw_ne_ok,
    except_pure_eq_ok, false_and, exists_false, and_false, or_false, false_or] at h
  obtain ⟨_, -, -, -, -, _, -, rfl⟩ := h
  rfl

theorem allocated_of_release (h : p.release f = .ok q) : q.allocated + 1 = p.allocated := by
  simp only [FramePool.release, except_bind_eq_ok, entry_eq_ok, checkedSub_eq_ok,
    except_pure_eq_ok, except_ite_eq_ok, except_throw_ne_ok, false_and, exists_false, and_false,
    or_false] at h
  obtain ⟨_, -, -, _, ⟨hpos, rfl⟩, rfl⟩ := h
  exact Nat.sub_add_cancel hpos

end FramePool

/-- A failure that comes after the fault has got a frame: the file of the page cannot be read, or
the page tables refuse the page. -/
def FaultError.isLoadFailure : FaultError → Bool
  | .io _ | .mapFailed => true
  | .kernelAddress | .badAddress | .readOnly => false

namespace Pager

variable {p p₀ p₁ p' : Pager} {config : Config} {slots pid page addr esp f : Nat} {e : PageEntry}
  {o : FrameOwner} {error : FaultError}

/-! ### Definitions -/

/-- `p` gets frame `f` for page `o`, which makes it `p₁`, and gives the frame back, which makes it
`p'`. No entry changes on the way from `p₁` to `p'`. -/
structure GivesUp (p : Pager) (o : FrameOwner) (f : Nat) (p₁ p' : Pager) : Prop where
  acquired : p.Acquires o f p₁
  released : p₁.frames.release f = .ok p'.frames
  declared_eq : p'.declared = p₁.declared
  /-- If the page was in swap, it was read from there. -/
  fetched : ∀ slot, p₁.residency o = some (.swapped slot) →
    ∃ contents, p₁.swap.fetch slot = .ok (contents, p'.swap)

/-- What became of the frame that `p` got for page `o` and gave back, and of the page that was in
it. -/
inductive HandsBack (p : Pager) (o : FrameOwner) (p' : Pager) : Prop
  /-- It was free, as many frames are free as before, and no page moved. -/
  | free {n : Nat} (before : p.freeFrames = .ok (n + 1)) (after : p'.freeFrames = .ok (n + 1))
      (still : ∀ o' ≠ o, p'.declared o' = p.declared o') : HandsBack p o p'
  /-- No frame was free, and this is the one that is now. Its page had no pins. It was moved to a
  slot that was free, which stores what the frame held, and it is the only page that moved. -/
  | taken {v : FrameOwner} {e : PageEntry} {f slot : Nat} (before : p.freeFrames = .ok 0)
      (after : p'.freeFrames = .ok 1) (other : v ≠ o) (entry : p.declared v = some e)
      (resident : e.residency = .resident f) (unpinned : p.pinsOn v = 0)
      (fresh : p.swap.isInUse slot = false)
      (moved : p'.declared v = some { e with residency := .swapped slot })
      (stored : p.memory.contents f = .ok (p'.swap.contents slot))
      (still : ∀ o' ≠ o, o' ≠ v → p'.declared o' = p.declared o') : HandsBack p o p'

/-- A fault of process `pid` on `addr` that failed made `p` into `p'`, and nothing is lost. -/
structure LosesNothing (p : Pager) (pid addr esp : Nat) (p' : Pager) : Prop where
  /-- No address on the page has a translation, and none can be asked for beyond 4 GiB. -/
  untranslated : ∀ v, pageFloor v = pageFloor addr →
    p'.translate pid v = if v < 2 ^ 32 then .ok none else .error (.virtualTooWide v)
  /-- The page waits where it did: nowhere yet, or in the same slot, which is still its own and
  stores the same bytes. Or it was not declared, and it is a new stack page. -/
  waits : (∃ e, p.declared ⟨pid, pageFloor addr⟩ = some e ∧ e.frame? = none ∧
      p'.declared ⟨pid, pageFloor addr⟩ = some e ∧
      ∀ slot, e.residency = .swapped slot → p'.swap.isInUse slot = true ∧
        p'.swap.contents slot = p.swap.contents slot) ∨
    (p.declared ⟨pid, pageFloor addr⟩ = none ∧ p.config.isStackAccess addr esp = .ok true ∧
      p'.declared ⟨pid, pageFloor addr⟩ = some (.fresh .zero true))
  /-- No other page is declared, and none is taken away. -/
  isSome_declared : ∀ o ≠ ⟨pid, pageFloor addr⟩,
    (p'.declared o).isSome = (p.declared o).isSome
  /-- The frame is free, and at most one other page has moved. -/
  handsBack : p.HandsBack ⟨pid, pageFloor addr⟩ p'
  /-- No page has other contents than before, and nothing else is seen but a new stack page. -/
  outlook_eq : p'.outlook = (p.outlook.find pid addr esp).2
  pinsOn_eq : ∀ o, p'.pinsOn o = p.pinsOn o

/-! ### Getting a frame and giving it back -/

theorem pinsOn_of_frame (h : p.declared o = some e) (hf : e.frame? = some f) :
    p.pinsOn o = p.frames.pinsOf f := by
  rw [pinsOn, residency_of_declared h, frame_eq_some.1 hf]

theorem pinsOn_of_no_frame (h : p.declared o = some e) (hf : e.frame? = none) :
    p.pinsOn o = 0 := by
  rw [pinsOn, residency_of_declared h]
  cases hres : e.residency with
  | resident f =>
    rw [frame_eq_some.2 hres] at hf
    cases hf
  | _ => rfl

theorem pinsOn_of_undeclared (h : p.declared o = none) : p.pinsOn o = 0 := by
  rw [pinsOn, residency, h, Option.map_none]

/-- No pins come or go when a page gets a frame. -/
theorem Acquires.pinsOf_eq (h : p.Acquires o f p₁) : p₁.frames.pinsOf = p.frames.pinsOf := by
  cases h with
  | free found => exact FramePool.pinsOf_tryAllocate found
  | evicting none_free victim owner process entry resident unmapped slot_free held stored
      reassigned =>
    obtain rfl := pages_of_tryAllocate_none none_free
    exact (FramePool.pinsOf_reassign reassigned).trans (FramePool.pinsOf_selectVictim victim).1

/-- What a page is seen to hold does not depend on where it is. -/
theorem held_eq_of_visible {e' : PageEntry} (h : p'.visible o = p.visible o)
    (he : p.declared o = some e) (he' : p'.declared o = some e') : p'.held e' = p.held e := by
  rw [visible_of_declared he, visible_of_declared he', Option.some.injEq, PageView.mk.injEq] at h
  exact h.2.2

theorem Fetches.fetch_eq {old : Page} {result : Except FileError Page} {swap : Swap} {slot : Nat}
    (h : p.Fetches e old result swap) (hslot : e.residency = .swapped slot) :
    ∃ contents, p.swap.fetch slot = .ok (contents, swap) := by
  cases h with
  | swapped residency fetched =>
    rw [residency, Residency.swapped.injEq] at hslot
    exact ⟨_, hslot ▸ fetched⟩
  | populated residency =>
    rw [residency] at hslot
    cases hslot

/-- A load that fails had a frame and gives it back. -/
theorem Loads.givesUp (h : p.Loads pid page (.error error) p') (hpage : pageFloor page = page) :
    ∃ f p₁, p.GivesUp ⟨pid, page⟩ f p₁ p' := by
  have hslot : ∀ {p₁ : Pager} {pr : Process} {e : PageEntry} {slot : Nat},
      p₁.processes[pid]? = some pr → pr.pages.lookup page = some e →
      p₁.residency ⟨pid, page⟩ = some (.swapped slot) → e.residency = .swapped slot := by
    intro p₁ pr e slot process entry hres
    rw [PageMap.lookup, hpage, ← declared_of_getElem? process] at entry
    exact Option.some.inj ((residency_of_declared entry).symm.trans hres)
  cases h with
  | unreadable acquired process entry held fetched released =>
    exact ⟨_, _, acquired, released, declared_of_processes_eq rfl,
      fun slot hres => fetched.fetch_eq (hslot process entry hres)⟩
  | refused acquired process entry held fetched written address refused released =>
    exact ⟨_, _, acquired, released, declared_of_pages_eq process rfl rfl,
      fun slot hres => fetched.fetch_eq (hslot process entry hres)⟩

namespace GivesUp

/-- The page that the frame was for stays where it was. -/
theorem declared_self (h : p.GivesUp o f p₁ p') (ho : Owned config slots p)
    (hmissing : p.Missing o) : p'.declared o = p.declared o := by
  rw [h.declared_eq]
  rcases h.acquired.declared_eq ho hmissing.residency_ne with heq | ⟨v, _, _, hne, -, -, heq⟩
  · rw [heq]
  · rw [heq, Function.update_of_ne (Ne.symm hne)]

/-- The frame that was got is free afterwards, and at most one other page has moved. -/
theorem handsBack (h : p.GivesUp o f p₁ p') (ho : Owned config slots p)
    (ho' : Owned config slots p') (hseen : p'.visible = p.visible) (hmissing : p.Missing o) :
    p.HandsBack o p' := by
  obtain ⟨acquired, released, declared_eq, -⟩ := h
  have hback := FramePool.allocated_of_release released
  have hfree := ho.freeFrames_eq_sub
  have hfree' := ho'.freeFrames_eq_sub
  rw [ho.size_frames] at hfree
  rw [ho'.size_frames] at hfree'
  cases acquired with
  | @free frames found =>
    have htaken := FramePool.allocated_of_tryAllocate found
    have hroom : frames.allocated ≤ config.userFrames := by
      obtain ⟨hconsistent, hsize, -⟩ := ho.frames.consistent.tryAllocate found
      rw [← ho.size_frames, ← hsize]
      exact hconsistent.allocated_le_size
    have hstill : p'.declared = p.declared := declared_eq
    refine .free (n := config.userFrames - frames.allocated) ?_ ?_ fun o' _ => congrFun hstill o'
    · rw [hfree, Except.ok.injEq]
      omega
    · simp only at hback
      rw [hfree', Except.ok.injEq]
      omega
  | @evicting full withdrawn frames v pr e space slot taken swap contents none_free victim owner
      process entry resident unmapped slot_free held stored reassigned =>
    obtain rfl := pages_of_tryAllocate_none none_free
    obtain ⟨hdeclared, hres, hfloor⟩ := ho.declared_of_victim victim owner process entry
    have hfull : p.frames.allocated = config.userFrames := by
      rcases ho.frames.consistent.tryAllocate_cases o with ⟨-, g, q, halloc⟩ | ⟨hfull, -⟩
      · rw [none_free] at halloc
        cases halloc
      · exact hfull.trans ho.size_frames
    have hcount : frames.allocated = config.userFrames := by
      rw [FramePool.allocated_of_reassign reassigned, FramePool.allocated_of_selectVictim victim,
        hfull]
    have hupdate := declared_eq.trans (declared_of_pages_set process rfl rfl)
    rw [hfloor] at hupdate
    have hmoved : p'.declared v = some { e with residency := .swapped slot } := by
      rw [hupdate, Function.update_self]
    -- the page that was moved is still seen as it was, so its slot stores what the frame held
    have hstored : p'.swap.contents slot = contents := by
      have hheld := held_eq_of_visible (congrFun hseen v) hdeclared hmoved
      simpa only [Pager.held, hres, getD_of_contents held, Option.some.injEq] using hheld
    obtain ⟨-, -, -, hfresh, -⟩ := ho.swap.consistent.allocate slot_free
    refine .taken ?_ ?_ ?_ hdeclared hres ?_ hfresh hmoved (hstored ▸ held) ?_
    · rw [hfree, hfull, Nat.sub_self]
    · simp only at hback
      rw [hfree', Except.ok.injEq]
      omega
    · rintro rfl
      exact hmissing.residency_ne f ((residency_of_declared hdeclared).trans (congrArg some hres))
    · rw [pinsOn_of_frame hdeclared (frame_eq_some.2 hres),
        (FramePool.pinsOf_selectVictim victim).2]
    · intro o' _ hne
      rw [hupdate, Function.update_of_ne hne]

/-- Pages that stay where they are keep their pins. -/
theorem pinsOn_of_declared_eq (h : p.GivesUp o f p₁ p') (ho' : Owned config slots p')
    (ho₁ : p₁.frames.Consistent []) {v : FrameOwner} (hv : p'.declared v = p.declared v) :
    p'.pinsOn v = p.pinsOn v := by
  cases hdeclared : p.declared v with
  | none => rw [pinsOn_of_undeclared hdeclared, pinsOn_of_undeclared (hv.trans hdeclared)]
  | some e =>
    have hdeclared' := hv.trans hdeclared
    cases hframe : e.frame? with
    | none => rw [pinsOn_of_no_frame hdeclared hframe, pinsOn_of_no_frame hdeclared' hframe]
    | some g =>
      -- no page is in the frame that was given back
      have hne : g ≠ f := by
        rintro rfl
        have howner := ho'.ownerOf_eq ((residency_of_declared hdeclared').trans
          (congrArg some (frame_eq_some.1 hframe)))
        rw [(ho₁.release List.not_mem_nil h.released).2.2.2, Function.update_self] at howner
        cases howner
      rw [pinsOn_of_frame hdeclared hframe, pinsOn_of_frame hdeclared' hframe,
        FramePool.pinsOf_release h.released, Function.update_of_ne hne, h.acquired.pinsOf_eq]

/-- No page has gained or lost a pin: the one that moved had none. -/
theorem pinsOn_eq (h : p.GivesUp o f p₁ p') (hback : p.HandsBack o p') (ho : Owned config slots p)
    (ho' : Owned config slots p') (hmissing : p.Missing o) (v : FrameOwner) :
    p'.pinsOn v = p.pinsOn v := by
  have ho₁ := (h.acquired.ownedBy ho hmissing.residency_ne).frames.consistent
  by_cases hself : v = o
  · exact h.pinsOn_of_declared_eq ho' ho₁ (hself ▸ h.declared_self ho hmissing)
  · cases hback with
    | free before after still => exact h.pinsOn_of_declared_eq ho' ho₁ (still v hself)
    | @taken w _ _ _ before after other entry resident unpinned fresh moved stored still =>
      by_cases hw : v = w
      · rw [hw, unpinned, pinsOn_of_no_frame moved rfl]
      · exact h.pinsOn_of_declared_eq ho' ho₁ (still v hself hw)

end GivesUp

/-- A frame is free afterwards. -/
theorem HandsBack.allocated_lt (h : p.HandsBack o p') (ho' : Owned config slots p') :
    p'.frames.allocated < p'.frames.size := by
  have hfree := ho'.freeFrames_eq_sub
  cases h with
  | free before after | taken before after =>
    rw [after, Except.ok.injEq] at hfree
    omega

theorem HandsBack.isSome_declared (h : p.HandsBack o p') {v : FrameOwner} (hv : v ≠ o) :
    (p'.declared v).isSome = (p.declared v).isSome := by
  cases h with
  | free before after still => rw [still v hv]
  | @taken w _ _ _ _ _ _ entry _ _ _ moved _ still =>
    by_cases hw : v = w
    · rw [hw, entry, moved]
      rfl
    · rw [still v hv hw]

/-! ### Faults -/

theorem Finds.declared_of_ne {found : Option PageEntry} (h : p.Finds pid addr esp found p')
    (hne : o ≠ ⟨pid, pageFloor addr⟩) : p'.declared o = p.declared o := by
  cases h with
  | grown process => rw [declared_of_pages_set process rfl rfl, Function.update_of_ne hne]
  | _ => rfl

/-- A page that is declared has no pins yet. -/
theorem Finds.pinsOn_eq {found : Option PageEntry} (h : p.Finds pid addr esp found p')
    (o : FrameOwner) : p'.pinsOn o = p.pinsOn o := by
  by_cases hne : o = ⟨pid, pageFloor addr⟩
  · subst hne
    cases h with
    | @grown pr process undeclared stack =>
      have hnone : p.declared ⟨pid, pageFloor addr⟩ = none := by
        rw [declared_of_getElem? process, ← PageMap.lookup, undeclared]
      rw [pinsOn_of_undeclared hnone]
      exact pinsOn_of_no_frame (Finds.grown process undeclared stack).declared_eq rfl
    | _ => rfl
  · rw [pinsOn, pinsOn, residency, h.declared_of_ne hne, h.frames_eq, residency]

/-- It makes no difference to the frame that its page may have been declared just before. -/
theorem HandsBack.of_finds {found : Option PageEntry} (h : p₁.HandsBack ⟨pid, pageFloor addr⟩ p')
    (hfinds : p.Finds pid addr esp found p₁) : p.HandsBack ⟨pid, pageFloor addr⟩ p' := by
  have hfree : p₁.freeFrames = p.freeFrames := congrArg FramePool.free hfinds.frames_eq
  have hsame : p₁.swap = p.swap ∧ p₁.memory = p.memory := by
    cases hfinds <;> exact ⟨rfl, rfl⟩
  cases h with
  | free before after still =>
    exact .free (hfree ▸ before) after fun o' hne =>
      (still o' hne).trans (hfinds.declared_of_ne hne)
  | taken before after other entry resident unpinned fresh moved stored still =>
    exact .taken (hfree ▸ before) after other ((hfinds.declared_of_ne other).symm.trans entry)
      resident ((hfinds.pinsOn_eq _).symm.trans unpinned) (hsame.1 ▸ fresh) moved
      (hsame.2 ▸ stored) fun o' hne hne' => (still o' hne hne').trans (hfinds.declared_of_ne hne)

/-- A fault that cannot read or map its page found the page and tried to load it. -/
theorem FaultsIn.loads_of_error (h : p.FaultsIn pid addr esp false (.error error) p')
    (herror : error.isLoadFailure = true) :
    ∃ e p₁, p.config.isUser addr = true ∧ p.Finds pid addr esp (some e) p₁ ∧ e.frame? = none ∧
      p₁.Loads pid (pageFloor addr) (.error error) p' := by
  cases h with
  | kernel | absent | readOnly => cases herror
  | load user finds allowed frame loads => exact ⟨_, _, user, finds, frame, loads⟩

/-- Such a fault is seen to do no more than to find the page. -/
theorem FaultsIn.outlook_of_error (h : p.FaultsIn pid addr esp false (.error error) p')
    (ho : Owned config slots p) (hroom : slots * sectorsPerPage ≤ 2 ^ 32)
    (herror : error.isLoadFailure = true) : p'.outlook = (p.outlook.find pid addr esp).2 := by
  obtain ⟨e, p₁, -, finds, frame, loads⟩ := h.loads_of_error herror
  rw [finds.outlook]
  rcases loads.outlook_or_refused (finds.steps.owned ho) hroom
    ⟨pageOffset_pageFloor addr, e, finds.declared_eq, frame⟩ with ⟨-, hsame⟩ | ⟨v, -, hloads⟩
  · exact hsame
  · cases hload : v.load p₁.outlook.view with
    | error _ =>
      rw [hload] at hloads
      exact hloads.2
    | ok _ =>
      rw [hload] at hloads
      obtain ⟨_, hok, -⟩ := hloads
      cases hok

/-- It gets a frame for the page and gives it back, and the page is declared as it was found. -/
theorem FaultsIn.givesUp (h : p.FaultsIn pid addr esp false (.error error) p')
    (ho : Owned config slots p) (herror : error.isLoadFailure = true) :
    ∃ e p₁ f p₂, p.Finds pid addr esp (some e) p₁ ∧ p₁.Missing ⟨pid, pageFloor addr⟩ ∧
      p₁.GivesUp ⟨pid, pageFloor addr⟩ f p₂ p' ∧ e.frame? = none ∧
      p'.declared ⟨pid, pageFloor addr⟩ = some e := by
  obtain ⟨e, p₁, -, hfinds, hframe, hloads⟩ := h.loads_of_error herror
  obtain ⟨f, p₂, hgives⟩ := hloads.givesUp (pageFloor_pageFloor addr)
  have hmissing : p₁.Missing ⟨pid, pageFloor addr⟩ :=
    ⟨pageOffset_pageFloor addr, e, hfinds.declared_eq, hframe⟩
  exact ⟨e, p₁, f, p₂, hfinds, hmissing, hgives, hframe,
    (hgives.declared_self (hfinds.steps.owned ho) hmissing).trans hfinds.declared_eq⟩

/-- A fault that fails after it got a frame loses nothing. -/
theorem FaultsIn.losesNothing (h : p.FaultsIn pid addr esp false (.error error) p')
    (ho : Owned config slots p) (hcharted : p'.Charted) (hroom : slots * sectorsPerPage ≤ 2 ^ 32)
    (herror : error.isLoadFailure = true) : p.LosesNothing pid addr esp p' := by
  have ho' := h.attempts.steps.owned ho
  have houtlook := h.outlook_of_error ho hroom herror
  obtain ⟨e, p₁, f, p₂, hfinds, hmissing, hgives, hframe, hdeclared⟩ := h.givesUp ho herror
  have ho₁ := hfinds.steps.owned ho
  have hseen : p'.visible = p₁.visible :=
    congrArg Outlook.pages (houtlook.trans (congrArg Prod.snd hfinds.outlook))
  have hback := hgives.handsBack ho₁ ho' hseen hmissing
  refine ⟨fun v hpage => ?_, ?_, fun o => (hback.of_finds hfinds).isSome_declared,
    hback.of_finds hfinds, houtlook, fun o => ?_⟩
  · obtain ⟨pr, hpr, -⟩ := exists_process_of_declared hdeclared (pageOffset_pageFloor addr)
    by_cases hv : v < 2 ^ 32
    · rw [if_pos hv, hcharted.translate_declared (by rw [hpr]; rfl) hv, hpage, hdeclared,
        Option.bind_some, hframe, Option.map_none]
    · rw [if_neg hv, translate_of_wide hpr (Nat.not_lt.1 hv)]
  · cases hfinds with
    | @declared pr _ process entry =>
      have hbefore : p.declared ⟨pid, pageFloor addr⟩ = some e := by
        rwa [declared_of_getElem? process]
      refine .inl ⟨e, hbefore, hframe, hdeclared, fun slot hslot => ?_⟩
      have huse := Owned.isInUse_of_swapped ho'.swap
        ((residency_of_declared hdeclared).trans (congrArg some hslot))
      have hheld := held_eq_of_visible (congrFun hseen _) hbefore hdeclared
      exact ⟨huse.1, by simpa only [Pager.held, hslot, Option.some.injEq] using hheld⟩
    | @grown pr process undeclared stack =>
      refine .inr ⟨?_, stack, hdeclared⟩
      rwa [declared_of_getElem? process]
  · exact (hgives.pinsOn_eq hback ho₁ ho' hmissing o).trans (hfinds.pinsOn_eq o)

end Pager

end DemandPaging
