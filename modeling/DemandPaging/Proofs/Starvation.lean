import DemandPaging.Proofs.FailedFaults
import DemandPaging.Proofs.Progress

/-!
# When every frame is pinned

Whoever looks for a frame and finds all of them pinned stops with a panic. No other check of the
pager ends in this panic, and the check is made only if the pool is full. So one frame without
pins is enough for a fault to find a frame, and whichever frame the fault takes, one without pins
is left: the frame that was taken, if it is the one.

A copy pins one frame at a time and takes the pin off before it goes on. So the frame is still
there at the next page, and a copy of any length has it.

## Main definitions

* `Unstarved`, `PagerM.Fed` — a check and an action that do not fail because every frame is pinned.
* `FramePool.FreeUnpinned` — a frame that backs no page has no pins.
* `Pager.HasUnpinned` — some frame has no pins.

## Main results

* `Pager.freeUnpinned_of_run` — in every run, a frame that backs no page has no pins.
* `Pager.WritesPiece.pinsOf_le` — after a piece of a copy, no frame has more pins than before.
* `PagerM.fed_faultIn`, `PagerM.fed_copyToUser` — one frame without pins is enough for a fault, and
  for a copy to user memory.
-/

namespace DemandPaging

/-- Whether a panic reports that every frame is pinned. -/
def Panic.isAllPinned : Panic → Bool
  | .allFramesPinned .. => true
  | _ => false

/-- A computation that does not report that every frame is pinned. -/
def Unstarved {α : Type} (x : Except Panic α) : Prop := ∀ e, x = .error e → e.isAllPinned = false

section Unstarved

variable {α β : Type}

@[simp] theorem unstarved_ok (a : α) : Unstarved (.ok a) := fun _ h => by cases h

@[simp] theorem unstarved_pure (a : α) : Unstarved (pure a : Except Panic α) := unstarved_ok a

@[simp] theorem unstarved_error {e : Panic} :
    Unstarved (.error e : Except Panic α) ↔ e.isAllPinned = false :=
  ⟨fun h => h e rfl, fun h _ he => Except.error.inj he ▸ h⟩

@[simp] theorem unstarved_throw {e : Panic} :
    Unstarved (throw e : Except Panic α) ↔ e.isAllPinned = false := unstarved_error

@[simp] theorem unstarved_bind {x : Except Panic α} {f : α → Except Panic β} :
    Unstarved (x >>= f) ↔ Unstarved x ∧ ∀ a, x = .ok a → Unstarved (f a) := by
  cases x with
  | error e => simp [bind, Except.bind]
  | ok a => simp [bind, Except.bind]

@[simp] theorem unstarved_map {x : Except Panic α} {f : α → β} :
    Unstarved (f <$> x) ↔ Unstarved x := by
  cases x with
  | error e => simp [Functor.map, Except.map]
  | ok a => simp [Functor.map, Except.map]

@[simp] theorem unstarved_ite {c : Prop} [Decidable c] {x y : Except Panic α} :
    Unstarved (if c then x else y) ↔ (c → Unstarved x) ∧ (¬ c → Unstarved y) := by
  split <;> simp [*]

/-! ### The checks of the pager -/

@[simp] theorem unstarved_checkedAdd (width a b : Nat) : Unstarved (checkedAdd width a b) := by
  simp [checkedAdd, Panic.isAllPinned]

@[simp] theorem unstarved_checkedMul (width a b : Nat) : Unstarved (checkedMul width a b) := by
  simp [checkedMul, Panic.isAllPinned]

@[simp] theorem unstarved_checkedSub (a b : Nat) : Unstarved (checkedSub a b) := by
  simp [checkedSub, Panic.isAllPinned]

@[simp] theorem unstarved_frameAddress (f : Nat) : Unstarved (frameAddress f) := by
  simp [frameAddress]

@[simp] theorem unstarved_isStackAccess (c : Config) (addr esp : Nat) :
    Unstarved (c.isStackAccess addr esp) := by
  simp [Config.isStackAccess, Config.stackLimit]

namespace FramePool

variable (p : FramePool) (f : Nat) (o : FrameOwner)

@[simp] theorem unstarved_entry : Unstarved (p.entry f) := by
  unfold entry
  split <;> simp [Panic.isAllPinned]

@[simp] theorem unstarved_owner : Unstarved (p.owner f) := by
  unfold owner
  split <;> simp [Panic.isAllPinned]

@[simp] theorem unstarved_assign (q : Fifo) : Unstarved (q.assign f) := by
  simp [Fifo.assign, Panic.isAllPinned]

@[simp] theorem unstarved_tryAllocate : Unstarved (p.tryAllocate o) := by
  unfold tryAllocate
  split <;> simp

@[simp] theorem unstarved_reassign : Unstarved (p.reassign f o) := by
  simp [reassign, Panic.isAllPinned]

@[simp] theorem unstarved_release : Unstarved (p.release f) := by
  simp [release, Panic.isAllPinned]

@[simp] theorem unstarved_pin : Unstarved (p.pin f) := by
  simp [pin, Panic.isAllPinned]

@[simp] theorem unstarved_unpin : Unstarved (p.unpin f) := by
  simp [unpin, Panic.isAllPinned]

end FramePool

namespace FrameMemory

@[simp] theorem unstarved_contents (m : FrameMemory) (f : Nat) : Unstarved (m.contents f) := by
  unfold contents
  split <;> simp [Panic.isAllPinned]

@[simp] theorem unstarved_setContents (m : FrameMemory) (f : Nat) (page : Page) :
    Unstarved (m.setContents f page) := by
  simp [setContents, Panic.isAllPinned]

end FrameMemory

namespace PageTable

variable (t : PageTable)

@[simp] theorem unstarved_ofNat (addr : Nat) : Unstarved (VirtualAddress.ofNat addr) := by
  simp [VirtualAddress.ofNat, Panic.isAllPinned]

@[simp] theorem unstarved_locate (v : VirtualAddress) : Unstarved (t.locate v) := by
  unfold locate
  simp only [unstarved_ite, unstarved_ok, implies_true, and_true]
  intro _
  split <;> simp [Panic.isAllPinned]

@[simp] theorem unstarved_extend (v : VirtualAddress) : Unstarved (t.extend v) := by
  simp [extend, Panic.isAllPinned]

@[simp] theorem unstarved_map (phys addr : Nat) (writable user : Bool) :
    Unstarved (t.map phys addr writable user) := by
  simp only [map, unstarved_bind, unstarved_ite, unstarved_throw, unstarved_ofNat,
    unstarved_extend, unstarved_locate, Panic.isAllPinned, except_throw_ne_ok, false_implies,
    implies_true, and_true, true_and]
  intro _ _ v _ t' _ found _
  cases found with
  | none => exact unstarved_throw.2 rfl
  | some place => simp

@[simp] theorem unstarved_unmap (addr : Nat) : Unstarved (t.unmap addr) := by
  simp only [unmap, unstarved_bind, unstarved_ofNat, unstarved_locate, true_and]
  intro v _ found _
  cases found with
  | none => exact unstarved_pure t
  | some place => simp

end PageTable

namespace AddressSpace

variable (s : AddressSpace)

@[simp] theorem unstarved_setPage (page phys : Nat) (writable : Bool) :
    Unstarved (s.setPage page phys writable) := by
  simp [setPage, Panic.isAllPinned]

@[simp] theorem unstarved_clearPage (addr : Nat) : Unstarved (s.clearPage addr) := by
  simp [clearPage]

end AddressSpace

/-! ### The swap area -/

namespace Device

variable (d : Device) (sector : Nat)

@[simp] theorem unstarved_read (length : Nat) : Unstarved (d.read sector length) := by
  cases d <;> simp [read, RamDisk.read, Panic.isAllPinned]

@[simp] theorem unstarved_ram_write (disk : RamDisk) (data : Bytes) :
    Unstarved (disk.write sector data) := by
  simp only [RamDisk.write, unstarved_ite, unstarved_ok, implies_true, true_and]
  intro _
  split <;> simp [Panic.isAllPinned]

@[simp] theorem unstarved_write (data : Bytes) : Unstarved (d.write sector data) := by
  cases d <;> simp [write, Panic.isAllPinned]

end Device

namespace Block

variable (b : Block) (sector : Nat)

@[simp] theorem unstarved_read (length : Nat) : Unstarved (b.read sector length) := by
  simp only [read, unstarved_bind, unstarved_ite, unstarved_pure, Device.unstarved_read,
    implies_true, true_and]
  intro _ _ r _
  cases r <;> simp

@[simp] theorem unstarved_write (data : Bytes) : Unstarved (b.write sector data) := by
  simp only [write, unstarved_bind, unstarved_ite, unstarved_pure, Device.unstarved_write,
    implies_true, true_and]
  intro _ _ _ r _
  cases r <;> simp

end Block

namespace Swap

variable (s : Swap) (slot : Nat)

@[simp] theorem unstarved_allocate : Unstarved s.allocate := by
  unfold allocate
  split <;> simp [Panic.isAllPinned]

@[simp] theorem unstarved_release : Unstarved (s.release slot) := by
  simp [release, Panic.isAllPinned]

@[simp] theorem unstarved_checkWrite : Unstarved (s.checkWrite slot) := by
  simp [checkWrite, Panic.isAllPinned]

@[simp] theorem unstarved_checkRead : Unstarved (s.checkRead slot) := by
  simp [checkRead, Panic.isAllPinned]

@[simp] theorem unstarved_storeSectors (device : Block) (page : Page) (k count : Nat) :
    Unstarved (storeSectors device slot page k count) := by
  induction count generalizing device k with
  | zero => exact unstarved_ok device
  | succ count ih =>
    simp only [storeSectors, unstarved_bind, unstarved_checkedAdd, Block.unstarved_write, true_and]
    intro _ _ r _
    cases r with
    | error e => exact unstarved_throw.2 rfl
    | ok device => exact ih device (k + 1)

@[simp] theorem unstarved_fetchSectors (device : Block) (k count : Nat) :
    Unstarved (fetchSectors device slot k count) := by
  induction count generalizing device k with
  | zero => exact unstarved_ok _
  | succ count ih =>
    simp only [fetchSectors, unstarved_bind, unstarved_checkedAdd, Block.unstarved_read, true_and]
    intro _ _ r _
    cases r with
    | error e => exact unstarved_throw.2 rfl
    | ok read => simp [ih]

@[simp] theorem unstarved_store (page : Page) : Unstarved (s.store slot page) := by
  simp [store]

@[simp] theorem unstarved_fetch : Unstarved (s.fetch slot) := by
  simp [fetch]

end Swap

end Unstarved

/-! ### Frames without pins -/

namespace FramePool

variable {p q : FramePool} {o : FrameOwner} {f : Nat} {withdrawn : List Nat}

/-- A frame that backs no page has no pins. -/
def FreeUnpinned (p : FramePool) : Prop := ∀ f, p.ownerOf f = none → p.pinsOf f = 0

namespace FreeUnpinned

/-- A frame gets an owner, and keeps its pins. -/
theorem assign (h : p.FreeUnpinned) (hpins : q.pinsOf = p.pinsOf)
    (howner : q.ownerOf = Function.update p.ownerOf f (some o)) : q.FreeUnpinned := by
  intro g hg
  rw [hpins]
  refine h g ?_
  by_cases hgf : g = f
  · rw [howner, hgf, Function.update_self] at hg
    cases hg
  · rwa [howner, Function.update_of_ne hgf] at hg

theorem release (h : p.FreeUnpinned) (hcons : p.Consistent []) (hrelease : p.release f = .ok q) :
    q.FreeUnpinned := by
  obtain ⟨-, -, -, howner⟩ := hcons.release (List.not_mem_nil) hrelease
  intro g hg
  rw [pinsOf_release hrelease]
  by_cases hgf : g = f
  · rw [hgf, Function.update_self]
  · rw [howner, Function.update_of_ne hgf] at hg
    rw [Function.update_of_ne hgf, h g hg]

/-- Only a frame in use is pinned. -/
theorem pin (h : p.FreeUnpinned) (hcons : p.Consistent []) (hpin : p.pin f = .ok q) :
    q.FreeUnpinned := by
  have howner := (hcons.pin hpin).2.2
  have hpins := pinsOf_pin hpin
  have hused := isAllocated_of_pin hpin
  intro g hg
  rw [howner] at hg
  have hgf : g ≠ f := by
    rintro rfl
    rw [← hcons.isSome_ownerOf, hg] at hused
    cases hused
  rw [hpins, Function.update_of_ne hgf, h g hg]

theorem unpin (h : p.FreeUnpinned) (hcons : p.Consistent []) (hunpin : p.unpin f = .ok q) :
    q.FreeUnpinned := by
  have howner := (hcons.unpin hunpin).2.2
  intro g hg
  have hzero := h g (howner ▸ hg)
  rw [(pinsOf_unpin hunpin).2]
  by_cases hgf : g = f
  · rw [hgf] at hzero
    rw [hgf, Function.update_self, hzero]
  · rw [Function.update_of_ne hgf, hzero]

theorem ofSize (frames : Nat) : (FramePool.ofSize frames).FreeUnpinned :=
  fun f _ => pinsOf_ofSize frames f

end FreeUnpinned

end FramePool

namespace Pager

variable {p p₁ p' : Pager} {config : Config} {slots pid page f addr esp : Nat} {o : FrameOwner}

/-- Some frame has no pins, be it free or not. -/
def HasUnpinned (p : Pager) : Prop := ∃ f < p.config.userFrames, p.frames.pinsOf f = 0

/-- A frame that is found belongs to the page it was looked for. -/
theorem Acquires.ownerOf_eq (h : p.Acquires o f p₁) (ho : Owned config slots p) :
    p₁.frames.ownerOf = Function.update p.frames.ownerOf f (some o) := by
  cases h with
  | free found => exact (ho.frames.consistent.tryAllocate found).2.2.2
  | evicting none_free victim owner process entry resident unmapped slot_free held stored
      reassigned =>
    obtain rfl := pages_of_tryAllocate_none none_free
    obtain ⟨hcons, -, howner⟩ := ho.frames.consistent.selectVictim victim
    rw [(hcons.reassign reassigned).2.2, howner]

theorem Loads.freeUnpinned {result : Except FaultError Nat} (h : p.Loads pid page result p')
    (ho : Owned config slots p) (hmissing : p.Missing ⟨pid, page⟩)
    (hp : p.frames.FreeUnpinned) : p'.frames.FreeUnpinned := by
  cases h with
  | unreadable acquired process entry held fetched released =>
    have hcons := (acquired.ownedBy ho hmissing.residency_ne).frames.consistent
    exact (hp.assign acquired.pinsOf_eq (acquired.ownerOf_eq ho)).release hcons released
  | refused acquired process entry held fetched written address refused released =>
    have hcons := (acquired.ownedBy ho hmissing.residency_ne).frames.consistent
    exact (hp.assign acquired.pinsOf_eq (acquired.ownerOf_eq ho)).release hcons released
  | loaded acquired => exact hp.assign acquired.pinsOf_eq (acquired.ownerOf_eq ho)

theorem Step.freeUnpinned {change : Change} (h : Step change p p') (ho : Owned config slots p)
    (hp : p.frames.FreeUnpinned) : p'.frames.FreeUnpinned := by
  have hcons := ho.frames.consistent
  cases h with
  | load missing loads => exact loads.freeUnpinned ho missing hp
  | pin pinned => exact hp.pin hcons pinned
  | unpin unpinned => exact hp.unpin hcons unpinned
  | remove process entry releases =>
    cases releases with
    | resident residency unmapped released => exact hp.release hcons released
    | swapped | notPopulated => exact hp
  | _ => exact hp

/-- In every run, a frame that backs no page has no pins. -/
theorem freeUnpinned_of_run {device : Block} {ops : List Op} {answers : List Answer} {t : Traced}
    (h : (run ops).run (.start config device) = .ok answers t) : t.pager.frames.FreeUnpinned := by
  have hsteps := PagerM.ensures_run ops (.start config device) answers t h
  exact hsteps.keeps_owned (P := fun q => q.frames.FreeUnpinned) (owned_ofConfig config device)
    (fun _ hstep => hstep.freeUnpinned) (.ofSize _)

/-! ### Faults add no pins -/

theorem HasUnpinned.mono (h : p.HasUnpinned) (ho : Owned config slots p)
    (ho' : Owned config slots p') (hle : ∀ f, p'.frames.pinsOf f ≤ p.frames.pinsOf f) :
    p'.HasUnpinned := by
  obtain ⟨f, hf, hzero⟩ := h
  refine ⟨f, ?_, Nat.le_zero.1 (hzero ▸ hle f)⟩
  rwa [ho'.config_eq, ← ho.config_eq]

theorem Loads.pinsOf_le {result : Except FaultError Nat} (h : p.Loads pid page result p')
    (g : Nat) : p'.frames.pinsOf g ≤ p.frames.pinsOf g := by
  have hrelease : ∀ {frames q : FramePool} {f : Nat}, q.release f = .ok frames →
      frames.pinsOf g ≤ q.pinsOf g := by
    intro frames q f hreleased
    rw [FramePool.pinsOf_release hreleased, Function.update_apply]
    split
    · exact Nat.zero_le _
    · exact Nat.le_refl _
  cases h with
  | unreadable acquired process entry held fetched released =>
    rw [← acquired.pinsOf_eq]
    exact hrelease released
  | refused acquired process entry held fetched written address refused released =>
    rw [← acquired.pinsOf_eq]
    exact hrelease released
  | @loaded f phys p₁ pr e old contents swap freed memory space acquired =>
    exact Nat.le_of_eq (congrFun acquired.pinsOf_eq g)

theorem FaultsIn.pinsOf_le {forWrite : Bool} {result : Except FaultError Nat}
    (h : p.FaultsIn pid addr esp forWrite result p') (g : Nat) :
    p'.frames.pinsOf g ≤ p.frames.pinsOf g := by
  cases h with
  | kernel => exact Nat.le_refl _
  | absent user finds | readOnly user finds | resident user finds =>
    rw [finds.frames_eq]
  | load user finds allowed frame loads =>
    rw [← finds.frames_eq]
    exact loads.pinsOf_le g

/-- The pin of a piece is taken off again. -/
theorem WritesPiece.pinsOf_le {piece : Piece} {data : Bytes} {result : Except FaultError Unit}
    (h : p.WritesPiece pid piece data esp result p') (g : Nat) :
    p'.frames.pinsOf g ≤ p.frames.pinsOf g := by
  cases h with
  | failed fault => exact fault.pinsOf_le g
  | @copied p₁ f pinned frames page memory fault pin held written unpin =>
    have hpins : frames.pinsOf = p₁.frames.pinsOf := by
      rw [(FramePool.pinsOf_unpin unpin).2, FramePool.pinsOf_pin pin, Function.update_self,
        Function.update_idem, Nat.add_sub_cancel, Function.update_eq_self]
    show frames.pinsOf g ≤ _
    rw [hpins]
    exact fault.pinsOf_le g

end Pager

namespace PagerM

open Pager (Owned HasUnpinned)

variable {α β : Type} {t : Traced} {config : Config} {slots : Nat}

/-! ### Actions that find a frame -/

/-- From `t` on, `x` does not stop because every frame is pinned. -/
def Fed (x : PagerM α) (t : Traced) : Prop :=
  ∀ e t', x.run t = .error e t' → e.isAllPinned = false

theorem fed_iff {x : PagerM α} : Fed x t ↔ match x.run t with
    | .ok _ _ => True
    | .error e _ => e.isAllPinned = false := by
  unfold Fed
  cases x.run t <;> simp

@[simp] theorem fed_pure (a : α) : Fed (pure a) t := fed_iff.2 trivial

@[simp] theorem fed_throw {e : Panic} : Fed (throw e : PagerM α) t ↔ e.isAllPinned = false :=
  fed_iff

@[simp] theorem fed_bind {x : PagerM α} {f : α → PagerM β} :
    Fed (x >>= f) t ↔ Fed x t ∧ Ensures x (fun a t' => Fed (f a) t') t := by
  rw [fed_iff, fed_iff, ensures_iff, EStateM.run_bind]
  cases x.run t with
  | ok a t' =>
    simp only [true_and]
    exact fed_iff.symm
  | error e t' => simp

@[simp] theorem fed_map {x : PagerM α} {f : α → β} : Fed (f <$> x) t ↔ Fed x t := by
  rw [map_eq_pure_bind, fed_bind]
  exact and_iff_left fun a t' _ => fed_pure (f a)

/-- What holds of every end is ensured. -/
theorem Ensures.of_forall {x : PagerM α} {Q : α → Traced → Prop} (h : ∀ a t', Q a t') :
    Ensures x Q t := fun a t' _ => h a t'

@[simp] theorem fed_ite {c : Prop} [Decidable c] {x y : PagerM α} :
    Fed (if c then x else y) t ↔ (c → Fed x t) ∧ (¬ c → Fed y t) := by
  split <;> simp [*]

@[simp] theorem fed_lift {x : Except Panic α} : Fed (liftM x : PagerM α) t ↔ Unstarved x := by
  cases x with
  | error e => exact fed_throw.trans unstarved_error.symm
  | ok a => exact ⟨fun _ => unstarved_ok a, fun _ => fed_pure a⟩

@[simp] theorem fed_pager : Fed pager t := fed_iff.2 trivial

@[simp] theorem fed_update (f : Pager → Pager) : Fed (update f) t := fed_iff.2 trivial

@[simp] theorem fed_emit (e : PagerEvent) : Fed (emit e) t := fed_iff.2 trivial

@[simp] theorem fed_setFrames (frames : FramePool) : Fed (setFrames frames) t := fed_update _

@[simp] theorem fed_setSwap (swap : Swap) : Fed (setSwap swap) t := fed_update _

@[simp] theorem fed_setProcess (pid : Nat) (pr : Process) : Fed (setProcess pid pr) t :=
  fed_update _

@[simp] theorem fed_process (pid : Nat) : Fed (process pid) t := by
  rw [process, fed_bind, ensures_pager]
  cases t.pager.processes[pid]? <;> simp [Panic.isAllPinned]

@[simp] theorem fed_setContents (f : Nat) (page : Page) : Fed (setContents f page) t := by
  simp [setContents]

@[simp] theorem fed_releaseFrame (f : Nat) : Fed (releaseFrame f) t := by simp [releaseFrame]

@[simp] theorem fed_pinFrame (f : Nat) : Fed (pinFrame f) t := by simp [pinFrame]

@[simp] theorem fed_unpinFrame (f : Nat) : Fed (unpinFrame f) t := by simp [unpinFrame]

theorem fed_evict (f : Nat) : Fed (evict f) t := by
  rw [evict]
  simp only [fed_bind, fed_pager, ensures_pager, fed_lift, ensures_lift, true_and,
    FramePool.unstarved_owner]
  intro owner _
  cases owner with
  | none => exact fed_throw.2 rfl
  | some v =>
    simp only [fed_bind, fed_process, ensures_process, true_and]
    intro pr _
    cases pr.pages.lookup v.page with
    | none => exact fed_throw.2 rfl
    | some e => simp [Panic.isAllPinned]

/-- A frame is found for a page if one of them has no pins. -/
theorem fed_acquireFrame (ho : Owned config slots t.pager) (h : t.pager.HasUnpinned)
    (o : FrameOwner) : Fed (acquireFrame o) t := by
  have hcons := ho.frames.consistent
  rw [acquireFrame]
  simp only [fed_bind, fed_pager, ensures_pager, fed_lift, ensures_lift, true_and,
    FramePool.unstarved_tryAllocate]
  rcases hcons.tryAllocate_cases o with ⟨-, f, frames, halloc⟩ | ⟨hfull, halloc⟩
  · rintro _ hfound
    obtain rfl := Except.ok.inj (halloc.symm.trans hfound)
    simp
  · rintro _ hfound
    obtain rfl := Except.ok.inj (halloc.symm.trans hfound)
    rcases hcons.selectVictim_cases hfull with ⟨f, withdrawn, hvictim, -⟩ | ⟨-, hpins⟩
    · simp only [hvictim, fed_setFrames, ensures_setFrames, fed_bind, fed_evict, true_and]
      refine .of_forall fun _ t' => ?_
      simp
    · obtain ⟨g, hg, hzero⟩ := h
      have hg : g < t.pager.frames.size := by
        rw [ho.size_frames, ← ho.config_eq]
        exact hg
      exact absurd hzero (Nat.pos_iff_ne_zero.1 (hpins g hg))

theorem fed_fetchContents (pid page : Nat) (e : PageEntry) (old : Page) :
    Fed (fetchContents pid page e old) t := by
  rw [fetchContents]
  cases e.residency <;> simp [Panic.isAllPinned]

theorem fed_loadPage (ho : Owned config slots t.pager) (h : t.pager.HasUnpinned)
    (pid page : Nat) : Fed (loadPage pid page) t := by
  rw [loadPage, fed_bind]
  refine ⟨fed_acquireFrame ho h ⟨pid, page⟩, .of_forall fun f t₁ => ?_⟩
  simp only [fed_bind, fed_process, ensures_process, true_and]
  intro pr _
  cases pr.pages.lookup page with
  | none => exact fed_throw.2 rfl
  | some e =>
    simp only [fed_bind, fed_pager, ensures_pager, fed_lift, ensures_lift,
      FrameMemory.unstarved_contents, fed_fetchContents, true_and]
    refine fun old _ => .of_forall fun r t₂ => ?_
    cases r with
    | error error => simp
    | ok contents =>
      simp only [fed_bind, fed_setContents, ensures_setContents, fed_lift, ensures_lift,
        unstarved_frameAddress, AddressSpace.unstarved_setPage, true_and]
      rintro memory _ phys _ ⟨installed, space⟩ _
      cases installed with
      | false => simp
      | true =>
        simp only [if_true]
        cases e.slot? <;> simp

theorem fed_findOrGrow (pid addr esp : Nat) : Fed (findOrGrow pid addr esp) t := by
  rw [findOrGrow_eq]
  simp only [fed_bind, fed_process, ensures_process, true_and]
  intro pr _
  cases pr.pages.lookup addr <;> simp

/-- A fault finds a frame if one of them has no pins. -/
theorem fed_faultIn (ho : Owned config slots t.pager) (h : t.pager.HasUnpinned)
    (pid addr esp : Nat) (forWrite : Bool) : Fed (faultIn pid addr esp forWrite) t := by
  rw [faultIn]
  simp only [fed_bind, fed_pager, ensures_pager, fed_ite, fed_pure, fed_findOrGrow, true_and,
    implies_true, and_true]
  intro _
  refine (ensures_findOrGrow pid addr esp t).mono fun found t₁ hfinds => ?_
  cases found with
  | none => exact fed_pure _
  | some e =>
    simp only [fed_ite, fed_pure, implies_true, true_and]
    intro _
    cases e.frame? with
    | some f => exact fed_pure _
    | none =>
      have ho₁ := hfinds.steps.owned ho
      refine fed_loadPage ho₁ (h.mono ho ho₁ fun g => ?_) pid _
      rw [hfinds.frames_eq]

/-- A piece finds its frame if one of them has no pins. -/
theorem fed_writePiece (ho : Owned config slots t.pager) (h : t.pager.HasUnpinned) (pid : Nat)
    (piece : Piece) (data : Bytes) (esp : Nat) : Fed (writePiece pid piece data esp) t := by
  rw [writePiece, pinPage, fed_bind, fed_bind]
  refine ⟨⟨fed_faultIn ho h pid piece.addr esp true, .of_forall fun found t₁ => ?_⟩,
    .of_forall fun pinned t₁ => ?_⟩
  · cases found <;> simp
  · cases pinned <;> simp [copyIn]

/-- A copy of any length to user memory finds its frames if one of them has no pins. -/
theorem fed_writePieces (pid start : Nat) (data : Bytes) (esp done : Nat) (t : Traced)
    (ho : Owned config slots t.pager) (h : t.pager.HasUnpinned) :
    Fed (writePieces pid start data esp done) t := by
  by_cases hdone : done < data.size
  · rw [writePieces_of_lt hdone, fed_bind]
    constructor
    · exact fed_writePiece ho h pid _ data esp
    · refine (ensures_writePiece pid _ data esp t).mono fun r t₁ hpiece => ?_
      cases r with
      | error e => exact fed_pure _
      | ok _ =>
        have := Piece.next_size_pos start hdone
        have ho₁ := hpiece.attempts.steps.owned ho
        exact fed_writePieces pid start data esp _ t₁ ho₁ (h.mono ho ho₁ hpiece.pinsOf_le)
  · rw [writePieces_of_le (Nat.le_of_not_lt hdone)]
    exact fed_pure _
  termination_by data.size - done

theorem fed_copyToUser (ho : Owned config slots t.pager) (h : t.pager.HasUnpinned)
    (pid start : Nat) (data : Bytes) (esp : Nat) :
    Fed (Pager.copyToUser pid start data esp) t := by
  rw [Pager.copyToUser]
  simp only [fed_bind, fed_pager, ensures_pager, fed_ite, fed_pure, implies_true, and_true,
    true_and]
  exact fun _ => fed_writePieces pid start data esp 0 t ho h

end PagerM

end DemandPaging
