import DemandPaging.Proofs.FramePool
import DemandPaging.Proofs.Operations
import DemandPaging.Proofs.SwapSlots

/-!
# Who owns a frame and who owns a slot

A frame is in use exactly when a page is resident in it, and a slot is in use exactly when a page
was moved to it. `Pager.Owned` states this for frames through the table of owners, which makes the
page of a frame unique, and for slots through the residencies alone.

Both are statements about the function that says where each page is. A load changes that function
twice: the victim, if there is one, goes to a slot, and the page that is loaded goes to the frame.
A load that fails takes the second change back. This is why the laws below are laws of the updates
of a function, and why the frame pool can be half-way through a load while the slots are not.

## Main definitions

* `Pager.residency` — where a page is.
* `FramesOwned`, `SlotsOwned` — frames and slots in use are those of the pages.
* `Pager.Owned` — both, for a pager.

## Main results

* `Pager.Step.owned` — every step keeps it.
-/

namespace DemandPaging

variable {r : FrameOwner → Option Residency} {o v : FrameOwner} {x : Option Residency}

/-! ### Frames -/

/-- The owner of a frame is the page that is resident in it. -/
def OwnersMatch (owner : Nat → Option FrameOwner) (r : FrameOwner → Option Residency) : Prop :=
  ∀ f o, owner f = some o ↔ r o = some (.resident f)

namespace OwnersMatch

variable {owner : Nat → Option FrameOwner} {f : Nat}

/-- A page that is not in a frame moves to another place that is no frame. -/
theorem update (h : OwnersMatch owner r) (hold : ∀ g, r o ≠ some (.resident g))
    (hnew : ∀ g, x ≠ some (.resident g)) : OwnersMatch owner (Function.update r o x) := by
  intro g o'
  rw [h g o']
  by_cases ho : o' = o
  · subst ho
    simp [hold g, hnew g]
  · rw [Function.update_of_ne ho]

/-- A page gets a frame that has no owner. -/
theorem assign (h : OwnersMatch owner r) (hold : ∀ g, r o ≠ some (.resident g))
    (hfree : owner f = none) :
    OwnersMatch (Function.update owner f (some o))
      (Function.update r o (some (.resident f))) := by
  intro g o'
  by_cases hg : g = f
  · subst hg
    have hother : r o' ≠ some (.resident g) := by
      rw [Ne, ← h g o', hfree]
      simp
    by_cases ho : o' = o
    · simp [ho]
    · simp [Ne.symm ho, Function.update_of_ne ho, hother]
  · rw [Function.update_of_ne hg, h g o']
    by_cases ho : o' = o
    · subst ho
      simp [hold g, Ne.symm hg]
    · rw [Function.update_of_ne ho]

/-- A page leaves its frame. -/
theorem free (h : OwnersMatch owner r) (hr : r o = some (.resident f))
    (hnew : ∀ g, x ≠ some (.resident g)) :
    OwnersMatch (Function.update owner f none) (Function.update r o x) := by
  intro g o'
  by_cases hg : g = f
  · subst hg
    by_cases ho : o' = o
    · subst ho
      simp [hnew g]
    · have hother : r o' ≠ some (.resident g) := by
        intro hr'
        have := (h g o').2 hr'
        rw [(h g o).2 hr] at this
        exact ho (Option.some.inj this).symm
      simp [Function.update_of_ne ho, hother]
  · rw [Function.update_of_ne hg, h g o']
    by_cases ho : o' = o
    · subst ho
      simp [hr, hnew g, Ne.symm hg]
    · rw [Function.update_of_ne ho]

end OwnersMatch

/-- The frames in use are the frames of the resident pages. -/
structure FramesOwned (frames : FramePool) (r : FrameOwner → Option Residency) : Prop where
  consistent : frames.Consistent []
  owners : OwnersMatch frames.ownerOf r

namespace FramesOwned

variable {frames frames' withdrawn : FramePool} {f : Nat}

theorem update (h : FramesOwned frames r) (hold : ∀ g, r o ≠ some (.resident g))
    (hnew : ∀ g, x ≠ some (.resident g)) : FramesOwned frames (Function.update r o x) :=
  ⟨h.consistent, h.owners.update hold hnew⟩

theorem tryAllocate (h : FramesOwned frames r) (hold : ∀ g, r o ≠ some (.resident g))
    (halloc : frames.tryAllocate o = .ok (some f, frames')) :
    FramesOwned frames' (Function.update r o (some (.resident f))) ∧
      frames'.size = frames.size := by
  obtain ⟨hcons, hsize, hfree, howner⟩ := h.consistent.tryAllocate halloc
  have hnone := h.consistent.ownerOf_eq_none hfree
  refine ⟨⟨hcons, ?_⟩, hsize⟩
  rw [howner]
  exact h.owners.assign hold hnone

/-- The frame of one page becomes the frame of another. -/
theorem evict (h : FramesOwned frames r) (hvictim : frames.selectVictim = (some f, withdrawn))
    (hv : r v = some (.resident f)) (hnew : ∀ g, x ≠ some (.resident g))
    (hold : ∀ g, r o ≠ some (.resident g)) (hassign : withdrawn.reassign f o = .ok frames') :
    FramesOwned frames'
        (Function.update (Function.update r v x) o (some (.resident f))) ∧
      frames'.size = frames.size := by
  obtain ⟨hcons, hsize, howner⟩ := h.consistent.selectVictim hvictim
  obtain ⟨hcons', hsize', howner'⟩ := hcons.reassign hassign
  have hne : o ≠ v := by
    rintro rfl
    exact hold f hv
  refine ⟨⟨hcons', ?_⟩, hsize'.trans hsize⟩
  have hfreed := (h.owners.free hv hnew).assign (o := o) (f := f)
    (by rwa [Function.update_of_ne hne]) (Function.update_self _ _ _)
  rwa [Function.update_idem, ← howner, ← howner'] at hfreed

theorem release (h : FramesOwned frames r) (hr : r o = some (.resident f))
    (hnew : ∀ g, x ≠ some (.resident g)) (hrelease : frames.release f = .ok frames') :
    FramesOwned frames' (Function.update r o x) ∧ frames'.size = frames.size := by
  obtain ⟨hcons, hsize, -, howner⟩ := h.consistent.release List.not_mem_nil hrelease
  refine ⟨⟨hcons, ?_⟩, hsize⟩
  rw [howner]
  exact h.owners.free hr hnew

theorem pin (h : FramesOwned frames r) (hpin : frames.pin f = .ok frames') :
    FramesOwned frames' r ∧ frames'.size = frames.size := by
  obtain ⟨hcons, hsize, howner⟩ := h.consistent.pin hpin
  exact ⟨⟨hcons, howner ▸ h.owners⟩, hsize⟩

theorem unpin (h : FramesOwned frames r) (hunpin : frames.unpin f = .ok frames') :
    FramesOwned frames' r ∧ frames'.size = frames.size := by
  obtain ⟨hcons, hsize, howner⟩ := h.consistent.unpin hunpin
  exact ⟨⟨hcons, howner ▸ h.owners⟩, hsize⟩

end FramesOwned

/-! ### Slots -/

/-- The slots in use are the slots of the pages in swap, and no two pages share one. -/
structure SlotsOwned (swap : Swap) (r : FrameOwner → Option Residency) : Prop where
  consistent : swap.Consistent
  inUse_iff : ∀ slot, swap.isInUse slot = true ↔ ∃ o, r o = some (.swapped slot)
  unique : ∀ slot o o', r o = some (.swapped slot) → r o' = some (.swapped slot) → o = o'

namespace SlotsOwned

variable {swap swap' taken : Swap} {slot : Nat}

theorem update (h : SlotsOwned swap r) (hold : ∀ s, r o ≠ some (.swapped s))
    (hnew : ∀ s, x ≠ some (.swapped s)) : SlotsOwned swap (Function.update r o x) := by
  have hsame : ∀ o' s, Function.update r o x o' = some (.swapped s) ↔ r o' = some (.swapped s) := by
    intro o' s
    by_cases ho : o' = o
    · subst ho
      simp [hold s, hnew s]
    · rw [Function.update_of_ne ho]
  exact ⟨h.consistent, fun s => by simp only [hsame, h.inUse_iff],
    fun s o₁ o₂ h₁ h₂ => h.unique s o₁ o₂ ((hsame o₁ s).1 h₁) ((hsame o₂ s).1 h₂)⟩

/-- A page moves to a slot that was free. -/
theorem allocate (h : SlotsOwned swap r) (hold : ∀ s, r o ≠ some (.swapped s))
    (halloc : swap.allocate = .ok (slot, swap')) :
    SlotsOwned swap' (Function.update r o (some (.swapped slot))) ∧ swap'.slots = swap.slots := by
  obtain ⟨hcons, hslots, -, hfree, -, huse⟩ := h.consistent.allocate halloc
  have hnone : ∀ o', r o' ≠ some (.swapped slot) := by
    intro o' hr
    have := (h.inUse_iff slot).2 ⟨o', hr⟩
    rw [hfree] at this
    simp at this
  have hsame : ∀ o' s, Function.update r o (some (.swapped slot)) o' = some (.swapped s) ↔
      (o' = o ∧ s = slot) ∨ r o' = some (.swapped s) := by
    intro o' s
    by_cases ho : o' = o
    · subst ho
      simp [hold s, eq_comm]
    · rw [Function.update_of_ne ho]
      simp [ho]
  refine ⟨⟨hcons, ?_, ?_⟩, hslots⟩
  · intro s
    rw [huse]
    simp only [hsame]
    by_cases hs : s = slot
    · simp [hs]
    · simp [hs, h.inUse_iff]
  · intro s o₁ o₂ h₁ h₂
    rcases (hsame o₁ s).1 h₁ with ⟨rfl, rfl⟩ | hr₁
    · rcases (hsame o₂ s).1 h₂ with ⟨rfl, -⟩ | hr₂
      · rfl
      · exact absurd hr₂ (hnone o₂)
    · rcases (hsame o₂ s).1 h₂ with ⟨rfl, rfl⟩ | hr₂
      · exact absurd hr₁ (hnone o₁)
      · exact h.unique s o₁ o₂ hr₁ hr₂

/-- A page leaves its slot. -/
theorem release (h : SlotsOwned swap r) (hr : r o = some (.swapped slot))
    (hnew : ∀ s, x ≠ some (.swapped s)) (hrelease : swap.release slot = .ok swap') :
    SlotsOwned swap' (Function.update r o x) ∧ swap'.slots = swap.slots := by
  obtain ⟨hcons, hslots, -, -, huse⟩ := h.consistent.release hrelease
  have hsame : ∀ o' s, Function.update r o x o' = some (.swapped s) ↔
      s ≠ slot ∧ r o' = some (.swapped s) := by
    intro o' s
    by_cases ho : o' = o
    · subst ho
      simp only [Function.update_self, hnew s, hr, Option.some.injEq, Residency.swapped.injEq,
        false_iff, not_and]
      exact fun hs hs' => hs hs'.symm
    · rw [Function.update_of_ne ho, iff_and_self]
      rintro hr' rfl
      exact ho (h.unique s o' o hr' hr)
  refine ⟨⟨hcons, ?_, ?_⟩, hslots⟩
  · intro s
    rw [huse]
    simp only [hsame]
    by_cases hs : s = slot
    · simp [hs]
    · simp [hs, h.inUse_iff]
  · intro s o₁ o₂ h₁ h₂
    exact h.unique s o₁ o₂ ((hsame o₁ s).1 h₁).2 ((hsame o₂ s).1 h₂).2

/-- A transfer changes the device and nothing else. -/
theorem device (h : SlotsOwned swap r) (b : Block) : SlotsOwned { swap with device := b } r :=
  ⟨⟨h.consistent.size_taken, h.consistent.free_add⟩, h.inUse_iff, h.unique⟩

end SlotsOwned

/-! ### The pager -/

namespace Pager

variable {p p₁ p' : Pager} {config : Config} {slots pid page f : Nat} {e : PageEntry}

/-- Where a page is, if it is declared. -/
def residency (p : Pager) (o : FrameOwner) : Option Residency :=
  (p.declared o).map PageEntry.residency

theorem residency_of_declared (h : p.declared o = some e) :
    p.residency o = some e.residency := by
  rw [residency, h, Option.map_some]

theorem residency_eq_some {x : Residency} :
    p.residency o = some x ↔ ∃ e, p.declared o = some e ∧ e.residency = x := by
  rw [residency, Option.map_eq_some_iff]

theorem frame_eq_some {f : Nat} : e.frame? = some f ↔ e.residency = .resident f := by
  cases h : e.residency <;> simp [PageEntry.frame?, h]

theorem slot_eq_some {s : Nat} : e.slot? = some s ↔ e.residency = .swapped s := by
  cases h : e.residency <;> simp [PageEntry.slot?, h]

theorem residency_update {x : Option PageEntry}
    (h : p'.declared = Function.update p.declared o x) :
    p'.residency = Function.update p.residency o (x.map PageEntry.residency) := by
  funext o'
  rw [residency, h]
  by_cases ho : o' = o
  · subst ho
    simp
  · rw [Function.update_of_ne ho, Function.update_of_ne ho, residency]

theorem residency_congr (h : p'.declared = p.declared) : p'.residency = p.residency := by
  funext o
  rw [residency, h, residency]

theorem residency_of_pages_set {pr pr' : Process} (h : p.processes[pid]? = some pr)
    (hp' : p'.processes = p.processes.insert pid pr') (hpages : pr'.pages = pr.pages.set page e)
    (hpage : pageFloor page = page) :
    p'.residency = Function.update p.residency ⟨pid, page⟩ (some e.residency) := by
  have hdeclared := declared_of_pages_set h hp' hpages
  rw [hpage] at hdeclared
  exact residency_update hdeclared

/-- The pager has its sizes from `config` and the device, its pages lie on page boundaries, its
slots are owned by the pages in them, and its frames by the pages that `r` puts there. -/
structure OwnedBy (config : Config) (slots : Nat) (p : Pager)
    (r : FrameOwner → Option Residency) : Prop where
  config_eq : p.config = config
  /-- A declared page lies on a page boundary. -/
  aligned : ∀ o, (p.declared o).isSome → pageOffset o.page = 0
  frames : FramesOwned p.frames r
  swap : SlotsOwned p.swap p.residency
  size_frames : p.frames.size = config.userFrames
  size_slots : p.swap.slots = slots

/-- The frames and the slots in use are those of the pages. -/
def Owned (config : Config) (slots : Nat) (p : Pager) : Prop :=
  OwnedBy config slots p p.residency

/-- An entry on a page boundary leaves the pages on page boundaries. -/
theorem aligned_update {x : Option PageEntry}
    (h : ∀ o, (p.declared o).isSome → pageOffset o.page = 0)
    (hdeclared : p'.declared = Function.update p.declared o x)
    (hx : x.isSome → pageOffset o.page = 0) (o' : FrameOwner) (ho' : (p'.declared o').isSome) :
    pageOffset o'.page = 0 := by
  rw [hdeclared] at ho'
  by_cases hne : o' = o
  · rw [hne, Function.update_self] at ho'
    rw [hne]
    exact hx ho'
  · rw [Function.update_of_ne hne] at ho'
    exact h o' ho'

/-- A missing page is in no frame. -/
theorem Missing.residency_ne (h : p.Missing o) (g : Nat) : p.residency o ≠ some (.resident g) := by
  obtain ⟨-, e, he, hframe⟩ := h
  rw [residency_of_declared he, Ne, Option.some.injEq]
  intro hres
  simp [PageEntry.frame?, hres] at hframe

theorem pages_of_tryAllocate_none {frames full : FramePool}
    (h : frames.tryAllocate o = .ok (none, full)) : full = frames := by
  rcases FramePool.tryAllocate_eq_ok h with ⟨-, rfl⟩ | ⟨_, _, hsome, -⟩
  · rfl
  · simp at hsome

/-- The owner of a victim is the declared page that is resident in it. -/
theorem Owned.declared_of_victim {withdrawn : FramePool} {pr : Process}
    (hp : Owned config slots p) (hvictim : p.frames.selectVictim = (some f, withdrawn))
    (howner : withdrawn.owner f = .ok (some v)) (hpr : p.processes[v.pid]? = some pr)
    (he : pr.pages.lookup v.page = some e) :
    p.declared v = some e ∧ e.residency = .resident f ∧ pageFloor v.page = v.page := by
  have howner' : p.frames.ownerOf f = some v := by
    rw [← (hp.frames.consistent.selectVictim hvictim).2.2]
    exact FramePool.owner_eq_ok howner
  have hv := (hp.frames.owners f v).1 howner'
  rw [residency, Option.map_eq_some_iff] at hv
  obtain ⟨e', he', hres⟩ := hv
  have hfloor := pageFloor_of_pageOffset (hp.aligned v (by rw [he']; rfl))
  rw [PageMap.lookup, hfloor, ← declared_of_getElem? hpr, he'] at he
  cases he
  exact ⟨he', hres, hfloor⟩

/-- Getting a frame for a page moves at most one page, another one, to a slot that was free. -/
theorem Acquires.declared_eq (h : p.Acquires o f p₁) (hp : Owned config slots p)
    (hold : ∀ g, p.residency o ≠ some (.resident g)) :
    p₁.declared = p.declared ∨ ∃ v e slot, v ≠ o ∧ p.declared v = some e ∧
      e.residency = .resident f ∧
      p₁.declared = Function.update p.declared v (some { e with residency := .swapped slot }) := by
  cases h with
  | free found => exact .inl rfl
  | @evicting full withdrawn frames v pr e space slot taken swap contents none_free victim owner
      process entry resident unmapped slot_free held stored reassigned =>
    obtain rfl := pages_of_tryAllocate_none none_free
    obtain ⟨hdeclared, hres, hfloor⟩ := hp.declared_of_victim victim owner process entry
    refine .inr ⟨v, e, slot, ?_, hdeclared, hres, ?_⟩
    · rintro rfl
      exact hold f (by rw [residency_of_declared hdeclared, hres])
    · rw [declared_of_pages_set process rfl rfl, hfloor]

/-- While a page is loaded, its frame is its own although it is not in it yet. -/
theorem Acquires.ownedBy (h : p.Acquires o f p₁) (hp : Owned config slots p)
    (hold : ∀ g, p.residency o ≠ some (.resident g)) :
    OwnedBy config slots p₁ (Function.update p₁.residency o (some (.resident f))) := by
  have haligned : ∀ o', (p₁.declared o').isSome → pageOffset o'.page = 0 := by
    rcases h.declared_eq hp hold with heq | ⟨v, e, slot, -, hv, -, heq⟩
    · rw [heq]
      exact hp.aligned
    · exact aligned_update hp.aligned heq fun _ => hp.aligned v (by rw [hv]; rfl)
  cases h with
  | @free frames found =>
    obtain ⟨hframes, hsize⟩ := hp.frames.tryAllocate hold found
    exact ⟨hp.config_eq, haligned, hframes, hp.swap, hsize.trans hp.size_frames, hp.size_slots⟩
  | @evicting full withdrawn frames v pr e space slot taken swap contents none_free victim owner
      process entry resident unmapped slot_free held stored reassigned =>
    obtain rfl := pages_of_tryAllocate_none none_free
    obtain ⟨hdeclared, hres, hfloor⟩ := hp.declared_of_victim victim owner process entry
    have hv : p.residency v = some (.resident f) := by rw [residency_of_declared hdeclared, hres]
    obtain ⟨hframes, hsize⟩ := hp.frames.evict (x := some (.swapped slot)) victim hv (by simp) hold
      reassigned
    obtain ⟨hswap, hslots⟩ := hp.swap.allocate (o := v) (by simp [hv]) slot_free
    obtain ⟨device, -, rfl⟩ := Swap.store_eq_ok stored
    refine ⟨hp.config_eq, haligned, ?_, ?_, hsize.trans hp.size_frames,
      hslots.trans hp.size_slots⟩
    · rw [residency_of_pages_set process rfl rfl hfloor]
      exact hframes
    · rw [residency_of_pages_set process rfl rfl hfloor]
      exact hswap.device device

theorem Acquires.missing (h : p.Acquires o f p₁) (hp : Owned config slots p)
    (hmissing : p.Missing o) : p₁.Missing o := by
  rcases h.declared_eq hp hmissing.residency_ne with heq | ⟨v, e, slot, hne, -, -, heq⟩
  · rwa [Missing, heq]
  · rwa [Missing, heq, Function.update_of_ne (Ne.symm hne)]

/-- What a load reads leaves the slots as they are. -/
theorem Fetches.slotsOwned {old : Page} {result : Except FileError Page} {swap : Swap}
    (h : p.Fetches e old result swap) (hs : SlotsOwned p.swap r) :
    SlotsOwned swap r ∧ swap.slots = p.swap.slots := by
  cases h with
  | swapped residency fetched =>
    obtain ⟨_, device, -, -, rfl⟩ := Swap.fetch_eq_ok fetched
    exact ⟨hs.device device, rfl⟩
  | populated => exact ⟨hs, rfl⟩

/-- A load that fails gives the frame back. -/
theorem OwnedBy.release {frames : FramePool}
    (h : OwnedBy config slots p (Function.update p.residency o (some (.resident f))))
    (hmissing : p.Missing o) (hrelease : p.frames.release f = .ok frames)
    (hdeclared : p'.declared = p.declared) (hconfig : p'.config = p.config)
    (hframes : p'.frames = frames)
    (hswap : SlotsOwned p'.swap p.residency ∧ p'.swap.slots = p.swap.slots) :
    Owned config slots p' := by
  have hres := residency_congr hdeclared
  obtain ⟨hreleased, hsize⟩ := h.frames.release (o := o) (x := p.residency o)
    (Function.update_self _ _ _) hmissing.residency_ne hrelease
  rw [Function.update_idem, Function.update_eq_self] at hreleased
  refine ⟨hconfig.trans h.config_eq, fun o' => hdeclared ▸ h.aligned o', ?_, ?_, ?_,
    hswap.2.trans h.size_slots⟩
  · rw [hres, hframes]
    exact hreleased
  · rw [hres]
    exact hswap.1
  · rw [hframes]
    exact hsize.trans h.size_frames

/-- A load keeps the accounts, whether it ends well or not. -/
theorem Loads.owned {result : Except FaultError Nat} (h : p.Loads pid page result p')
    (hp : Owned config slots p) (hmissing : p.Missing ⟨pid, page⟩) : Owned config slots p' := by
  have hfloor : pageFloor page = page := pageFloor_of_pageOffset hmissing.1
  cases h with
  | unreadable acquired process entry held fetched released =>
    exact (acquired.ownedBy hp hmissing.residency_ne).release (acquired.missing hp hmissing)
      released rfl rfl rfl (fetched.slotsOwned (acquired.ownedBy hp hmissing.residency_ne).swap)
  | refused acquired process entry held fetched written address refused released =>
    exact (acquired.ownedBy hp hmissing.residency_ne).release (acquired.missing hp hmissing)
      released (declared_of_pages_eq process rfl rfl) rfl rfl
      (fetched.slotsOwned (acquired.ownedBy hp hmissing.residency_ne).swap)
  | @loaded f phys p₁ pr e old contents swap freed memory space acquired process entry held fetched
      written address mapped slot_freed =>
    have hlent := acquired.ownedBy hp hmissing.residency_ne
    have hentry : p₁.declared ⟨pid, page⟩ = some e := by
      rwa [PageMap.lookup, hfloor, ← declared_of_getElem? process] at entry
    have hold := residency_of_declared hentry
    obtain ⟨hswap, hslots⟩ := fetched.slotsOwned hlent.swap
    have hfreed : SlotsOwned freed
        (Function.update p₁.residency ⟨pid, page⟩ (some (.resident f))) ∧
          freed.slots = swap.slots := by
      rw [freesSlot, PageEntry.slot?] at slot_freed
      cases hres : e.residency with
      | swapped slot =>
        rw [hres] at slot_freed
        exact hswap.release (hold.trans (by rw [hres])) (by simp) slot_freed
      | notPopulated =>
        rw [hres] at slot_freed
        subst slot_freed
        exact ⟨hswap.update (by simp [hold, hres]) (by simp), rfl⟩
      | resident g =>
        exact ((acquired.missing hp hmissing).residency_ne g (hold.trans (by rw [hres]))).elim
    refine ⟨hlent.config_eq, aligned_update hlent.aligned
      (declared_of_pages_set process rfl rfl) fun _ => pageOffset_pageFloor page, ?_, ?_,
      hlent.size_frames, (hfreed.2.trans hslots).trans hlent.size_slots⟩
    · rw [residency_of_pages_set process rfl rfl hfloor]
      exact hlent.frames
    · rw [residency_of_pages_set process rfl rfl hfloor]
      exact hfreed.1

/-- A page that is detached gives back its frame or its slot. -/
theorem Releases.owned {space space' : AddressSpace} {q : Pager}
    (h : p.Releases page e space space' p') (hp : Owned config slots p)
    (he : p.declared ⟨pid, page⟩ = some e) (hconfig : q.config = p.config)
    (hq : q.frames = p'.frames ∧ q.swap = p'.swap)
    (hdeclared : q.declared = Function.update p.declared ⟨pid, page⟩ none) :
    Owned config slots q := by
  have hr := residency_of_declared he
  have hres : q.residency = Function.update p.residency ⟨pid, page⟩ none :=
    residency_update hdeclared
  have haligned := aligned_update hp.aligned hdeclared (by simp)
  have hparts : (FramesOwned p'.frames (Function.update p.residency ⟨pid, page⟩ none) ∧
      p'.frames.size = p.frames.size) ∧
      SlotsOwned p'.swap (Function.update p.residency ⟨pid, page⟩ none) ∧
      p'.swap.slots = p.swap.slots := by
    cases h with
    | resident residency unmapped released =>
      rw [residency] at hr
      exact ⟨hp.frames.release hr (by simp) released,
        hp.swap.update (by simp [hr]) (by simp), rfl⟩
    | swapped residency released =>
      rw [residency] at hr
      exact ⟨⟨hp.frames.update (by simp [hr]) (by simp), rfl⟩,
        hp.swap.release hr (by simp) released⟩
    | notPopulated residency =>
      rw [residency] at hr
      exact ⟨⟨hp.frames.update (by simp [hr]) (by simp), rfl⟩,
        hp.swap.update (by simp [hr]) (by simp), rfl⟩
  refine ⟨hconfig.trans hp.config_eq, haligned, ?_, ?_, ?_, ?_⟩
  · rw [hres, hq.1]
    exact hparts.1.1
  · rw [hres, hq.2]
    exact hparts.2.1
  · rw [hq.1, hparts.1.2]
    exact hp.size_frames
  · rw [hq.2, hparts.2.2]
    exact hp.size_slots

/-- What moves no page and touches no frame and no slot keeps the accounts. -/
theorem Owned.congr (hp : Owned config slots p) (hdeclared : p'.declared = p.declared)
    (hconfig : p'.config = p.config) (hframes : p'.frames = p.frames) (hswap : p'.swap = p.swap) :
    Owned config slots p' := by
  refine ⟨hconfig.trans hp.config_eq, fun o => hdeclared ▸ hp.aligned o, ?_, ?_, ?_, ?_⟩
  · rw [residency_congr hdeclared, hframes]
    exact hp.frames
  · rw [residency_congr hdeclared, hswap]
    exact hp.swap
  · rw [hframes]
    exact hp.size_frames
  · rw [hswap]
    exact hp.size_slots

/-- Every step keeps the accounts. -/
theorem Step.owned {change : Change} (h : Step change p p') (hp : Owned config slots p) :
    Owned config slots p' := by
  cases h with
  | @declare _ pid page pr source writable process allowed user undeclared =>
    have hpage := PageMap.pageOffset_of_checkDeclaration allowed
    have hfloor := pageFloor_of_pageOffset hpage
    have hnone : p.declared ⟨pid, page⟩ = none := by rwa [declared_of_getElem? process]
    have hold : p.residency ⟨pid, page⟩ = none := by rw [residency, hnone, Option.map_none]
    refine ⟨hp.config_eq, aligned_update hp.aligned (declared_of_pages_set process rfl rfl)
      fun _ => pageOffset_pageFloor page, ?_, ?_, hp.size_frames, hp.size_slots⟩
    · rw [residency_of_pages_set process rfl rfl hfloor]
      exact hp.frames.update (by simp [hold]) (by simp [PageEntry.fresh])
    · rw [residency_of_pages_set process rfl rfl hfloor]
      exact hp.swap.update (by simp [hold]) (by simp [PageEntry.fresh])
  | load missing loads => exact loads.owned hp missing
  | pin pinned =>
    obtain ⟨hframes, hsize⟩ := hp.frames.pin pinned
    exact ⟨hp.config_eq, hp.aligned, hframes, hp.swap, hsize.trans hp.size_frames, hp.size_slots⟩
  | unpin unpinned =>
    obtain ⟨hframes, hsize⟩ := hp.frames.unpin unpinned
    exact ⟨hp.config_eq, hp.aligned, hframes, hp.swap, hsize.trans hp.size_frames, hp.size_slots⟩
  | register unregistered =>
    exact hp.congr (declared_withProcess_bare (fun o => declared_eq_none unregistered)
      (by simp [Process.fresh, PageMap.empty])) rfl rfl rfl
  | medium failing => exact hp.congr rfl rfl rfl rfl
  | write written => exact hp.congr rfl rfl rfl rfl
  | @remove _ p₁ pid page pr e space process entry releases =>
    have hprocesses := (PagerM.releases_withProcess releases).1
    refine releases.owned hp (by rwa [declared_of_getElem? process]) ?_ ⟨rfl, rfl⟩ ?_
    · cases releases <;> rfl
    · rw [declared_of_pages_erase (p := p₁) (hprocesses ▸ process) rfl rfl,
        declared_of_processes_eq hprocesses]
  | discard process bare => exact hp.congr (declared_erase_bare process bare) rfl rfl rfl
  | mappings mappings nextSerial process =>
    exact hp.congr (declared_of_pages_eq process rfl rfl) rfl rfl rfl
  | plan refuses process => exact hp.congr (declared_of_pages_eq process rfl rfl) rfl rfl rfl

theorem Steps.owned {kinds : Change → Prop} (h : Steps kinds p p') (hp : Owned config slots p) :
    Owned config slots p' := h.keeps (fun _ => Step.owned) hp

/-- What every step keeps, as long as frames and slots belong to the pages in them, a sequence of
steps keeps. -/
theorem Steps.keeps_owned {kinds : Change → Prop} {P : Pager → Prop} (h : Steps kinds p p')
    (hp : Owned config slots p)
    (hP : ∀ {change q q'}, kinds change → Step change q q' → Owned config slots q → P q → P q')
    (hstart : P p) : P p' := by
  have hboth : Owned config slots p' ∧ P p' :=
    h.keeps (P := fun q => Owned config slots q ∧ P q)
      (fun hk hstep hq => ⟨hstep.owned hq.1, hP hk hstep hq.1 hq.2⟩) ⟨hp, hstart⟩
  exact hboth.2

/-- At boot no page is declared, no frame and no slot is in use. -/
theorem owned_ofConfig (config : Config) (device : Block) :
    Owned config (ofConfig config device).swap.slots (ofConfig config device) := by
  have hnone : ∀ o, (ofConfig config device).declared o = none := fun o => by
    simp [declared, ofConfig]
  have hres : ∀ o, (ofConfig config device).residency o = none := fun o => by
    rw [residency, hnone, Option.map_none]
  refine ⟨rfl, fun o ho => ?_, ⟨.ofSize config.userFrames, fun f o => ?_⟩,
    ⟨.ofBlock device config.swapSlots, fun slot => ?_, fun slot o o' h => ?_⟩, ?_, rfl⟩
  · rw [hnone] at ho
    simp at ho
  · rw [hres]
    simp only [ofConfig, FramePool.ownerOf, FramePool.ofSize, Array.getElem?_replicate]
    split <;> simp
  · simp only [hres, reduceCtorEq, exists_false, iff_false]
    simp [ofConfig, Swap.ofBlock, Swap.isInUse]
  · rw [hres] at h
    simp at h
  · simp [ofConfig, FramePool.size, FramePool.ofSize]

end Pager

end DemandPaging
