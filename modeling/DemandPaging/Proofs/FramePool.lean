import DemandPaging.Frame.Pool
import DemandPaging.Proofs.Ensures
import Mathlib.Logic.Function.Basic
import Mathlib.Tactic.ByContra

/-!
# The bookkeeping of the frame pool

The pool says in three places whether a frame is in use: in the core map, in the table of owners
and in the replacement order, and it counts the frames in use besides. `FramePool.Consistent` says
that the four agree.

A frame that was picked as a victim has left the replacement order and is not yet back in it. Such
frames are a parameter of the invariant, the list `withdrawn`, so that every operation has a law
of its own and eviction is two of them in a row. Between two operations of the pager the list is
empty.

## Main definitions

* `FramePool.ownerOf` — the owner of a frame, and none for a frame the pool does not have.
* `FramePool.Consistent` — core map, owners, replacement order and count agree.

## Main results

* `FramePool.Consistent.tryAllocate`, `selectVictim`, `reassign`, `release` — what each operation
  does to the invariant and to the owners.
* `FramePool.Consistent.pin`, `unpin` — pins change neither.
-/

namespace DemandPaging

namespace FramePool

variable {p q : FramePool} {o : FrameOwner} {f g : Nat} {withdrawn : List Nat}

/-- The owner of a frame. -/
def ownerOf (p : FramePool) (f : Nat) : Option FrameOwner := p.owners[f]?.join

/-- Core map, owners, replacement order and count agree on which frames are in use. The frames in
`withdrawn` are in use and out of the replacement order. -/
structure Consistent (p : FramePool) (withdrawn : List Nat) : Prop where
  /-- Every frame has a place in the table of owners. -/
  size_owners : p.owners.size = p.coreMap.size
  /-- No frame is queued twice, and none of the withdrawn ones is queued. -/
  nodup : (p.order.queue ++ withdrawn).Nodup
  /-- The queued and the withdrawn frames are the allocated ones. -/
  mem_iff : ∀ f, f ∈ p.order.queue ++ withdrawn ↔ p.isAllocated f = true
  /-- The allocated frames are counted right. -/
  allocated_eq : p.allocated = (p.order.queue ++ withdrawn).length
  /-- The allocated frames are those with an owner. -/
  isSome_ownerOf : ∀ f, (p.ownerOf f).isSome = p.isAllocated f

/-! ### Looking a frame up -/

theorem owner_eq_ok {v : Option FrameOwner} (h : p.owner f = .ok v) : p.ownerOf f = v := by
  unfold owner at h
  unfold ownerOf
  cases hf : p.owners[f]? with
  | none => simp [hf] at h
  | some w =>
    rw [hf] at h
    cases h
    rfl

theorem owner_of_ownerOf (h : p.ownerOf f = some o) : p.owner f = .ok (some o) := by
  rw [ownerOf, Option.join_eq_some_iff] at h
  rw [owner, h]

theorem entry_eq_ok {e : CoreMapEntry} : p.entry f = .ok e ↔ p.coreMap[f]? = some e := by
  unfold entry
  cases p.coreMap[f]? with
  | none => simp
  | some e' => simp

theorem isAllocated_of_getElem? {e : CoreMapEntry} (h : p.coreMap[f]? = some e) :
    p.isAllocated f = e.allocated := by
  simp [isAllocated, h]

theorem lt_size_of_isAllocated (h : p.isAllocated f = true) : f < p.size := by
  by_contra hf
  rw [size] at hf
  simp [isAllocated, Array.getElem?_eq_none (Nat.le_of_not_lt hf)] at h

namespace Consistent

/-- The order in which the withdrawn frames are listed does not matter. -/
theorem perm {others : List Nat} (hp : p.Consistent withdrawn) (h : withdrawn.Perm others) :
    p.Consistent others where
  size_owners := hp.size_owners
  nodup := (h.append_left _).nodup_iff.1 hp.nodup
  mem_iff f := (h.append_left _).mem_iff.symm.trans (hp.mem_iff f)
  allocated_eq := hp.allocated_eq.trans (h.append_left _).length_eq
  isSome_ownerOf := hp.isSome_ownerOf

theorem isAllocated_of_ownerOf (hp : p.Consistent withdrawn) (h : p.ownerOf f = some o) :
    p.isAllocated f = true := by
  rw [← hp.isSome_ownerOf, h]
  rfl

theorem lt_size_of_ownerOf (hp : p.Consistent withdrawn) (h : p.ownerOf f = some o) :
    f < p.size :=
  lt_size_of_isAllocated (hp.isAllocated_of_ownerOf h)

theorem ownerOf_eq_none (hp : p.Consistent withdrawn) (h : p.isAllocated f = false) :
    p.ownerOf f = none := by
  rw [← Option.not_isSome_iff_eq_none, hp.isSome_ownerOf, h]
  exact Bool.false_ne_true

end Consistent

theorem isAllocated_setEntry {e : CoreMapEntry} (hf : f < p.size) :
    (p.setEntry f e).isAllocated g = if g = f then e.allocated else p.isAllocated g := by
  rw [size] at hf
  by_cases h : g = f
  · subst h
    simp [isAllocated, setEntry, hf]
  · simp [isAllocated, setEntry, h, Ne.symm h]

theorem ownerOf_setOwner {v : Option FrameOwner} (hf : f < p.owners.size) :
    (p.setOwner f v).ownerOf = Function.update p.ownerOf f v := by
  funext g
  by_cases h : g = f
  · subst h
    simp [ownerOf, setOwner, hf]
  · simp [ownerOf, setOwner, Function.update_of_ne h, Ne.symm h]

/-- Where the owner of a frame changes together with its use, the allocated frames are still those
with an owner. -/
theorem isSome_ownerOf_of_update {v : Option FrameOwner}
    (hp : ∀ g, (p.ownerOf g).isSome = p.isAllocated g)
    (howner : q.ownerOf = Function.update p.ownerOf f v)
    (hall : ∀ g, q.isAllocated g = if g = f then v.isSome else p.isAllocated g) (g : Nat) :
    (q.ownerOf g).isSome = q.isAllocated g := by
  rw [howner, hall]
  by_cases hg : g = f
  · rw [hg, Function.update_self, if_pos rfl]
  · rw [Function.update_of_ne hg, if_neg hg, hp]

/-! ### The operations -/

/-- Taking a frame either finds none and changes nothing, or takes one that was free. -/
theorem tryAllocate_eq_ok {found : Option Nat} (h : p.tryAllocate o = .ok (found, q)) :
    (found = none ∧ q = p) ∨ ∃ f e, found = some f ∧ p.coreMap[f]? = some e ∧
      p.isAllocated f = false ∧
      q = { (p.setEntry f (e.withAllocated true)).setOwner f (some o) with
        order := ⟨p.order.queue ++ [f]⟩, allocated := p.allocated + 1,
        cursor := (f + 1) % p.size } := by
  unfold tryAllocate at h
  cases hn : p.nextFree? with
  | none =>
    rw [hn] at h
    cases h
    exact .inl ⟨rfl, rfl⟩
  | some f =>
    have hfree : p.isAllocated f = false := by
      unfold nextFree? at hn
      split at hn
      · simp at hn
      · simpa using List.find?_some hn
    simp only [hn, except_bind_eq_ok, entry_eq_ok] at h
    obtain ⟨e, he, order, horder, h⟩ := h
    unfold Fifo.assign at horder
    split at horder
    · simp at horder
    · cases horder
      cases h
      refine .inr ⟨f, e, rfl, he, hfree, ?_⟩
      simp [setEntry, setOwner, size]

theorem Consistent.tryAllocate (hp : p.Consistent withdrawn) {found : Option Nat}
    (h : p.tryAllocate o = .ok (found, q)) :
    q.Consistent withdrawn ∧ q.size = p.size ∧ match found with
      | none => q = p
      | some f => p.isAllocated f = false ∧ q.ownerOf = Function.update p.ownerOf f (some o) := by
  rcases tryAllocate_eq_ok h with ⟨rfl, rfl⟩ | ⟨f, e, rfl, he, hfree, rfl⟩
  · exact ⟨hp, rfl, rfl⟩
  have hlt : f < p.size := by
    rw [size]
    exact (Array.getElem?_eq_some_iff.1 he).1
  have howners : f < p.owners.size := by rw [hp.size_owners]; exact hlt
  have hnot : f ∉ p.order.queue ++ withdrawn := by
    rw [hp.mem_iff, hfree]
    exact Bool.false_ne_true
  have hperm : (p.order.queue ++ [f] ++ withdrawn).Perm (f :: (p.order.queue ++ withdrawn)) := by
    rw [List.append_assoc]
    exact List.perm_middle
  have hall : ∀ g, (p.setEntry f (e.withAllocated true)).isAllocated g
      = if g = f then true else p.isAllocated g := by
    intro g
    rw [isAllocated_setEntry hlt, CoreMapEntry.allocated_withAllocated]
  have howner : ((p.setEntry f (e.withAllocated true)).setOwner f (some o)).ownerOf
      = Function.update p.ownerOf f (some o) :=
    ownerOf_setOwner (p := p.setEntry f (e.withAllocated true)) howners
  refine ⟨⟨?_, ?_, fun g => ?_, ?_, isSome_ownerOf_of_update hp.isSome_ownerOf howner hall⟩,
    by simp [size, setEntry, setOwner], hfree, howner⟩
  · simpa [setEntry, setOwner] using hp.size_owners
  · exact hperm.nodup_iff.2 (List.nodup_cons.2 ⟨hnot, hp.nodup⟩)
  · rw [hperm.mem_iff, List.mem_cons, hp.mem_iff]
    refine Iff.trans ?_ (iff_of_eq (congrArg (· = true) (hall g))).symm
    by_cases hg : g = f <;> simp [hg]
  · rw [hperm.length_eq, List.length_cons, ← hp.allocated_eq]

/-- A victim leaves the replacement order and nothing else changes. -/
theorem Consistent.selectVictim (hp : p.Consistent withdrawn)
    (h : p.selectVictim = (some f, q)) :
    q.Consistent (f :: withdrawn) ∧ q.size = p.size ∧ q.ownerOf = p.ownerOf := by
  unfold FramePool.selectVictim Fifo.selectVictim at h
  cases hfind : p.order.queue.find? fun frame => ! p.coreMap[frame]?.any CoreMapEntry.pinned with
  | none => simp [hfind] at h
  | some g =>
    simp only [hfind, Prod.mk.injEq, Option.some.injEq] at h
    obtain ⟨rfl, rfl⟩ := h
    have hmem : g ∈ p.order.queue := List.mem_of_find?_eq_some hfind
    have hperm : (p.order.queue.erase g ++ g :: withdrawn).Perm (p.order.queue ++ withdrawn) :=
      List.perm_middle.trans ((List.perm_cons_erase hmem).symm.append_right withdrawn)
    refine ⟨⟨hp.size_owners, hperm.nodup_iff.2 hp.nodup, fun i => ?_, ?_, hp.isSome_ownerOf⟩,
      rfl, rfl⟩
    · exact hperm.mem_iff.trans (hp.mem_iff i)
    · exact hp.allocated_eq.trans hperm.length_eq.symm

/-- A withdrawn frame goes to the end of the replacement order. -/
theorem Consistent.requeue (hp : p.Consistent (f :: withdrawn)) :
    Consistent { p with order := ⟨p.order.queue ++ [f]⟩ } withdrawn := by
  have hperm : (p.order.queue ++ [f] ++ withdrawn).Perm (p.order.queue ++ f :: withdrawn) := by
    rw [List.append_assoc]
    exact .refl _
  exact ⟨hp.size_owners, hperm.nodup_iff.2 hp.nodup,
    fun g => hperm.mem_iff.trans (hp.mem_iff g), hp.allocated_eq.trans hperm.length_eq.symm,
    hp.isSome_ownerOf⟩

/-- A frame gets a new owner and goes to the end of the replacement order. -/
theorem Consistent.reassign (hp : p.Consistent (f :: withdrawn))
    (h : p.reassign f o = .ok q) :
    q.Consistent withdrawn ∧ q.size = p.size ∧
      q.ownerOf = Function.update p.ownerOf f (some o) := by
  have hmem : p.isAllocated f = true := (hp.mem_iff f).1 (by simp)
  have howners : f < p.owners.size := by
    rw [hp.size_owners]
    exact lt_size_of_isAllocated hmem
  obtain rfl : q = { p.setOwner f (some o) with order := ⟨p.order.queue ++ [f]⟩ } := by
    simp [FramePool.reassign, Fifo.assign] at h
    obtain ⟨e, -, -, -, -, ⟨-, rfl⟩, rfl⟩ := h
    rfl
  have howner := ownerOf_setOwner (v := some o) howners
  have hall : ∀ g, p.isAllocated g = if g = f then (some o).isSome else p.isAllocated g := by
    intro g
    split
    · rw [‹g = f›, hmem, Option.isSome_some]
    · rfl
  have hqueued := hp.requeue
  refine ⟨⟨?_, hqueued.nodup, hqueued.mem_iff, hqueued.allocated_eq,
    isSome_ownerOf_of_update hp.isSome_ownerOf howner hall⟩, rfl, howner⟩
  simpa [setOwner] using hp.size_owners

/-- A frame that is given back is free and has no owner. -/
theorem Consistent.release (hp : p.Consistent withdrawn) (hf : f ∉ withdrawn)
    (h : p.release f = .ok q) :
    q.Consistent withdrawn ∧ q.size = p.size ∧ p.isAllocated f = true ∧
      q.ownerOf = Function.update p.ownerOf f none := by
  simp only [FramePool.release, except_bind_eq_ok, entry_eq_ok, checkedSub_eq_ok, except_pure_eq_ok,
    except_ite_eq_ok, except_throw_ne_ok, false_and, exists_false, and_false, or_false] at h
  obtain ⟨e, he, halloc, _, ⟨-, rfl⟩, rfl⟩ := h
  have hmem : p.isAllocated f = true := (isAllocated_of_getElem? he).trans halloc
  have hlt : f < p.size := lt_size_of_isAllocated hmem
  have howner : ((p.setEntry f .free).setOwner f none).ownerOf
      = Function.update p.ownerOf f none :=
    ownerOf_setOwner (p := p.setEntry f .free) (hp.size_owners ▸ hlt)
  have hall : ∀ g, (p.setEntry f .free).isAllocated g
      = if g = f then false else p.isAllocated g := by
    intro g
    rw [isAllocated_setEntry hlt, CoreMapEntry.allocated_free]
  -- the queue loses `f` and nothing else
  have hmemq : ∀ g, g ∈ p.order.queue.filter (· ≠ f) ++ withdrawn ↔
      g ≠ f ∧ g ∈ p.order.queue ++ withdrawn := by
    intro g
    simp only [List.mem_append, List.mem_filter, decide_eq_true_eq]
    by_cases hg : g = f
    · subst hg
      simp [hf]
    · simp [hg]
  have hnodup : (p.order.queue.filter (· ≠ f) ++ withdrawn).Nodup :=
    hp.nodup.sublist (List.filter_sublist.append_right withdrawn)
  have hperm : (f :: (p.order.queue.filter (· ≠ f) ++ withdrawn)).Perm
      (p.order.queue ++ withdrawn) := by
    refine (List.perm_ext_iff_of_nodup (List.nodup_cons.2 ⟨?_, hnodup⟩) hp.nodup).2 fun g => ?_
    · rw [hmemq]
      exact fun h => h.1 rfl
    · rw [List.mem_cons, hmemq]
      by_cases hg : g = f
      · subst hg
        simp only [true_or, true_iff]
        exact (hp.mem_iff g).2 hmem
      · simp [hg]
  refine ⟨⟨?_, hnodup, fun g => ?_, ?_, isSome_ownerOf_of_update hp.isSome_ownerOf howner hall⟩,
    ?_, hmem, howner⟩
  · simpa [setEntry, setOwner] using hp.size_owners
  · refine (hmemq g).trans (Iff.trans ?_ (iff_of_eq (congrArg (· = true) (hall g))).symm)
    rw [hp.mem_iff]
    by_cases hg : g = f <;> simp [hg]
  · have := hperm.length_eq
    rw [List.length_cons, ← hp.allocated_eq] at this
    show p.allocated - 1 = _
    rw [← this]
    rfl
  · simp [size, setEntry, setOwner]

/-- Replacing the pins of a frame does not touch its use. -/
theorem Consistent.withPins (hp : p.Consistent withdrawn) {e : CoreMapEntry}
    (he : p.coreMap[f]? = some e) (count : BitVec 15) :
    (p.setEntry f (e.withPins count)).Consistent withdrawn := by
  have hlt : f < p.size := (Array.getElem?_eq_some_iff.1 he).1
  have hall : ∀ g, (p.setEntry f (e.withPins count)).isAllocated g = p.isAllocated g := by
    intro g
    rw [isAllocated_setEntry hlt, CoreMapEntry.allocated_withPins]
    split
    · rw [‹g = f›, isAllocated_of_getElem? he]
    · rfl
  exact ⟨by simpa [setEntry] using hp.size_owners, hp.nodup,
    fun g => (hp.mem_iff g).trans (by rw [hall g]), hp.allocated_eq,
    fun g => (hp.isSome_ownerOf g).trans (hall g).symm⟩

theorem Consistent.pin (hp : p.Consistent withdrawn) (h : p.pin f = .ok q) :
    q.Consistent withdrawn ∧ q.size = p.size ∧ q.ownerOf = p.ownerOf := by
  simp only [FramePool.pin, except_bind_eq_ok, entry_eq_ok, except_pure_eq_ok,
    except_ite_eq_ok, except_throw_ne_ok, false_and, exists_false, and_false, or_false] at h
  obtain ⟨e, he, -, -, rfl⟩ := h
  exact ⟨hp.withPins he _, by simp [size, setEntry], rfl⟩

theorem Consistent.unpin (hp : p.Consistent withdrawn) (h : p.unpin f = .ok q) :
    q.Consistent withdrawn ∧ q.size = p.size ∧ q.ownerOf = p.ownerOf := by
  simp only [FramePool.unpin, except_bind_eq_ok, entry_eq_ok, except_pure_eq_ok,
    except_ite_eq_ok, except_throw_ne_ok, false_and, exists_false, and_false, or_false] at h
  obtain ⟨e, he, -, rfl⟩ := h
  exact ⟨hp.withPins he _, by simp [size, setEntry], rfl⟩

/-- No more frames are in use than there are. -/
theorem Consistent.allocated_le_size (hp : p.Consistent withdrawn) : p.allocated ≤ p.size := by
  have hsub : p.order.queue ++ withdrawn ⊆ List.range p.size := by
    intro g hg
    exact List.mem_range.2 (lt_size_of_isAllocated ((hp.mem_iff g).1 hg))
  have hlength := hp.nodup.length_le_of_subset hsub
  rwa [List.length_range, ← hp.allocated_eq] at hlength

theorem isAllocated_ofSize (frames f : Nat) : (ofSize frames).isAllocated f = false := by
  simp only [isAllocated, ofSize, Array.getElem?_replicate]
  split <;> rfl

/-- A pool of free frames. -/
theorem Consistent.ofSize (frames : Nat) : (ofSize frames).Consistent [] where
  size_owners := by simp [FramePool.ofSize]
  nodup := List.nodup_nil
  mem_iff f := by
    rw [isAllocated_ofSize]
    simp [FramePool.ofSize, Fifo.empty]
  allocated_eq := rfl
  isSome_ownerOf f := by
    rw [isAllocated_ofSize]
    simp only [FramePool.ofSize, ownerOf, Array.getElem?_replicate]
    split <;> rfl

end FramePool

end DemandPaging
