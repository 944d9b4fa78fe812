import DemandPaging.Proofs.Pins
import Mathlib.Data.List.Perm.Subperm

/-!
# When a frame or a slot can be had

The operations of the frame pool and of the slot table check what they were given, and panic if
it is not as they expect. On books that are consistent these checks are passed, and what is left
is want: no frame is free, every frame is pinned, no slot is free.

## Main results

* `FramePool.Consistent.tryAllocate_cases`, `FramePool.Consistent.selectVictim_cases` — a frame is
  found unless all of them are in use, and a victim unless all of them are pinned.
* `Swap.Consistent.allocate_cases` — a slot is found unless all of them are in use.
* `FramePool.Consistent.exists_reassign`, `FramePool.Consistent.exists_release`,
  `FramePool.exists_pin`, `Swap.exists_release` — the other checks.
-/

namespace DemandPaging

namespace FramePool

variable {p : FramePool} {o : FrameOwner} {f : Nat} {withdrawn : List Nat}

theorem exists_entry (hf : p.isAllocated f = true) :
    ∃ e, p.entry f = .ok e ∧ e.allocated = true ∧ e.pins.toNat = p.pinsOf f := by
  have hlt : f < p.coreMap.size := lt_size_of_isAllocated hf
  have he : p.coreMap[f]? = some p.coreMap[f] := Array.getElem?_eq_getElem hlt
  exact ⟨p.coreMap[f], entry_eq_ok.2 he, (isAllocated_of_getElem? he).symm.trans hf,
    (pinsOf_of_getElem? he).symm⟩

/-- Every frame comes up in a search: the frames from the cursor on first, then those before it. -/
theorem mem_searchOrder (hf : f < p.size) : f ∈ p.searchOrder := by
  have hcursor : p.cursor % p.size < p.size := Nat.mod_lt _ (Nat.zero_lt_of_lt hf)
  have hshift : ∀ i, (p.cursor + i) % p.size = (p.cursor % p.size + i) % p.size :=
    fun i => (Nat.mod_add_mod p.cursor p.size i).symm
  rw [searchOrder, List.mem_map]
  rcases Nat.lt_or_ge f (p.cursor % p.size) with hlt | hge
  · refine ⟨p.size - p.cursor % p.size + f, List.mem_range.2 (by omega), ?_⟩
    rw [hshift, show p.cursor % p.size + (p.size - p.cursor % p.size + f) = f + p.size by omega,
      Nat.add_mod_right, Nat.mod_eq_of_lt hf]
  · refine ⟨f - p.cursor % p.size, List.mem_range.2 (by omega), ?_⟩
    rw [hshift, show p.cursor % p.size + (f - p.cursor % p.size) = f by omega,
      Nat.mod_eq_of_lt hf]

namespace Consistent

/-- The pool is full exactly when every frame is in use. -/
theorem allocated_eq_size_iff (hp : p.Consistent withdrawn) :
    p.allocated = p.size ↔ ∀ f < p.size, p.isAllocated f = true := by
  constructor
  · intro hfull f hf
    have hsub : p.order.queue ++ withdrawn ⊆ List.range p.size := by
      intro g hg
      exact List.mem_range.2 (lt_size_of_isAllocated ((hp.mem_iff g).1 hg))
    have hperm := (List.subperm_of_subset hp.nodup hsub).perm_of_length_le (Nat.le_of_eq (by
      rw [List.length_range, ← hp.allocated_eq, hfull]))
    exact (hp.mem_iff f).1 (hperm.mem_iff.2 (List.mem_range.2 hf))
  · intro hall
    have hsub : List.range p.size ⊆ p.order.queue ++ withdrawn := by
      intro g hg
      exact (hp.mem_iff g).2 (hall g (List.mem_range.1 hg))
    have hlength := List.nodup_range.length_le_of_subset hsub
    rw [List.length_range, ← hp.allocated_eq] at hlength
    exact Nat.le_antisymm hp.allocated_le_size hlength

/-- A frame is found unless the pool is full. -/
theorem tryAllocate_cases (hp : p.Consistent withdrawn) (o : FrameOwner) :
    (p.allocated < p.size ∧ ∃ f q, p.tryAllocate o = .ok (some f, q)) ∨
      (p.allocated = p.size ∧ p.tryAllocate o = .ok (none, p)) := by
  cases hn : p.nextFree? with
  | none =>
    refine .inr ⟨?_, by simp [FramePool.tryAllocate, hn]⟩
    by_contra hfull
    rw [nextFree?, if_neg hfull, List.find?_eq_none] at hn
    refine hfull (hp.allocated_eq_size_iff.2 fun f hf => ?_)
    simpa using hn f (mem_searchOrder hf)
  | some f =>
    rw [nextFree?] at hn
    split at hn
    · simp at hn
    rename_i hroom
    have hfree : p.isAllocated f = false := by simpa using List.find?_some hn
    have hlt : f < p.coreMap.size := by
      have hmem := List.mem_of_find?_eq_some hn
      simp only [searchOrder, List.mem_map, List.mem_range] at hmem
      obtain ⟨i, hi, rfl⟩ := hmem
      exact Nat.mod_lt _ (Nat.zero_lt_of_lt hi)
    refine .inl ⟨Nat.lt_of_le_of_ne hp.allocated_le_size hroom, f, ?_⟩
    have hentry : p.entry f = .ok p.coreMap[f] :=
      entry_eq_ok.2 (Array.getElem?_eq_getElem hlt)
    have hqueue : f ∉ p.order.queue := by
      intro hmem
      have := (hp.mem_iff f).1 (List.mem_append_left _ hmem)
      rw [hfree] at this
      simp at this
    have hn' : p.nextFree? = some f := by rw [nextFree?, if_neg hroom, hn]
    simp only [FramePool.tryAllocate, hn', hentry, except_ok_bind, Fifo.assign]
    rw [if_neg (by simpa [setEntry, setOwner] using hqueue)]
    exact ⟨_, rfl⟩

/-- The frame that is picked has no pins; if none is picked, every queued frame has one. -/
theorem selectVictim_cases (hp : p.Consistent []) (hfull : p.allocated = p.size) :
    (∃ f q, p.selectVictim = (some f, q) ∧ f < p.size ∧ p.pinsOf f = 0) ∨
      (p.selectVictim = (none, p) ∧ ∀ f < p.size, 0 < p.pinsOf f) := by
  cases hv : p.selectVictim with
  | mk victim q =>
    cases victim with
    | some f =>
      have hmem := ((hp.selectVictim hv).1.mem_iff f).1 (by simp)
      exact .inl ⟨f, q, rfl, (hp.selectVictim hv).2.1 ▸ lt_size_of_isAllocated hmem,
        (pinsOf_selectVictim hv).2⟩
    | none =>
      unfold FramePool.selectVictim Fifo.selectVictim at hv
      cases hfind : p.order.queue.find?
          fun frame => ! p.coreMap[frame]?.any CoreMapEntry.pinned with
      | some g => simp [hfind] at hv
      | none =>
        simp only [hfind, Prod.mk.injEq, true_and] at hv
        obtain rfl : p = q := hv
        refine .inr ⟨rfl, fun f hf => ?_⟩
        have hmem := (hp.mem_iff f).2 (hp.allocated_eq_size_iff.1 hfull f hf)
        rw [List.append_nil] at hmem
        have he : p.coreMap[f]? = some p.coreMap[f] := Array.getElem?_eq_getElem hf
        have hpinned := List.find?_eq_none.1 hfind f hmem
        rw [pinsOf_of_getElem? he]
        simpa [he, CoreMapEntry.pinned, Nat.pos_iff_ne_zero] using hpinned

/-- A withdrawn frame without pins can be handed on. -/
theorem exists_reassign (hp : p.Consistent (f :: withdrawn)) (hpins : p.pinsOf f = 0)
    (o : FrameOwner) : ∃ q, p.reassign f o = .ok q := by
  have hmem : p.isAllocated f = true := (hp.mem_iff f).1 (by simp)
  obtain ⟨e, he, halloc, hcount⟩ := exists_entry hmem
  have hqueue : f ∉ p.order.queue := fun hin =>
    List.nodup_append.1 hp.nodup |>.2.2 f hin f (by simp) rfl
  simp only [FramePool.reassign, he, except_ok_bind, halloc, CoreMapEntry.pinned, hcount, hpins,
    Fifo.assign, ne_eq, not_true_eq_false, decide_false, Bool.false_eq_true, if_false, if_true]
  rw [if_neg (by simpa using hqueue)]
  exact ⟨_, rfl⟩

/-- A frame in use can be given back. -/
theorem exists_release (hp : p.Consistent withdrawn) (hf : p.isAllocated f = true) :
    ∃ q, p.release f = .ok q := by
  obtain ⟨e, he, halloc, -⟩ := exists_entry hf
  have hpos : 1 ≤ p.allocated := by
    rw [hp.allocated_eq]
    exact List.length_pos_of_mem ((hp.mem_iff f).2 hf)
  simp only [FramePool.release, he, except_ok_bind, halloc, checkedSub_of_le hpos, if_true]
  exact ⟨_, rfl⟩

end Consistent

/-- A frame in use can be pinned until its count of pins is full. -/
theorem exists_pin (hf : p.isAllocated f = true) (hpins : p.pinsOf f < CoreMapEntry.maxPins) :
    ∃ q, p.pin f = .ok q := by
  obtain ⟨e, he, halloc, hcount⟩ := exists_entry hf
  simp only [FramePool.pin, he, except_ok_bind, halloc, hcount, hpins, if_true]
  exact ⟨_, rfl⟩

end FramePool

namespace Swap

variable {s : Swap} {slot : Nat}

/-- A slot is found unless all of them are in use. -/
theorem Consistent.allocate_cases (hs : s.Consistent) :
    (0 < s.free ∧ ∃ r, s.allocate = .ok r) ∨
      (s.free = 0 ∧ s.allocate = .error (.outOfSwap s.slots)) := by
  have hlength := hs.free_add
  cases hf : s.firstFree? with
  | some slot =>
    obtain ⟨hunused, -, hlt⟩ := of_firstFree? hs.size_taken hf
    have hnodup : (slot :: s.usedSlots).Nodup := by
      refine List.nodup_cons.2 ⟨?_, nodup_usedSlots s⟩
      rw [mem_usedSlots, hunused]
      exact Bool.false_ne_true
    have hsub : slot :: s.usedSlots ⊆ List.range s.slots := by
      intro i hi
      rw [List.mem_range]
      rcases List.mem_cons.1 hi with rfl | hi
      · exact hlt
      · exact Nat.lt_of_lt_of_le (lt_size_of_isInUse (mem_usedSlots.1 hi)) hs.size_taken
    have hle := hnodup.length_le_of_subset hsub
    rw [List.length_range, List.length_cons] at hle
    have hpos : 1 ≤ s.free := by omega
    refine .inl ⟨hpos, ?_⟩
    simp only [Swap.allocate, hf, checkedSub_of_le hpos, except_ok_bind]
    exact ⟨_, rfl⟩
  | none =>
    rw [firstFree?] at hf
    split at hf
    · simp at hf
    rename_i hall
    split at hf
    · simp at hf
    rename_i hroom
    have hused : s.usedSlots = List.range s.taken.size := by
      refine List.filter_eq_self.2 fun i hi => ?_
      have hi' := List.mem_range.1 hi
      have := Array.findIdx?_eq_none_iff.1 hall s.taken[i] (Array.getElem_mem hi')
      simpa [isInUse, hi'] using this
    rw [hused, List.length_range] at hlength
    refine .inr ⟨by omega, ?_⟩
    have hnone : s.firstFree? = none := by rw [firstFree?, hall, if_neg hroom]
    rw [Swap.allocate, hnone]

/-- A slot in use can be given back. -/
theorem exists_release (hslot : s.isInUse slot = true) : ∃ s', s.release slot = .ok s' := by
  rw [release, if_pos hslot]
  exact ⟨_, rfl⟩

end Swap

end DemandPaging
