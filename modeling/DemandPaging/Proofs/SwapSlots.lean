import DemandPaging.Swap.Basic
import DemandPaging.Proofs.Ensures
import Mathlib.Logic.Function.Basic
import Mathlib.Tactic.ByContra

/-!
# The slot table of the swap area

The area keeps a table of the slots that are taken and counts the others. `Swap.Consistent` says
that the count is right. The table only reaches as far as the last slot that was ever taken, so
the taken slots are listed by `Swap.usedSlots` and the count is that of the slots not listed.

## Main definitions

* `Swap.usedSlots` — the slots in use, in ascending order.
* `Swap.Consistent` — the slots in use exist, and the others are counted right.

## Main results

* `Swap.Consistent.allocate`, `Swap.Consistent.release` — what the table says afterwards.
* `Swap.store_eq_ok`, `Swap.fetch_eq_ok` — transfers change the device only.
-/

namespace DemandPaging

namespace Swap

variable {s s' : Swap} {slot : Nat}

/-- The slots in use. -/
def usedSlots (s : Swap) : List Nat := (List.range s.taken.size).filter s.isInUse

/-- The slots in use exist, and the others are counted right. -/
structure Consistent (s : Swap) : Prop where
  size_taken : s.taken.size ≤ s.slots
  free_add : s.free + s.usedSlots.length = s.slots

theorem lt_size_of_isInUse (h : s.isInUse slot = true) : slot < s.taken.size := by
  by_contra hslot
  simp [isInUse, Array.getElem?_eq_none (Nat.le_of_not_lt hslot)] at h

theorem mem_usedSlots : slot ∈ s.usedSlots ↔ s.isInUse slot = true := by
  rw [usedSlots, List.mem_filter, List.mem_range]
  exact and_iff_right_of_imp lt_size_of_isInUse

theorem nodup_usedSlots (s : Swap) : s.usedSlots.Nodup := List.nodup_range.filter _

/-- The slot that is taken next is free and lies in the table or right behind it. -/
theorem of_firstFree? (hs : s.taken.size ≤ s.slots) (h : s.firstFree? = some slot) :
    s.isInUse slot = false ∧ slot ≤ s.taken.size ∧ slot < s.slots := by
  unfold firstFree? at h
  split at h
  · rename_i i hi
    cases h
    rw [Array.findIdx?_eq_some_iff_getElem] at hi
    obtain ⟨hlt, hfree, -⟩ := hi
    refine ⟨?_, by omega, by omega⟩
    simpa [isInUse, hlt] using hfree
  · split at h
    · cases h
      exact ⟨by simp [isInUse], Nat.le_refl _, ‹_›⟩
    · simp at h

theorem isInUse_take (h : slot ≤ s.taken.size) (i : Nat) :
    ({ s with taken := s.take slot } : Swap).isInUse i
      = if i = slot then true else s.isInUse i := by
  unfold isInUse take
  by_cases hlt : slot < s.taken.size
  · by_cases hi : i = slot
    · subst hi
      simp [hlt]
    · simp [hlt, hi, Ne.symm hi]
  · obtain rfl : slot = s.taken.size := by omega
    by_cases hi : i = s.taken.size
    · subst hi
      simp
    · simp [hi, Array.getElem?_push]

theorem isInUse_setIfInBounds (h : s.isInUse slot = true) (i : Nat) :
    ({ s with taken := s.taken.setIfInBounds slot false } : Swap).isInUse i
      = if i = slot then false else s.isInUse i := by
  have hlt := lt_size_of_isInUse h
  by_cases hi : i = slot
  · subst hi
    simp [isInUse, hlt]
  · simp [isInUse, hi, Ne.symm hi]

/-- Where one more slot is in use, it is listed besides the others. -/
theorem usedSlots_perm (hslot : s.isInUse slot = false)
    (h : ∀ i, s'.isInUse i = if i = slot then true else s.isInUse i) :
    s'.usedSlots.Perm (slot :: s.usedSlots) := by
  have hnodup : (slot :: s.usedSlots).Nodup := by
    refine List.nodup_cons.2 ⟨?_, nodup_usedSlots s⟩
    rw [mem_usedSlots, hslot]
    exact Bool.false_ne_true
  refine (List.perm_ext_iff_of_nodup (nodup_usedSlots s') hnodup).2 ?_
  intro i
  rw [mem_usedSlots, List.mem_cons, mem_usedSlots, h]
  by_cases hi : i = slot <;> simp [hi]

/-- Taking a slot takes one that was free. -/
theorem Consistent.allocate (hs : s.Consistent) (h : s.allocate = .ok (slot, s')) :
    s'.Consistent ∧ s'.slots = s.slots ∧ s'.device = s.device ∧ s.isInUse slot = false ∧
      slot < s.slots ∧ ∀ i, s'.isInUse i = if i = slot then true else s.isInUse i := by
  unfold Swap.allocate at h
  cases hf : s.firstFree? with
  | none => simp [hf] at h
  | some i =>
    simp only [hf, except_bind_eq_ok, except_pure_eq_ok, checkedSub_eq_ok, Prod.mk.injEq] at h
    obtain ⟨_, ⟨hfree, rfl⟩, rfl, rfl⟩ := h
    obtain ⟨hunused, hle, hlt⟩ := of_firstFree? hs.size_taken hf
    have huse := isInUse_take hle
    refine ⟨⟨?_, ?_⟩, rfl, rfl, hunused, hlt, huse⟩
    · have := hs.size_taken
      simp only [take]
      split
      · simpa using this
      · simp only [Array.size_push]
        omega
    · have hlength := (usedSlots_perm hunused huse).length_eq
      have := hs.free_add
      rw [List.length_cons] at hlength
      show s.free - 1 + ({ s with taken := s.take i } : Swap).usedSlots.length = s.slots
      omega

/-- A slot that is given back was in use. -/
theorem Consistent.release (hs : s.Consistent) (h : s.release slot = .ok s') :
    s'.Consistent ∧ s'.slots = s.slots ∧ s'.device = s.device ∧ s.isInUse slot = true ∧
      ∀ i, s'.isInUse i = if i = slot then false else s.isInUse i := by
  unfold Swap.release at h
  simp only [except_ite_eq_ok, reduceCtorEq, and_false, or_false, Except.ok.injEq] at h
  obtain ⟨hused, rfl⟩ := h
  have huse := isInUse_setIfInBounds hused
  refine ⟨⟨by simpa using hs.size_taken, ?_⟩, rfl, rfl, hused, huse⟩
  -- before, the slot was in use besides those that are in use afterwards
  have hfreed := huse slot
  rw [if_pos rfl] at hfreed
  have hbefore : ∀ i, s.isInUse i = if i = slot then true else
      ({ s with taken := s.taken.setIfInBounds slot false } : Swap).isInUse i := by
    intro i
    rw [huse]
    by_cases hi : i = slot
    · rw [if_pos hi, hi, hused]
    · rw [if_neg hi, if_neg hi]
  have hlength := (usedSlots_perm hfreed hbefore).length_eq
  have := hs.free_add
  rw [hlength, List.length_cons] at this
  show s.free + 1 + ({ s with taken := s.taken.setIfInBounds slot false } : Swap).usedSlots.length
    = s.slots
  omega

theorem device_of_release (h : s.release slot = .ok s') : s'.device = s.device := by
  rw [Swap.release] at h
  split at h
  · cases h
    rfl
  · simp at h

theorem store_eq_ok {page : Page} (h : s.store slot page = .ok s') :
    ∃ device, storeSectors s.device slot page 0 sectorsPerPage = .ok device ∧
      s' = { s with device } := by
  simp only [store, except_bind_eq_ok, except_pure_eq_ok] at h
  obtain ⟨device, hd, rfl⟩ := h
  exact ⟨device, hd, rfl⟩

theorem fetch_eq_ok {page : Page} (h : s.fetch slot = .ok (page, s')) :
    ∃ sectors device, fetchSectors s.device slot 0 sectorsPerPage = .ok (sectors, device) ∧
      page = Page.ofSectors sectors ∧ s' = { s with device } := by
  simp only [fetch, except_bind_eq_ok, except_pure_eq_ok, Prod.mk.injEq] at h
  obtain ⟨⟨sectors, device⟩, hd, rfl, rfl⟩ := h
  exact ⟨sectors, device, hd, rfl, rfl⟩

/-- An area that has just been made. -/
theorem Consistent.ofBlock (device : Block) (maxSlots : Nat) :
    (ofBlock device maxSlots).Consistent :=
  ⟨Nat.zero_le _, rfl⟩

end Swap

end DemandPaging
