import DemandPaging.Proofs.Outcomes
import DemandPaging.Proofs.PageTable
import Mathlib.Data.Fintype.Card
import Mathlib.Data.Fintype.Prod

/-!
# What a page table counts

A page table counts the pages it maps, and it makes at most one table for each of its 1024
directory entries. Either fact rules a panic out: a page that is unmapped was counted, and there is
always a number left for one more table. With them, mapping and unmapping fail only on an address
that the tables do not reach, or on a physical address that is no page.

## Main definitions

* `numberOf` — how often a predicate holds.
* `PageTable.Counted` — it is counted right.

## Main results

* `PageTable.Counted.map`, `PageTable.Counted.unmap` — the operations keep the count right.
* `PageTable.exists_map`, `PageTable.exists_unmap` — and so they do not fail.
-/

namespace DemandPaging

open VirtualAddress (place)

/-! ### How often a predicate holds -/

section Count

variable {α : Type} [Fintype α] {p q : α → Bool} {a : α}

/-- The number of arguments at which a predicate holds. -/
@[irreducible] def numberOf (p : α → Bool) : Nat := (Finset.univ.filter fun a => p a = true).card

theorem numberOf_pos (ha : p a = true) : 0 < numberOf p := by
  rw [numberOf]
  exact Finset.card_pos.2 ⟨a, by simpa using ha⟩

theorem numberOf_le (p : α → Bool) : numberOf p ≤ Fintype.card α := by
  rw [numberOf]
  exact Finset.card_le_univ _

/-- Where a predicate comes to hold at one more argument, it holds once more. -/
theorem numberOf_of_update [DecidableEq α] (ha : p a = false) (h : q = Function.update p a true) :
    numberOf q = numberOf p + 1 := by
  have hinsert : Finset.univ.filter (fun b => q b = true)
      = insert a (Finset.univ.filter fun b => p b = true) := by
    ext b
    simp only [h, Finset.mem_filter_univ, Finset.mem_insert]
    by_cases hb : b = a
    · simp [hb]
    · simp [hb]
  rw [numberOf, hinsert, Finset.card_insert_of_notMem (by simp [ha]), numberOf]

end Count

namespace PageTable

variable {t t' : PageTable} {v : VirtualAddress} {addr phys : Nat} {d : Fin 1024}

/-- Whether a page is mapped at a place. -/
def isMapped (t : PageTable) (place : Fin 1024 × Fin 1024) : Bool := (t.mapping place).isSome

/-- Whether a directory entry names a table. -/
def isPresent (t : PageTable) (d : Fin 1024) : Bool := (t.directory.get d).present

/-- The mapped pages are counted right, and every table was made for a directory entry. -/
structure Counted (t : PageTable) : Prop where
  mapped_eq : t.mapped = numberOf t.isMapped
  tables_le : t.tables.size ≤ numberOf t.isPresent

theorem isMapped_congr (h : t'.mapping = t.mapping) : t'.isMapped = t.isMapped := by
  funext place
  rw [isMapped, h, isMapped]

theorem isMapped_update {p : Fin 1024 × Fin 1024} {m : Option (Nat × Bool)}
    (h : t'.mapping = Function.update t.mapping p m) :
    t'.isMapped = Function.update t.isMapped p m.isSome := by
  funext q
  rw [isMapped, h]
  by_cases hq : q = p
  · rw [hq, Function.update_self, Function.update_self]
  · rw [Function.update_of_ne hq, Function.update_of_ne hq, isMapped]

theorem Counted.lt_tables (h : t.Counted) : t.tables.size < 2 ^ 20 := by
  have hle := h.tables_le.trans (numberOf_le _)
  rw [Fintype.card_fin] at hle
  exact Nat.lt_of_le_of_lt hle (by decide)

/-- A table that is made is made for a directory entry that had none. -/
theorem Counted.extend (hw : t.WellFormed) (h : t.Counted) (he : t.extend v = .ok t') :
    t'.Counted := by
  have hmapped := isMapped_congr (mapping_congr (hw.extend he).2.2)
  rw [PageTable.extend] at he
  by_cases hp : (t.directory.get v.directoryIndex.toFin).present = true
  · rw [if_pos hp] at he
    cases he
    exact h
  rw [if_neg hp, except_ite_eq_ok] at he
  rcases he with ⟨-, he⟩ | ⟨-, he⟩
  · cases he
    refine ⟨h.mapped_eq.trans (congrArg numberOf hmapped.symm), ?_⟩
    have hnot : t.isPresent v.directoryIndex.toFin = false := Bool.eq_false_iff.2 hp
    rw [Array.size_push, numberOf_of_update hnot ?_]
    · exact Nat.succ_le_succ h.tables_le
    · funext d
      by_cases hd : d = v.directoryIndex.toFin
      · subst hd
        rw [Function.update_self]
        exact (congrArg DirectoryEntry.present (get_set_self _ _)).trans
          (DirectoryEntry.present_toTable _)
      · rw [Function.update_of_ne hd]
        exact congrArg DirectoryEntry.present (get_set_of_ne _ _ hd)
  · simp at he

/-- Writing an entry makes no table. -/
theorem size_tables_setEntry (t : PageTable) (index : Nat) (i : Fin 1024) (e : TableEntry) :
    (t.setEntry index i e).tables.size = t.tables.size := by
  simp [setEntry]

theorem Counted.map (hw : t.WellFormed) (h : t.Counted) {writable user mapped : Bool}
    (hm : t.map phys addr writable user = .ok (mapped, t')) : t'.Counted := by
  obtain ⟨-, -, hmapping⟩ := hw.map hm
  rw [PageTable.map] at hm
  simp only [except_bind_eq_ok, except_ite_eq_ok, except_throw_ne_ok, VirtualAddress.ofNat_eq_ok,
    false_and, exists_false, and_false, or_false] at hm
  obtain ⟨-, -, _, ⟨-, rfl⟩, t₁, hextend, found, -, hm⟩ := hm
  have h₁ := h.extend hw hextend
  have hsame := isMapped_congr (mapping_congr (hw.extend hextend).2.2)
  cases found with
  | none => simp at hm
  | some found =>
    simp only [except_ite_eq_ok, except_pure_eq_ok, Prod.mk.injEq] at hm
    rcases hm with ⟨-, rfl, rfl⟩ | ⟨-, rfl, rfl⟩
    · exact h₁
    · refine ⟨?_, (size_tables_setEntry t₁ _ _ _).trans_le h₁.tables_le⟩
      rw [if_pos rfl] at hmapping
      have hnone : t.isMapped (place addr) = false := by rw [isMapped, hmapping.1]; rfl
      rw [numberOf_of_update hnone (isMapped_update hmapping.2)]
      show t₁.mapped + 1 = _
      rw [h₁.mapped_eq, hsame]

theorem isMapped_of_present {i : Fin 1024} {table : EntryTable}
    (hp : (t.directory.get d).present = true)
    (htable : t.tables[(t.directory.get d).table.toNat]? = some table)
    (hpresent : (table.get i).present = true) : t.isMapped (d, i) = true := by
  rw [isMapped, mapping, entryAt_of_present hp htable, if_pos hpresent]
  rfl

theorem Counted.unmap (hw : t.WellFormed) (h : t.Counted) (hu : t.unmap addr = .ok t') :
    t'.Counted := by
  obtain ⟨-, -, hmapping⟩ := hw.unmap hu
  rw [PageTable.unmap] at hu
  simp only [except_bind_eq_ok, VirtualAddress.ofNat_eq_ok] at hu
  obtain ⟨_, ⟨-, rfl⟩, found, hlocate, hu⟩ := hu
  rcases hw.locate_eq ⟨BitVec.ofNat 32 addr⟩ with ⟨-, hl⟩ | ⟨table, hp, htable, hl⟩
  · rw [hl, Except.ok.injEq] at hlocate
    subst hlocate
    simp only [except_pure_eq_ok] at hu
    exact hu ▸ h
  · rw [hl, Except.ok.injEq] at hlocate
    subst hlocate
    simp only [except_ite_eq_ok, except_bind_eq_ok, except_pure_eq_ok, checkedSub_eq_ok] at hu
    rcases hu with ⟨hpresent, _, ⟨-, rfl⟩, rfl⟩ | ⟨-, rfl⟩
    · refine ⟨?_, (size_tables_setEntry t _ _ _).trans_le h.tables_le⟩
      have hbefore := isMapped_of_present (i := (place addr).2) hp htable hpresent
      -- the page is mapped again if it is put back
      have hback := isMapped_update hmapping
      have hcount := numberOf_of_update (p := Function.update t.isMapped (place addr) false)
        (q := t.isMapped) (a := place addr) (Function.update_self _ _ _) ?_
      · show t.mapped - 1 = numberOf _
        rw [hback, Option.isSome_none]
        have := h.mapped_eq
        omega
      · rw [Function.update_idem]
        exact (Function.update_eq_self_iff.2 hbefore.symm).symm
    · exact h

theorem counted_empty : empty.Counted where
  mapped_eq := by
    have hnone : empty.isMapped = fun _ => false := by
      funext place
      rw [isMapped, mapping_empty]
      rfl
    rw [hnone, numberOf]
    simp [empty]
  tables_le := Nat.zero_le _

/-! ### The operations do not fail -/

theorem exists_map (hw : t.WellFormed) (h : t.Counted) (hphys : pageOffset phys = 0)
    (hphys' : phys < 2 ^ 32) (haddr : addr < 2 ^ 32) (writable user : Bool) :
    ∃ r, t.map phys addr writable user = .ok r := by
  have hextend : ∃ t₁, t.extend ⟨BitVec.ofNat 32 addr⟩ = .ok t₁ := by
    rw [PageTable.extend, Nat.pow_eq, if_pos h.lt_tables]
    split
    · exact ⟨_, rfl⟩
    · exact ⟨_, rfl⟩
  obtain ⟨t₁, hextend⟩ := hextend
  obtain ⟨hw₁, hpresent, -⟩ := hw.extend hextend
  have hv : VirtualAddress.ofNat addr = .ok ⟨BitVec.ofNat 32 addr⟩ :=
    VirtualAddress.ofNat_eq_ok.2 ⟨haddr, rfl⟩
  rcases hw₁.locate_eq ⟨BitVec.ofNat 32 addr⟩ with ⟨hp, -⟩ | ⟨table, -, -, hl⟩
  · rw [hp] at hpresent
    simp at hpresent
  · rw [PageTable.map]
    simp only [hphys, Nat.pow_eq, hphys', if_true, hv, except_ok_bind, hextend, hl]
    split
    · exact ⟨_, rfl⟩
    · exact ⟨_, rfl⟩

theorem exists_unmap (hw : t.WellFormed) (h : t.Counted) (haddr : addr < 2 ^ 32) :
    ∃ t', t.unmap addr = .ok t' := by
  have hv : VirtualAddress.ofNat addr = .ok ⟨BitVec.ofNat 32 addr⟩ :=
    VirtualAddress.ofNat_eq_ok.2 ⟨haddr, rfl⟩
  rw [PageTable.unmap]
  rcases hw.locate_eq ⟨BitVec.ofNat 32 addr⟩ with ⟨-, hl⟩ | ⟨table, hp, htable, hl⟩
  · simp only [hv, except_ok_bind, hl]
    exact ⟨_, rfl⟩
  · simp only [hv, except_ok_bind, hl]
    split
    · -- the page at this place is one of those that are counted
      rename_i hpresent
      have hpos : 0 < t.mapped := by
        rw [h.mapped_eq]
        exact numberOf_pos (isMapped_of_present (i := (place addr).2) hp htable hpresent)
      rw [checkedSub_of_le hpos]
      exact ⟨_, rfl⟩
    · exact ⟨_, rfl⟩

end PageTable

end DemandPaging
