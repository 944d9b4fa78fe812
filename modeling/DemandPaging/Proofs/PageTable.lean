import DemandPaging.PageTable.Basic
import DemandPaging.Proofs.Ensures
import Mathlib.Logic.Function.Basic

/-!
# The page table as a map

What a page table says of an address is the entry at one of a million places, named by two indices
of ten bits. Behind that are a directory and the tables it names, and the operations go through
both. As long as every present entry of the directory names a table of its own, an operation
changes what is said at one place and nowhere else, and that is the only thing that the rest of
the theory uses.

## Main definitions

* `PageTable.WellFormed` — every present directory entry names a table of its own.
* `VirtualAddress.place`, `PageTable.mapping` — the place of an address, and what is mapped there.

## Main results

* `PageTable.WellFormed.map`, `PageTable.WellFormed.unmap` — mapping and unmapping change one place.
* `PageTable.WellFormed.translate_eq`, `PageTable.WellFormed.isWritable_eq` — what the hardware
  sees.
-/

namespace DemandPaging

namespace VirtualAddress

variable {v : VirtualAddress} {a b addr : Nat}

theorem ofNat_eq_ok : ofNat addr = .ok v ↔ addr < 2 ^ 32 ∧ v = ⟨BitVec.ofNat 32 addr⟩ := by
  rw [ofNat, Nat.pow_eq]
  by_cases h : addr < 2 ^ 32
  · rw [if_pos h, Except.ok.injEq]
    exact ⟨fun hv => ⟨h, hv.symm⟩, fun hv => hv.2.symm⟩
  · rw [if_neg h]
    exact ⟨fun hv => (nomatch hv), fun hv => absurd hv.1 h⟩

/-- The place of an address in the tables: its index in the directory and in its table. -/
def place (addr : Nat) : Fin 1024 × Fin 1024 :=
  ((⟨BitVec.ofNat 32 addr⟩ : VirtualAddress).directoryIndex.toFin,
    (⟨BitVec.ofNat 32 addr⟩ : VirtualAddress).tableIndex.toFin)

theorem fst_place (h : addr < 2 ^ 32) : (place addr).1.val = addr / pageSize / 1024 := by
  show (directoryIndex _).toNat = _
  rw [directoryIndex, Word.field, BitVec.extractLsb'_toNat, BitVec.toNat_ofNat,
    Nat.shiftRight_eq_div_pow]
  simp only [pageSize]
  omega

theorem snd_place (h : addr < 2 ^ 32) : (place addr).2.val = addr / pageSize % 1024 := by
  show (tableIndex _).toNat = _
  rw [tableIndex, Word.field, BitVec.extractLsb'_toNat, BitVec.toNat_ofNat,
    Nat.shiftRight_eq_div_pow]
  simp only [pageSize]
  omega

/-- Two addresses have the same place exactly when they lie on the same page. -/
theorem place_eq_iff (ha : a < 2 ^ 32) (hb : b < 2 ^ 32) :
    place a = place b ↔ pageFloor a = pageFloor b := by
  rw [Prod.ext_iff, Fin.ext_iff, Fin.ext_iff, fst_place ha, fst_place hb, snd_place ha,
    snd_place hb, pageFloor_eq_mul, pageFloor_eq_mul]
  simp only [pageSize]
  omega

end VirtualAddress

open VirtualAddress (place)

namespace PageTable

variable {t t' : PageTable} {v : VirtualAddress} {addr phys : Nat} {d i : Fin 1024}

section Slots

variable {α : Type} {n : Nat} (xs : Vector α n) {i j : Fin n} (x : α)

theorem get_set_self : (xs.set i x i.isLt).get i = x := Vector.getElem_set_self _

theorem get_set_of_ne (h : j ≠ i) : (xs.set i x i.isLt).get j = xs.get j :=
  Vector.getElem_set_ne _ _ fun heq => h (Fin.ext heq.symm)

end Slots

/-- Every present entry of the directory names a table, and no two of them the same. -/
structure WellFormed (t : PageTable) : Prop where
  lt_size : ∀ d : Fin 1024, (t.directory.get d).present = true →
    (t.directory.get d).table.toNat < t.tables.size
  table_inj : ∀ d d' : Fin 1024, (t.directory.get d).present = true →
    (t.directory.get d').present = true →
    (t.directory.get d).table.toNat = (t.directory.get d').table.toNat → d = d'

/-- The present entry at a place. -/
def entryAt (t : PageTable) (place : Fin 1024 × Fin 1024) : Option TableEntry :=
  if (t.directory.get place.1).present then
    (t.tables[(t.directory.get place.1).table.toNat]?.map fun table => table.get place.2).filter
      TableEntry.present
  else none

/-- The physical page that is mapped at a place, and whether it may be written. -/
def mapping (t : PageTable) (place : Fin 1024 × Fin 1024) : Option (Nat × Bool) :=
  (t.entryAt place).map fun e => (e.frame.toNat, e.writable)

theorem mapping_congr (h : t'.entryAt = t.entryAt) : t'.mapping = t.mapping := by
  funext place
  rw [mapping, h, mapping]

theorem mapping_update {place : Fin 1024 × Fin 1024} {x : Option TableEntry}
    (h : t'.entryAt = Function.update t.entryAt place x) :
    t'.mapping = Function.update t.mapping place
      (x.map fun e => (e.frame.toNat, e.writable)) := by
  funext place'
  rw [mapping, h]
  by_cases hp : place' = place
  · rw [hp, Function.update_self, Function.update_self]
  · rw [Function.update_of_ne hp, Function.update_of_ne hp, mapping]

/-- The number of mapped pages is counted beside the tables. -/
theorem WellFormed.withMapped (h : t.WellFormed) (n : Nat) :
    ({ t with mapped := n } : PageTable).WellFormed := ⟨h.lt_size, h.table_inj⟩

/-! ### Reading -/

/-- In a well-formed table a lookup finds the table that the directory names, or none. -/
theorem WellFormed.locate_eq (h : t.WellFormed) (v : VirtualAddress) :
    ((t.directory.get v.directoryIndex.toFin).present = false ∧ t.locate v = .ok none) ∨
      ∃ table, (t.directory.get v.directoryIndex.toFin).present = true ∧
        t.tables[(t.directory.get v.directoryIndex.toFin).table.toNat]? = some table ∧
        t.locate v = .ok (some (table, (t.directory.get v.directoryIndex.toFin).table.toNat)) := by
  cases hp : (t.directory.get v.directoryIndex.toFin).present with
  | false => exact .inl ⟨rfl, by simp only [locate, hp, Bool.false_eq_true, if_false]⟩
  | true =>
    have hsome := Array.getElem?_eq_getElem (h.lt_size _ hp)
    exact .inr ⟨_, rfl, hsome, by simp only [locate, hp, hsome, if_true]⟩

theorem WellFormed.entry_eq (h : t.WellFormed) (haddr : addr < 2 ^ 32) :
    t.entry? addr = .ok (t.entryAt (place addr)) := by
  rw [PageTable.entry?, VirtualAddress.ofNat, Nat.pow_eq, if_pos haddr, entryAt, place]
  rcases h.locate_eq ⟨BitVec.ofNat 32 addr⟩ with ⟨hp, hl⟩ | ⟨table, hp, htable, hl⟩
  · simp only [hp, Bool.false_eq_true, if_false]
    show (t.locate _ >>= _) = _
    rw [hl]
    rfl
  · simp only [hp, if_true, htable, Option.map_some, Option.filter_some]
    show (t.locate _ >>= _) = _
    rw [hl]
    rfl

/-- The physical address of an address is in the page mapped at its place. -/
theorem WellFormed.translate_eq (h : t.WellFormed) (haddr : addr < 2 ^ 32) :
    t.translate addr = .ok ((t.mapping (place addr)).map fun m =>
      m.1 * pageSize + pageOffset addr) := by
  rw [translate, h.entry_eq haddr, mapping, Option.map_map]
  rfl

theorem WellFormed.isWritable_eq (h : t.WellFormed) (haddr : addr < 2 ^ 32) :
    t.isWritable addr = .ok ((t.mapping (place addr)).any Prod.snd) := by
  rw [isWritable, h.entry_eq haddr, mapping, Option.any_map]
  rfl

/-! ### Writing -/

/-- A write through the directory changes the entry at one place. -/
theorem WellFormed.setEntry (h : t.WellFormed) (hp : (t.directory.get d).present = true)
    (e : TableEntry) :
    (t.setEntry (t.directory.get d).table.toNat i e).WellFormed ∧
      (t.setEntry (t.directory.get d).table.toNat i e).entryAt
        = Function.update t.entryAt (d, i) (if e.present then some e else none) := by
  refine ⟨⟨fun d' hd' => ?_, h.table_inj⟩, ?_⟩
  · simpa [PageTable.setEntry] using h.lt_size d' hd'
  · funext ⟨d', i'⟩
    have hlt := h.lt_size d hp
    by_cases hd : d' = d
    · subst hd
      by_cases hi : i' = i
      · subst hi
        rw [Function.update_self]
        simp only [entryAt, PageTable.setEntry, hp, if_true, Array.getElem?_modify]
        rw [Array.getElem?_eq_getElem hlt]
        simp only [Option.map_some, Option.filter_some, get_set_self]
      · rw [Function.update_of_ne (by simpa using hi)]
        simp only [entryAt, PageTable.setEntry, hp, if_true, Array.getElem?_modify]
        rw [Array.getElem?_eq_getElem hlt]
        simp only [Option.map_some, get_set_of_ne _ _ hi]
    · rw [Function.update_of_ne (by simp [hd])]
      simp only [entryAt, PageTable.setEntry]
      refine ite_congr rfl (fun hp' => ?_) fun _ => rfl
      have hne : (t.directory.get d).table.toNat ≠ (t.directory.get d').table.toNat :=
        fun heq => hd (h.table_inj d' d hp' hp heq.symm)
      rw [Array.getElem?_modify, if_neg hne]

/-- Making a table for a directory entry changes no page. -/
theorem WellFormed.extend (h : t.WellFormed) (he : t.extend v = .ok t') :
    t'.WellFormed ∧ (t'.directory.get v.directoryIndex.toFin).present = true ∧
      t'.entryAt = t.entryAt := by
  rw [PageTable.extend] at he
  by_cases hp : (t.directory.get v.directoryIndex.toFin).present = true
  · rw [if_pos hp] at he
    cases he
    exact ⟨h, hp, rfl⟩
  rw [if_neg hp, except_ite_eq_ok] at he
  rcases he with ⟨hsize, he⟩ | ⟨-, he⟩
  · cases he
    have htoNat : (BitVec.ofNat 20 t.tables.size).toNat = t.tables.size := by
      rw [BitVec.toNat_ofNat]
      exact Nat.mod_eq_of_lt hsize
    have hself : (t.directory.set v.directoryIndex.toNat (.toTable (BitVec.ofNat 20 t.tables.size))
        v.directoryIndex.isLt).get v.directoryIndex.toFin
          = .toTable (BitVec.ofNat 20 t.tables.size) := get_set_self _ _
    have hother : ∀ d' : Fin 1024, d' ≠ v.directoryIndex.toFin →
        (t.directory.set v.directoryIndex.toNat (.toTable (BitVec.ofNat 20 t.tables.size))
          v.directoryIndex.isLt).get d' = t.directory.get d' := fun d' => get_set_of_ne _ _
    refine ⟨⟨fun d' hd' => ?_, fun d₁ d₂ hd₁ hd₂ heq => ?_⟩, ?_, ?_⟩
    · simp only [Array.size_push]
      by_cases hne : d' = v.directoryIndex.toFin
      · rw [hne, hself, DirectoryEntry.table_toTable, htoNat]
        exact Nat.lt_succ_self _
      · rw [hother d' hne] at hd' ⊢
        exact Nat.lt_succ_of_lt (h.lt_size d' hd')
    · -- the new table is behind the ones that were named before
      by_cases hne₁ : d₁ = v.directoryIndex.toFin <;> by_cases hne₂ : d₂ = v.directoryIndex.toFin
      · rw [hne₁, hne₂]
      · rw [hne₁, hself, hother d₂ hne₂, DirectoryEntry.table_toTable, htoNat] at heq
        rw [hother d₂ hne₂] at hd₂
        have := h.lt_size d₂ hd₂
        omega
      · rw [hne₂, hself, hother d₁ hne₁, DirectoryEntry.table_toTable, htoNat] at heq
        rw [hother d₁ hne₁] at hd₁
        have := h.lt_size d₁ hd₁
        omega
      · rw [hother d₁ hne₁] at hd₁ heq
        rw [hother d₂ hne₂] at hd₂ heq
        exact h.table_inj d₁ d₂ hd₁ hd₂ heq
    · rw [hself, DirectoryEntry.present_toTable]
    · funext ⟨d', i'⟩
      simp only [entryAt]
      by_cases hne : d' = v.directoryIndex.toFin
      · rw [hne, hself, if_neg hp, DirectoryEntry.present_toTable, if_pos rfl,
          DirectoryEntry.table_toTable, htoNat, Array.getElem?_push_size]
        have hblank : (Vector.replicate 1024 TableEntry.empty).get i' = .empty :=
          Vector.getElem_replicate _
        simp only [Option.map_some, Option.filter_some, hblank, TableEntry.present_empty,
          Bool.false_eq_true, if_false]
      · rw [hother d' hne]
        refine ite_congr rfl (fun hd' => ?_) fun _ => rfl
        rw [Array.getElem?_push_lt (h.lt_size d' hd'), Array.getElem?_eq_getElem (h.lt_size d' hd')]
  · simp at he

theorem entryAt_of_present {table : EntryTable} (hp : (t.directory.get d).present = true)
    (htable : t.tables[(t.directory.get d).table.toNat]? = some table) :
    t.entryAt (d, i) = if (table.get i).present then some (table.get i) else none := by
  simp only [entryAt, hp, if_true, htable, Option.map_some, Option.filter_some]

/-- Mapping a page fails if its place is taken, and otherwise fills it. -/
theorem WellFormed.map (h : t.WellFormed) {writable user mapped : Bool}
    (hm : t.map phys addr writable user = .ok (mapped, t')) :
    addr < 2 ^ 32 ∧ t'.WellFormed ∧
      if mapped then t.mapping (place addr) = none ∧
        t'.mapping = Function.update t.mapping (place addr) (some (phys / pageSize, writable))
      else (t.mapping (place addr)).isSome ∧ t'.mapping = t.mapping := by
  rw [PageTable.map] at hm
  simp only [except_bind_eq_ok, except_ite_eq_ok, except_throw_ne_ok, VirtualAddress.ofNat_eq_ok,
    false_and, exists_false, and_false, or_false, Nat.pow_eq] at hm
  obtain ⟨-, hphys, _, ⟨haddr, rfl⟩, t₁, hextend, found, hlocate, hm⟩ := hm
  obtain ⟨hwf, hpresent, hentries⟩ := h.extend hextend
  rcases hwf.locate_eq ⟨BitVec.ofNat 32 addr⟩ with ⟨hp, -⟩ | ⟨table, hp, htable, hl⟩
  · rw [hp] at hpresent
    simp at hpresent
  rw [hl, Except.ok.injEq] at hlocate
  subst hlocate
  have hentry : t.entryAt (place addr) = _ :=
    (congrFun hentries _).symm.trans (entryAt_of_present (i := (place addr).2) hp htable)
  simp only [except_ite_eq_ok, except_pure_eq_ok, Prod.mk.injEq] at hm
  rcases hm with ⟨htaken, rfl, rfl⟩ | ⟨hfree, rfl, rfl⟩
  · refine ⟨haddr, hwf, ?_⟩
    rw [if_pos (by exact htaken)] at hentry
    simp only [Bool.false_eq_true, if_false]
    exact ⟨by rw [mapping, hentry]; rfl, mapping_congr hentries⟩
  · obtain ⟨hwf', hwritten⟩ := hwf.setEntry (i := (place addr).2) hp
      (.toFrame (BitVec.ofNat 20 (phys / pageSize)) writable user)
    refine ⟨haddr, hwf'.withMapped _, ?_⟩
    rw [if_neg (by exact hfree)] at hentry
    rw [hentries, TableEntry.present_toFrame, if_pos rfl] at hwritten
    have hframe : (BitVec.ofNat 20 (phys / pageSize)).toNat = phys / pageSize := by
      rw [BitVec.toNat_ofNat, pageSize]
      exact Nat.mod_eq_of_lt (by omega)
    simp only [if_true]
    refine ⟨by rw [mapping, hentry]; rfl, (mapping_update hwritten).trans ?_⟩
    rw [Option.map_some, TableEntry.frame_toFrame, TableEntry.writable_toFrame, hframe]
    rfl

/-- Unmapping a page empties its place. -/
theorem WellFormed.unmap (h : t.WellFormed) (hu : t.unmap addr = .ok t') :
    addr < 2 ^ 32 ∧ t'.WellFormed ∧
      t'.mapping = Function.update t.mapping (place addr) none := by
  rw [PageTable.unmap] at hu
  simp only [except_bind_eq_ok, VirtualAddress.ofNat_eq_ok] at hu
  obtain ⟨_, ⟨haddr, rfl⟩, found, hlocate, hu⟩ := hu
  rcases h.locate_eq ⟨BitVec.ofNat 32 addr⟩ with ⟨hp, hl⟩ | ⟨table, hp, htable, hl⟩
  · rw [hl, Except.ok.injEq] at hlocate
    subst hlocate
    simp only [except_pure_eq_ok] at hu
    subst hu
    have hnone : t.mapping (place addr) = none := by
      rw [mapping, entryAt, if_neg (by exact Bool.eq_false_iff.1 hp)]
      rfl
    exact ⟨haddr, h, by rw [← hnone, Function.update_eq_self]⟩
  · rw [hl, Except.ok.injEq] at hlocate
    subst hlocate
    have hentry := entryAt_of_present (i := (place addr).2) hp htable
    simp only [except_ite_eq_ok, except_bind_eq_ok, except_pure_eq_ok] at hu
    rcases hu with ⟨-, n, -, rfl⟩ | ⟨hfree, rfl⟩
    · obtain ⟨hwf', hwritten⟩ := h.setEntry (i := (place addr).2) hp .empty
      refine ⟨haddr, hwf'.withMapped _, ?_⟩
      rw [TableEntry.present_empty, if_neg Bool.false_ne_true] at hwritten
      exact mapping_update hwritten
    · rw [if_neg (by exact hfree)] at hentry
      have hnone : t.mapping (place addr) = none := by
        rw [mapping]
        exact congrArg (Option.map _) hentry
      exact ⟨haddr, h, by rw [← hnone, Function.update_eq_self]⟩

theorem present_empty (d : Fin 1024) : (empty.directory.get d).present = false := by
  have hblank : empty.directory.get d = .empty := Vector.getElem_replicate _
  rw [hblank, DirectoryEntry.present_empty]

/-- A table without translations. -/
theorem wellFormed_empty : empty.WellFormed where
  lt_size d hd := by
    rw [present_empty] at hd
    simp at hd
  table_inj d d' hd := by
    rw [present_empty] at hd
    simp at hd

theorem mapping_empty (place : Fin 1024 × Fin 1024) : empty.mapping place = none := by
  rw [mapping, entryAt, present_empty, if_neg Bool.false_ne_true]
  rfl

end PageTable

end DemandPaging
