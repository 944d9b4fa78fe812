import DemandPaging.PageTable.Run
import DemandPaging.Proofs.TableCount

/-!
# The page table refines the flat page map

Directory, tables and packed entries are a way to store a finite map from page numbers to physical
pages with a right to write. The relation `PageTable.Flattens` says which map a page table stores.
Every request keeps it and is answered as the map answers it, so a caller who asks for user
addresses and page frames of 32 bits cannot tell the two apart, and meets no panic on the way.

The relation looks at addresses, of which there are 4096 to a page, so that a write at one place of
the tables and an insertion under one page number are compared without naming the place of a page
number.

## Main definitions

* `PageTable.Request.InRange` — the requests the tables are made for.
* `PageTable.Flattens` — the flat page map that a page table stores.
* `PageTable.Refines` — what a caller sees of it.

## Main results

* `PageTable.Flattens.step`, `PageTable.Flattens.run` — requests are answered alike.
* `PageTable.run_empty` — on a new page table every run is the run of the flat map.
-/

namespace DemandPaging

open VirtualAddress (place)

namespace PageTable

variable {t t' : PageTable} {m : FlatPages} {addr a b phys : Nat}

/-- The request names addresses of 32 bits, and a physical address that is a page. -/
def Request.InRange : Request → Prop
  | .map phys addr _ _ => pageOffset phys = 0 ∧ phys < 2 ^ 32 ∧ addr < 2 ^ 32
  | .unmap addr | .translate addr | .isWritable addr => addr < 2 ^ 32
  | .mappedPages => True

/-- The page table stores the flat page map `m`. -/
structure Flattens (t : PageTable) (m : FlatPages) : Prop where
  wellFormed : t.WellFormed
  counted : t.Counted
  mapping_eq : ∀ addr < 2 ^ 32, t.mapping (place addr) = m.pages[addr / pageSize]?
  mapped_eq : t.mapped = m.mapped

/-- Two addresses have the same place exactly when they have the same page number. -/
theorem place_eq_iff_div (ha : a < 2 ^ 32) (hb : b < 2 ^ 32) :
    place a = place b ↔ a / pageSize = b / pageSize := by
  rw [VirtualAddress.place_eq_iff ha hb, pageFloor_eq_mul, pageFloor_eq_mul]
  simp only [pageSize]
  omega

namespace Flattens

theorem translate_eq (h : t.Flattens m) (haddr : addr < 2 ^ 32) :
    t.translate addr = .ok (m.translate addr) := by
  rw [h.wellFormed.translate_eq haddr, h.mapping_eq addr haddr, FlatPages.translate]

theorem isWritable_eq (h : t.Flattens m) (haddr : addr < 2 ^ 32) :
    t.isWritable addr = .ok (m.isWritable addr) := by
  rw [h.wellFormed.isWritable_eq haddr, h.mapping_eq addr haddr, FlatPages.isWritable]

/-- A change at the place of one address is a change under its page number. -/
theorem mapping_update (h : t.Flattens m) (haddr : addr < 2 ^ 32) {x : Option (Nat × Bool)}
    (hm : t'.mapping = Function.update t.mapping (place addr) x) (hb : b < 2 ^ 32) :
    t'.mapping (place b) = if b / pageSize = addr / pageSize then x
      else m.pages[b / pageSize]? := by
  rw [hm]
  by_cases hpage : b / pageSize = addr / pageSize
  · rw [if_pos hpage, (place_eq_iff_div hb haddr).2 hpage, Function.update_self]
  · rw [if_neg hpage, Function.update_of_ne (mt (place_eq_iff_div hb haddr).1 hpage),
      h.mapping_eq b hb]

/-- Mapping a page answers and does what it does to the flat map. -/
theorem map (h : t.Flattens m) (hphys : pageOffset phys = 0) (hphys' : phys < 2 ^ 32)
    (haddr : addr < 2 ^ 32) (writable user : Bool) :
    ∃ t', t.map phys addr writable user = .ok ((m.map phys addr writable).1, t') ∧
      t'.Flattens (m.map phys addr writable).2 := by
  obtain ⟨⟨mapped, t'⟩, hm⟩ :=
    exists_map h.wellFormed h.counted hphys hphys' haddr writable user
  obtain ⟨-, hw, hmapping⟩ := h.wellFormed.map hm
  have hc := h.counted.map h.wellFormed hm
  rw [h.mapping_eq addr haddr] at hmapping
  cases mapped with
  | false =>
    obtain ⟨htaken, hmapping⟩ := hmapping
    have hmem : m.pages.contains (addr / pageSize) = true := by
      rwa [Std.ExtTreeMap.contains_eq_isSome_getElem?]
    rw [FlatPages.map, if_pos hmem]
    refine ⟨t', hm, hw, hc, fun b hb => ?_, ?_⟩
    · rw [hmapping, h.mapping_eq b hb]
    · rw [hc.mapped_eq, isMapped_congr hmapping, ← h.counted.mapped_eq, h.mapped_eq]
  | true =>
    obtain ⟨hfree, hmapping⟩ := hmapping
    have hmem : m.pages.contains (addr / pageSize) = false := by
      rw [Std.ExtTreeMap.contains_eq_isSome_getElem?, hfree]
      rfl
    rw [FlatPages.map, if_neg (by rw [hmem]; exact Bool.false_ne_true)]
    refine ⟨t', hm, hw, hc, fun b hb => ?_, ?_⟩
    · rw [h.mapping_update haddr hmapping hb, Std.ExtTreeMap.getElem?_insert]
      exact if_congr (by rw [Nat.compare_eq_eq]; exact eq_comm) rfl rfl
    · have hnone : t.isMapped (place addr) = false := by
        rw [isMapped, h.mapping_eq addr haddr, hfree]
        rfl
      rw [hc.mapped_eq, numberOf_of_update hnone (isMapped_update hmapping),
        ← h.counted.mapped_eq, h.mapped_eq, FlatPages.mapped, FlatPages.mapped,
        Std.ExtTreeMap.size_insert, if_neg]
      rw [hmem]
      exact Bool.false_ne_true

/-- Unmapping a page does what it does to the flat map. -/
theorem unmap (h : t.Flattens m) (haddr : addr < 2 ^ 32) :
    ∃ t', t.unmap addr = .ok t' ∧ t'.Flattens (m.unmap addr) := by
  obtain ⟨t', hu⟩ := exists_unmap h.wellFormed h.counted haddr
  obtain ⟨-, hw, hmapping⟩ := h.wellFormed.unmap hu
  have hc := h.counted.unmap h.wellFormed hu
  refine ⟨t', hu, hw, hc, fun b hb => ?_, ?_⟩
  · rw [h.mapping_update haddr hmapping hb, FlatPages.unmap, Std.ExtTreeMap.getElem?_erase]
    exact if_congr (by rw [Nat.compare_eq_eq]; exact eq_comm) rfl rfl
  · rw [hc.mapped_eq, FlatPages.mapped, FlatPages.unmap, Std.ExtTreeMap.size_erase]
    have hbefore := h.counted.mapped_eq.symm.trans h.mapped_eq
    rw [FlatPages.mapped] at hbefore
    have hplace : t.isMapped (place addr) = m.pages.contains (addr / pageSize) := by
      rw [isMapped, h.mapping_eq addr haddr, Std.ExtTreeMap.contains_eq_isSome_getElem?]
    have hupdate := isMapped_update hmapping
    rw [Option.isSome_none] at hupdate
    cases hmem : m.pages.contains (addr / pageSize) with
    | true =>
      rw [if_pos rfl]
      -- the page is mapped again if it is put back
      have hcount := numberOf_of_update (p := t'.isMapped) (q := t.isMapped) (a := place addr)
        (by rw [hupdate, Function.update_self])
        (by rw [hupdate, Function.update_idem, ← hplace.trans hmem, Function.update_eq_self])
      omega
    | false =>
      rw [if_neg Bool.false_ne_true, hupdate, ← hplace.trans hmem, Function.update_eq_self, hbefore]

/-- Every request in range is answered as the flat map answers it. -/
theorem step (h : t.Flattens m) {request : Request} (hrange : request.InRange) :
    ∃ t', t.serve request = .ok ((m.serve request).1, t') ∧ t'.Flattens (m.serve request).2 := by
  cases request with
  | map phys addr writable user =>
    obtain ⟨hphys, hphys', haddr⟩ := hrange
    obtain ⟨t', hm, h'⟩ := h.map hphys hphys' haddr writable user
    exact ⟨t', by rw [serve, hm]; rfl, h'⟩
  | unmap addr =>
    obtain ⟨t', hu, h'⟩ := h.unmap hrange
    exact ⟨t', by rw [serve, hu]; rfl, h'⟩
  | translate addr => exact ⟨t, by rw [serve, h.translate_eq hrange]; rfl, h⟩
  | isWritable addr => exact ⟨t, by rw [serve, h.isWritable_eq hrange]; rfl, h⟩
  | mappedPages => exact ⟨t, by rw [serve, h.mapped_eq]; rfl, h⟩

/-- Every run of requests in range is answered as the flat map answers it. -/
theorem run (h : t.Flattens m) {requests : List Request}
    (hrange : ∀ request ∈ requests, request.InRange) :
    ∃ t', PageTable.run requests t = .ok ((m.run requests).1, t') ∧
      t'.Flattens (m.run requests).2 := by
  induction requests generalizing t m with
  | nil => exact ⟨t, rfl, h⟩
  | cons request rest ih =>
    obtain ⟨t₁, hserve, h₁⟩ := h.step (hrange request List.mem_cons_self)
    obtain ⟨t', hrun, h'⟩ := ih h₁ fun r hr => hrange r (List.mem_cons_of_mem _ hr)
    refine ⟨t', ?_, h'⟩
    simp only [PageTable.run, hserve, except_ok_bind, hrun]
    rfl

/-- A new page table stores the map without pages. -/
theorem empty : PageTable.empty.Flattens .empty where
  wellFormed := wellFormed_empty
  counted := counted_empty
  mapping_eq addr _ := by
    rw [mapping_empty, FlatPages.empty, Std.ExtTreeMap.getElem?_empty]
  mapped_eq := by
    rw [FlatPages.mapped, FlatPages.empty, Std.ExtTreeMap.size_empty]
    rfl

end Flattens

/-- A caller cannot tell the page table from the flat page map, and its directory is in order. -/
structure Refines (t : PageTable) (m : FlatPages) : Prop where
  translate_eq : ∀ addr < 2 ^ 32, t.translate addr = .ok (m.translate addr)
  isWritable_eq : ∀ addr < 2 ^ 32, t.isWritable addr = .ok (m.isWritable addr)
  mapped_eq : t.mapped = m.mapped
  /-- Every present directory entry names a table. -/
  lt_size : ∀ d : Fin 1024, (t.directory.get d).present = true →
    (t.directory.get d).table.toNat < t.tables.size
  /-- No two directory entries name the same table. -/
  table_inj : ∀ d d' : Fin 1024, (t.directory.get d).present = true →
    (t.directory.get d').present = true →
    (t.directory.get d).table.toNat = (t.directory.get d').table.toNat → d = d'
  /-- There is at most one table for each directory entry, so that 20 bits can name it. -/
  tables_le : t.tables.size ≤ 1024

/-- On a new page table a run of requests in range does not panic, is answered as the flat page map
answers it, and leaves a page table that cannot be told from the map. -/
theorem run_empty {requests : List Request} (hrange : ∀ request ∈ requests, request.InRange) :
    ∃ t, run requests empty = .ok ((FlatPages.run requests .empty).1, t) ∧
      t.Refines (FlatPages.run requests .empty).2 := by
  obtain ⟨t, hrun, h⟩ := Flattens.empty.run hrange
  refine ⟨t, hrun, ?_⟩
  constructor
  case translate_eq => exact fun addr => h.translate_eq
  case isWritable_eq => exact fun addr => h.isWritable_eq
  case mapped_eq => exact h.mapped_eq
  case lt_size => exact h.wellFormed.lt_size
  case table_inj => exact h.wellFormed.table_inj
  case tables_le =>
    have hle := h.counted.tables_le.trans (numberOf_le _)
    rwa [Fintype.card_fin] at hle

/-- Two pages of one directory slot and one of another; the first is mapped twice and forgotten. -/
def twoSlots : List Request :=
  [.map 0x7000 0x1000 true true, .map 0x9000 0x2000 false true, .map 0xa000 0x401000 true true,
    .map 0xb000 0x1fff true true, .translate 0x1abc, .unmap 0x1234, .translate 0x1abc,
    .isWritable 0x2000, .translate 0x401fff, .mappedPages]

theorem run_twoSlots :
    (∀ request ∈ twoSlots, request.InRange) ∧
      ∃ t, run twoSlots empty
          = .ok ([.yesNo true, .yesNo true, .yesNo true, .yesNo false, .address (some 0x7abc),
            .done, .address none, .yesNo false, .address (some 0xafff), .count 2], t) ∧
        t.Refines (FlatPages.run twoSlots .empty).2 := by
  have hrange : ∀ request ∈ twoSlots, request.InRange := by
    simp [twoSlots, Request.InRange, pageOffset, pageSize]
  obtain ⟨t, hrun, h⟩ := run_empty hrange
  have hanswers : (FlatPages.run twoSlots .empty).1
      = [.yesNo true, .yesNo true, .yesNo true, .yesNo false, .address (some 0x7abc), .done,
        .address none, .yesNo false, .address (some 0xafff), .count 2] := by
    decide +kernel
  exact ⟨hrange, t, hanswers ▸ hrun, h⟩

end PageTable

end DemandPaging
