import DemandPaging.Pager.Mapping
import DemandPaging.Proofs.Ensures

/-!
# The laws of the page map

A page map is looked at through its entries by page address. Declaring a page adds one entry where
there was none. Declaring the pages of a mapping adds a run of them, and taking back the ones that
were declared before a page was found in use leaves the map as it was.

## Main results

* `PageMap.tryDeclare_eq_ok` — declaring a page, by its two outcomes.
* `PageMap.removeRun_declareMapped` — a mapping that overlaps is taken back completely.
* `PageMap.getElem?_declareMapped` — the entries after a mapping was declared.
-/

namespace DemandPaging

theorem pageFloor_of_pageOffset {page : Nat} (h : pageOffset page = 0) : pageFloor page = page := by
  have := pageFloor_add_pageOffset page
  rwa [h, Nat.add_zero] at this

theorem pageOffset_add_pageSize {page : Nat} (h : pageOffset page = 0) :
    pageOffset (page + pageSize) = 0 := by
  rw [pageOffset, Nat.add_mod_right]
  exact h

theorem pageOffset_sub_pageSize {n : Nat} (h : pageSize ≤ n) :
    pageOffset (n - pageSize) = pageOffset n :=
  (Nat.mod_eq_sub_mod h).symm

theorem saturatingAdd_eq (a b : Nat) : saturatingAdd a b = min (a + b) (2 ^ 64 - 1) := rfl

namespace PageRun

/-- A page of a range begins before the range ends. -/
theorem lt_of_lt_count {start length i : Nat} (h : start + length < 2 ^ 64)
    (hi : i < (spanning start length).count) : pageFloor start + i * pageSize < start + length := by
  have hle := pageFloor_le start
  simp only [spanning, saturatingAdd_eq, pageSize] at *
  omega

theorem count_spanning_mul {start k : Nat} (hstart : pageOffset start = 0)
    (h : start + k * pageSize < 2 ^ 64) : (spanning start (k * pageSize)).count = k := by
  have hfloor := pageFloor_of_pageOffset hstart
  simp only [spanning, saturatingAdd_eq, hfloor]
  simp only [pageSize] at *
  omega

end PageRun

namespace PageMap

variable {m m' : PageMap} {page : Nat} {source : PageSource} {writable : Bool}

theorem getElem?_set (m : PageMap) (addr k : Nat) (e : PageEntry) :
    (m.set addr e).entries[k]? = if pageFloor addr = k then some e else m.entries[k]? := by
  simp [set, Std.ExtTreeMap.getElem?_insert]

theorem getElem?_erase (m : PageMap) (page k : Nat) :
    (m.entries.erase page)[k]? = if page = k then none else m.entries[k]? := by
  simp [Std.ExtTreeMap.getElem?_erase]

theorem erase_of_getElem? (h : m.entries[page]? = none) :
    (⟨m.entries.erase page⟩ : PageMap) = m := by
  obtain ⟨entries⟩ := m
  congr 1
  ext k
  rw [getElem?_erase]
  split
  · rename_i hk
    rw [← hk, h]
  · rfl

/-- A page with a permitted declaration lies on a page boundary. -/
theorem pageOffset_of_checkDeclaration (h : checkDeclaration page source = .ok ()) :
    pageOffset page = 0 := by
  by_cases hpage : pageOffset page = 0
  · exact hpage
  · simp [checkDeclaration, hpage] at h

/-- Declaring a page changes nothing if it is declared, and otherwise adds one entry. -/
theorem tryDeclare_eq_ok {added : Bool} :
    m.tryDeclare page source writable = .ok (added, m') ↔
      checkDeclaration page source = .ok () ∧
        ((added = false ∧ m.entries[page]?.isSome ∧ m' = m) ∨
          (added = true ∧ m.entries[page]? = none ∧ m' = m.set page (.fresh source writable))) := by
  rw [tryDeclare]
  simp only [except_bind_eq_ok, except_ite_eq_ok, except_pure_eq_ok, Prod.mk.injEq,
    Std.ExtTreeMap.contains_eq_isSome_getElem?, Option.not_isSome_iff_eq_none]
  constructor
  · rintro ⟨_, hc, ⟨hin, rfl, rfl⟩ | ⟨hout, rfl, rfl⟩⟩
    · exact ⟨hc, .inl ⟨rfl, hin, rfl⟩⟩
    · exact ⟨hc, .inr ⟨rfl, hout, rfl⟩⟩
  · rintro ⟨hc, ⟨rfl, hin, rfl⟩ | ⟨rfl, hout, rfl⟩⟩
    · exact ⟨(), hc, .inl ⟨hin, rfl, rfl⟩⟩
    · exact ⟨(), hc, .inr ⟨hout, rfl, rfl⟩⟩

/-! ### Runs of pages -/

theorem erase_erase (m : PageMap) (j k : Nat) :
    (⟨(m.entries.erase j).erase k⟩ : PageMap) = ⟨(m.entries.erase k).erase j⟩ := by
  congr 1
  ext i
  simp only [Std.ExtTreeMap.getElem?_erase]
  split <;> split <;> rfl

theorem removeRun_erase (m : PageMap) (page count k : Nat) :
    removeRun page count ⟨m.entries.erase k⟩ = ⟨(removeRun page count m).entries.erase k⟩ := by
  induction count generalizing page m with
  | zero => rfl
  | succ count ih =>
    rw [removeRun, removeRun, remove, remove, erase_erase]
    exact ih ⟨m.entries.erase (pageFloor page)⟩ (page + pageSize)

theorem erase_set (h : m.entries[page]? = none) (hpage : pageOffset page = 0) (e : PageEntry) :
    (⟨(m.set page e).entries.erase page⟩ : PageMap) = m := by
  obtain ⟨entries⟩ := m
  congr 1
  ext i
  rw [getElem?_erase, getElem?_set, pageFloor_of_pageOffset hpage]
  split
  · rename_i hi
    rw [← hi, h]
  · rfl

theorem getElem?_removeRun (hpage : pageOffset page = 0) (count k : Nat) :
    (removeRun page count m).entries[k]?
      = if ∃ i < count, k = page + i * pageSize then none else m.entries[k]? := by
  induction count generalizing page m with
  | zero => simp [removeRun]
  | succ count ih =>
    rw [removeRun, remove, ih (pageOffset_add_pageSize hpage), pageFloor_of_pageOffset hpage,
      getElem?_erase]
    have hiff : (∃ i < count + 1, k = page + i * pageSize) ↔
        page = k ∨ ∃ i < count, k = page + pageSize + i * pageSize := by
      constructor
      · rintro ⟨i, hi, rfl⟩
        cases i with
        | zero => exact .inl (by omega)
        | succ i => exact .inr ⟨i, Nat.lt_of_succ_lt_succ hi, by rw [Nat.succ_mul]; omega⟩
      · rintro (rfl | ⟨i, hi, rfl⟩)
        · exact ⟨0, Nat.succ_pos count, by omega⟩
        · exact ⟨i + 1, Nat.succ_lt_succ hi, by rw [Nat.succ_mul]; omega⟩
    simp only [hiff]
    by_cases hk : page = k <;> simp [hk]

/-- If declaring a mapping stops at a page that is in use, then the pages before that one were
declared, and taking them back restores the map. -/
theorem removeRun_declareMapped {id : Nat} {file : Handle} {i count q : Nat}
    (h : declareMapped id file page i count m = .ok (some q, m')) :
    ∃ k < count, q = page + k * pageSize ∧ removeRun page k m' = m := by
  induction count generalizing page i m with
  | zero => simp [declareMapped] at h
  | succ count ih =>
    rw [declareMapped] at h
    simp only [except_bind_eq_ok, Prod.exists] at h
    obtain ⟨added, m₁, hdecl, h⟩ := h
    obtain ⟨hcheck, ⟨rfl, -, rfl⟩ | ⟨rfl, hnone, rfl⟩⟩ := tryDeclare_eq_ok.1 hdecl
    · simp only [Bool.false_eq_true, if_false, except_pure_eq_ok, Prod.mk.injEq,
        Option.some.injEq] at h
      obtain ⟨rfl, rfl⟩ := h
      exact ⟨0, Nat.succ_pos count, by simp, rfl⟩
    · have hpage := pageOffset_of_checkDeclaration hcheck
      obtain ⟨k, hk, rfl, hback⟩ := ih h
      refine ⟨k + 1, Nat.succ_lt_succ hk, by rw [Nat.succ_mul]; omega, ?_⟩
      rw [removeRun, remove, pageFloor_of_pageOffset hpage, removeRun_erase, hback,
        erase_set hnone hpage]

/-- The same where the run is that of a whole file, and is taken back by its length. -/
theorem removeRun_of_overlap {id length q : Nat} {file : Handle} (hpage : pageOffset page = 0)
    (hfits : page + length < 2 ^ 64)
    (h : declareMapped id file (PageRun.spanning page length).first 0
      (PageRun.spanning page length).count m = .ok (some q, m')) :
    removeRun (PageRun.spanning page (q - page)).first (PageRun.spanning page (q - page)).count m'
      = m := by
  have hfirst : ∀ size, (PageRun.spanning page size).first = page :=
    fun _ => pageFloor_of_pageOffset hpage
  rw [hfirst] at h ⊢
  obtain ⟨k, hk, rfl, hback⟩ := removeRun_declareMapped h
  have hlt := PageRun.lt_of_lt_count hfits hk
  rw [pageFloor_of_pageOffset hpage] at hlt
  rw [Nat.add_sub_cancel_left, PageRun.count_spanning_mul hpage (Nat.lt_trans hlt hfits), hback]

/-- If declaring a mapping goes through, then none of its pages was in use, each of them reads its
own page of the file now, and the other entries are as they were. -/
theorem getElem?_declareMapped {id : Nat} {file : Handle} {i count : Nat}
    (h : declareMapped id file page i count m = .ok (none, m')) :
    (∀ j < count, m.entries[page + j * pageSize]? = none ∧ m'.entries[page + j * pageSize]?
      = some (.fresh (.mapped id file ((i + j) * pageSize)) true)) ∧
    ∀ k, (∀ j < count, k ≠ page + j * pageSize) → m'.entries[k]? = m.entries[k]? := by
  induction count generalizing page i m with
  | zero =>
    cases h
    exact ⟨fun j hj => absurd hj (Nat.not_lt_zero j), fun k _ => rfl⟩
  | succ count ih =>
    rw [declareMapped] at h
    simp only [except_bind_eq_ok, Prod.exists] at h
    obtain ⟨added, m₁, hdecl, h⟩ := h
    obtain ⟨hcheck, ⟨rfl, -, rfl⟩ | ⟨rfl, hnone, rfl⟩⟩ := tryDeclare_eq_ok.1 hdecl
    · simp at h
    have hset := fun k => getElem?_set m page k (.fresh (.mapped id file (i * pageSize)) true)
    rw [pageFloor_of_pageOffset (pageOffset_of_checkDeclaration hcheck)] at hset
    have hsucc : ∀ j, page + (j + 1) * pageSize = page + pageSize + j * pageSize := by
      intro j
      rw [Nat.succ_mul]
      omega
    simp only [if_true] at h
    obtain ⟨hnew, hold⟩ := ih h
    constructor
    · intro j hj
      cases j with
      | zero =>
        have hstays := hold page fun j _ => by rw [pageSize]; omega
        rw [Nat.zero_mul, Nat.add_zero, Nat.add_zero, hstays, hset, if_pos rfl]
        exact ⟨hnone, rfl⟩
      | succ j =>
        obtain ⟨hfree, hdeclared⟩ := hnew j (Nat.lt_of_succ_lt_succ hj)
        rw [hset, if_neg (by rw [pageSize]; omega)] at hfree
        have hplace : i + (j + 1) = i + 1 + j := by omega
        rw [hsucc, hplace]
        exact ⟨hfree, hdeclared⟩
    · intro k hk
      have hrest := hold k fun j hj => hsucc j ▸ hk (j + 1) (Nat.succ_lt_succ hj)
      rw [hrest, hset, if_neg fun heq => hk 0 (Nat.succ_pos count) (by omega)]

end PageMap

end DemandPaging
