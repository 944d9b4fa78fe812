/-!
# Fields of a word

Hardware words pack flags and small numbers side by side. A field is a run of bits; reading takes
the run out, writing replaces it and leaves every other bit alone, so bits that no field covers
survive any number of writes.

## Main definitions

* `flag`, `setFlag` — one bit of a word.
* `field`, `setField` — a run of bits of a word.

## Main results

* `flag_setFlag_self`, `field_setField_self` — a write is read back.
* `getLsbD_setFlag`, `getLsbD_setField` — every other bit is kept.
-/

namespace DemandPaging.Word

variable {n : Nat}

/-- Bit `i` of a word. -/
def flag (w : BitVec n) (i : Nat) : Bool := w.getLsbD i

/-- The word with bit `i` set to `b`. -/
def setFlag (w : BitVec n) (i : Nat) (b : Bool) : BitVec n :=
  if b then w ||| BitVec.twoPow n i else w &&& ~~~BitVec.twoPow n i

/-- The `width` bits of a word from bit `low` on. -/
def field (w : BitVec n) (low width : Nat) : BitVec width := w.extractLsb' low width

/-- The word with the bits from `low` on replaced by `v`. -/
def setField (w : BitVec n) (low : Nat) {width : Nat} (v : BitVec width) : BitVec n :=
  (w &&& ~~~((BitVec.allOnes width).setWidth n <<< low)) ||| (v.setWidth n <<< low)

/-! ### Bits after a write -/

theorem getLsbD_setFlag (w : BitVec n) (i j : Nat) (b : Bool) :
    (setFlag w i b).getLsbD j = if j = i then b && decide (i < n) else w.getLsbD j := by
  unfold setFlag
  by_cases hj : j < n
  · by_cases h : j = i
    · subst h
      cases b <;> simp [hj]
    · cases b <;> simp [hj, h]
  · have hw : w.getLsbD j = false := BitVec.getLsbD_of_ge _ _ (Nat.le_of_not_lt hj)
    rw [BitVec.getLsbD_of_ge _ _ (Nat.le_of_not_lt hj), hw]
    by_cases h : j = i
    · subst h; simp [hj]
    · simp [h]

theorem getLsbD_setField (w : BitVec n) (low : Nat) {width : Nat} (v : BitVec width) (j : Nat) :
    (setField w low v).getLsbD j =
      if low ≤ j ∧ j < low + width then v.getLsbD (j - low) && decide (j < n)
      else w.getLsbD j := by
  unfold setField
  by_cases hj : j < n
  · by_cases hl : low ≤ j
    · by_cases hu : j < low + width
      · have : j - low < width := by omega
        simp [hj, hl, hu, this, Nat.not_lt.2 hl]
      · have : width ≤ j - low := by omega
        simp [hj, hu, BitVec.getLsbD_of_ge _ _ this]
    · simp [hj, hl, Nat.lt_of_not_le hl]
  · have hw : w.getLsbD j = false := BitVec.getLsbD_of_ge _ _ (Nat.le_of_not_lt hj)
    rw [BitVec.getLsbD_of_ge _ _ (Nat.le_of_not_lt hj), hw]
    simp [hj]

theorem flag_setFlag_self {w : BitVec n} {i : Nat} {b : Bool} (h : i < n) :
    flag (setFlag w i b) i = b := by
  rw [flag, getLsbD_setFlag]
  simp [h]

theorem flag_setField_of_lt {w : BitVec n} {low width j : Nat} {v : BitVec width} (h : j < low) :
    flag (setField w low v) j = flag w j := by
  rw [flag, getLsbD_setField, if_neg (by omega), flag]

theorem field_setField_self {w : BitVec n} {low width : Nat} {v : BitVec width}
    (h : low + width ≤ n) : field (setField w low v) low width = v := by
  apply BitVec.eq_of_getLsbD_eq
  intro i hi
  have : low + i < n := by omega
  rw [field, BitVec.getLsbD_extractLsb', getLsbD_setField]
  simp [hi, this]

theorem field_setFlag_of_lt {w : BitVec n} {low width j : Nat} {b : Bool} (h : j < low) :
    field (setFlag w j b) low width = field w low width := by
  apply BitVec.eq_of_getLsbD_eq
  intro i hi
  have : low + i ≠ j := by omega
  rw [field, field, BitVec.getLsbD_extractLsb', BitVec.getLsbD_extractLsb', getLsbD_setFlag,
    if_neg this]

end DemandPaging.Word
