import DemandPaging.Elf.Encode
import DemandPaging.Proofs.Ensures
import Mathlib.Algebra.BigOperators.Ring.List
import Mathlib.Algebra.Ring.Nat

/-!
# Readers and what they take off

A reader that succeeds has taken something off the front of its input, and what it has taken off is
the value it returns, written down. Both directions are one equivalence here, one for each reader:
it returns a value and a rest exactly if the input is the value written down with the rest behind
it. Readers in turn are then read off as the pieces of an input in turn.

Underneath is the arithmetic of the two byte orders. Writing and reading numbers are inverse to each
other, so nothing is lost between bytes and numbers.

## Main definitions

* `Endianness.place` — the weight of the bytes of a number.
* `Endianness.valueAt` — the number at a place of an input.

## Main results

* `Endianness.encode_decode` — bytes are written back as they were read.
* `Endianness.decode_eq_valueAt` — a number is the sum of its bytes, by weight.
* `Reader.run_u16_eq_ok`, `Reader.run_u32_eq_ok`, … — what the readers of single elements take off.
-/

namespace DemandPaging

/-! ### Numbers and their bytes -/

namespace Endianness

theorem decode_little_cons (b : UInt8) (bytes : List UInt8) :
    little.decode (b :: bytes) = b.toNat + 256 * little.decode bytes := rfl

theorem decode_big (bytes : List UInt8) : big.decode bytes = little.decode bytes.reverse := rfl

theorem encode_big (size n : Nat) : big.encode size n = (little.encode size n).reverse := rfl

theorem encode_little_succ (size n : Nat) :
    little.encode (size + 1) n = UInt8.ofNat n :: little.encode size (n / 256) := by
  show (List.range (size + 1)).map (fun i => UInt8.ofNat (n / 256 ^ i)) = _
  rw [List.range_succ_eq_map, List.map_cons, List.map_map, Nat.pow_zero, Nat.div_one]
  refine congrArg _ (List.map_congr_left fun i _ => ?_)
  show UInt8.ofNat (n / 256 ^ (i + 1)) = UInt8.ofNat (n / 256 / 256 ^ i)
  rw [Nat.pow_succ, Nat.mul_comm, Nat.div_div_eq_div_mul]

theorem decode_lt (e : Endianness) (bytes : List UInt8) : e.decode bytes < 256 ^ bytes.length := by
  have hlittle : ∀ bytes : List UInt8, little.decode bytes < 256 ^ bytes.length := by
    intro bytes
    induction bytes with
    | nil => exact Nat.one_pos
    | cons b bytes ih =>
      have hb := b.toNat_lt
      rw [decode_little_cons, List.length_cons, Nat.pow_succ]
      omega
  cases e with
  | little => exact hlittle bytes
  | big =>
    rw [decode_big, ← List.length_reverse]
    exact hlittle bytes.reverse

/-- A number that was read is written back as it was. -/
theorem encode_decode (e : Endianness) (bytes : List UInt8) :
    e.encode bytes.length (e.decode bytes) = bytes := by
  have hlittle : ∀ bytes : List UInt8,
      little.encode bytes.length (little.decode bytes) = bytes := by
    intro bytes
    induction bytes with
    | nil => rfl
    | cons b bytes ih =>
      have hb : b.toNat < 256 := b.toNat_lt
      rw [List.length_cons, encode_little_succ, decode_little_cons,
        Nat.add_mul_div_left _ _ (by decide), Nat.div_eq_of_lt hb, Nat.zero_add, ih]
      refine congrArg (· :: bytes) (UInt8.toNat_inj.1 ?_)
      rw [UInt8.toNat_ofNat', Nat.add_mul_mod_self_left, Nat.mod_eq_of_lt hb]
  cases e with
  | little => exact hlittle bytes
  | big =>
    rw [decode_big, encode_big, ← List.length_reverse, hlittle, List.reverse_reverse]

/-- The byte that counts `256 ^ i` in a number of `size` bytes. -/
def place (e : Endianness) (size i : Nat) : Nat :=
  match e with
  | little => i
  | big => size - 1 - i

/-- The number of `size` bytes that begins `start` bytes into the input. -/
def valueAt (e : Endianness) (input : List UInt8) (start size : Nat) : Nat :=
  ((List.range size).map fun i =>
    (input.getD (start + e.place size i) 0).toNat * 256 ^ i).sum

/-- A number is the sum of its bytes, each with its weight. -/
theorem decode_eq_sum (e : Endianness) (bytes : List UInt8) :
    e.decode bytes = e.valueAt bytes 0 bytes.length := by
  have hlittle : ∀ bytes : List UInt8, little.decode bytes
      = ((List.range bytes.length).map fun i => (bytes.getD i 0).toNat * 256 ^ i).sum := by
    intro bytes
    induction bytes with
    | nil => rfl
    | cons b bytes ih =>
      rw [decode_little_cons, ih, List.length_cons, List.range_succ_eq_map, List.map_cons,
        List.map_map, List.sum_cons, ← List.sum_map_mul_left, List.getD_cons_zero, Nat.pow_zero,
        Nat.mul_one]
      refine congrArg (b.toNat + List.sum ·) (List.map_congr_left fun i _ => ?_)
      rw [Function.comp, List.getD_cons_succ, Nat.pow_succ', Nat.mul_left_comm]
  cases e with
  | little =>
    rw [hlittle, valueAt]
    simp only [Nat.zero_add, place]
  | big =>
    rw [decode_big, hlittle, valueAt, List.length_reverse]
    refine congrArg List.sum (List.map_congr_left fun i hi => ?_)
    rw [place, Nat.zero_add, List.getD_eq_getElem?_getD, List.getD_eq_getElem?_getD,
      List.getElem?_reverse (List.mem_range.1 hi)]

/-- A number that lies in the input is the one that its bytes are read as. -/
theorem decode_eq_valueAt (e : Endianness) {input : List UInt8} {start size : Nat}
    (h : start + size ≤ input.length) :
    e.decode ((input.drop start).take size) = e.valueAt input start size := by
  have hsize : ((input.drop start).take size).length = size := by
    rw [List.length_take, List.length_drop]
    omega
  rw [decode_eq_sum, hsize, valueAt, valueAt]
  refine congrArg List.sum (List.map_congr_left fun i hi => ?_)
  have hplace : e.place size i < size := by
    have := List.mem_range.1 hi
    cases e <;> simp only [place] <;> omega
  rw [List.getD_eq_getElem?_getD, List.getD_eq_getElem?_getD, Nat.zero_add,
    List.getElem?_take_of_lt hplace, List.getElem?_drop]

theorem valueAt_lt (e : Endianness) {input : List UInt8} {start size : Nat}
    (h : start + size ≤ input.length) : e.valueAt input start size < 256 ^ size := by
  have hlt := e.decode_lt ((input.drop start).take size)
  have hsize : ((input.drop start).take size).length = size := by
    rw [List.length_take, List.length_drop]
    omega
  rwa [decode_eq_valueAt e h, hsize] at hlt

end Endianness

/-! ### What readers take off -/

namespace Reader

variable {α β : Type} {e : Endianness} {input rest : List UInt8}

theorem run_bind_eq_ok {r : Reader α} {f : α → Reader β} {b : β} :
    (r >>= f).run input = .ok (b, rest) ↔
      ∃ a mid, r.run input = .ok (a, mid) ∧ (f a).run mid = .ok (b, rest) := by
  rw [StateT.run_bind]
  simp only [except_bind_eq_ok, Prod.exists]

theorem run_pure_eq_ok {a b : α} :
    (pure a : Reader α).run input = .ok (b, rest) ↔ a = b ∧ input = rest := by
  rw [StateT.run_pure]
  simp only [except_pure_eq_ok, Prod.mk.injEq]

theorem run_literal (expected input : List UInt8) : (literal expected).run input =
    if input.take expected.length = expected then .ok ((), input.drop expected.length)
    else .error ⟨.literal, input.length⟩ := by
  simp only [literal, StateT.run_bind, StateT.run_get, pure_bind]
  split <;> rfl

theorem run_take (count : Nat) (input : List UInt8) : (take count).run input =
    if count ≤ input.length then .ok (input.take count, input.drop count)
    else .error ⟨.missing, input.length⟩ := by
  simp only [take, StateT.run_bind, StateT.run_get, pure_bind]
  split <;> rfl

theorem run_literal_eq_ok {expected : List UInt8} {u : Unit} :
    (literal expected).run input = .ok (u, rest) ↔ input = expected ++ rest := by
  rw [run_literal]
  constructor
  · intro h
    split at h
    · rename_i htake
      cases h
      exact (List.take_append_drop expected.length input).symm.trans (congrArg (· ++ _) htake)
    · cases h
  · rintro rfl
    rw [List.take_left, if_pos rfl, List.drop_left]

theorem run_take_eq_ok {count : Nat} {bytes : List UInt8} :
    (take count).run input = .ok (bytes, rest) ↔ bytes.length = count ∧ input = bytes ++ rest := by
  rw [run_take]
  constructor
  · intro h
    split at h
    · rename_i hle
      cases h
      exact ⟨List.length_take_of_le hle, (List.take_append_drop count input).symm⟩
    · cases h
  · rintro ⟨rfl, rfl⟩
    rw [if_pos (by rw [List.length_append]; omega), List.take_left, List.drop_left]

theorem run_skip_eq_ok {count : Nat} {u : Unit} :
    (skip count).run input = .ok (u, rest) ↔
      ∃ bytes : List UInt8, bytes.length = count ∧ input = bytes ++ rest := by
  simp only [skip, run_bind_eq_ok, run_take_eq_ok, run_pure_eq_ok, true_and, exists_eq_right]

/-- Numbers of a fixed size, as values of a type that has just these numbers, are taken off as they
are written down. -/
theorem run_number_eq_ok {size : Nat} {ofNat : Nat → α} {toNat : α → Nat} {v : α}
    (hlt : ∀ a, toNat a < 256 ^ size) (htoNat : ∀ n < 256 ^ size, toNat (ofNat n) = n)
    (hofNat : ∀ a, ofNat (toNat a) = a) :
    (do return ofNat (e.decode (← take size)) : Reader α).run input = .ok (v, rest) ↔
      input = e.encode size (toNat v) ++ rest := by
  simp only [run_bind_eq_ok, run_pure_eq_ok, run_take_eq_ok]
  constructor
  · rintro ⟨bytes, _, ⟨rfl, rfl⟩, rfl, rfl⟩
    rw [htoNat _ (e.decode_lt bytes), e.encode_decode]
  · rintro rfl
    refine ⟨_, rest, ⟨e.length_encode size _, rfl⟩, ?_, rfl⟩
    rw [e.decode_encode]
    exact (congrArg ofNat (Nat.mod_eq_of_lt (hlt v))).trans (hofNat v)

theorem run_u8_eq_ok {v : UInt8} : u8.run input = .ok (v, rest) ↔ input = v :: rest := by
  have hbyte : Endianness.little.encode 1 v.toNat = [v] := by
    rw [Endianness.encode_little_succ, UInt8.ofNat_toNat]
    rfl
  have hrun : u8.run input = .ok (v, rest) ↔ input = Endianness.little.encode 1 v.toNat ++ rest :=
    run_number_eq_ok UInt8.toNat_lt (fun _ => UInt8.toNat_ofNat_of_lt') fun _ => UInt8.ofNat_toNat
  rw [hrun, hbyte, List.singleton_append]

theorem run_u16_eq_ok {v : UInt16} :
    (u16 e).run input = .ok (v, rest) ↔ input = e.encode 2 v.toNat ++ rest :=
  run_number_eq_ok UInt16.toNat_lt (fun _ => UInt16.toNat_ofNat_of_lt') fun _ => UInt16.ofNat_toNat

theorem run_u32_eq_ok {v : UInt32} :
    (u32 e).run input = .ok (v, rest) ↔ input = e.encode 4 v.toNat ++ rest :=
  run_number_eq_ok UInt32.toNat_lt (fun _ => UInt32.toNat_ofNat_of_lt') fun _ => UInt32.ofNat_toNat

/-- Anything that is made of the bytes of an element, at a place in an input. -/
theorem run_map_take {start count : Nat} (hpos : 0 < count) (value : List UInt8 → α) :
    (do return value (← take count) : Reader α).run (input.drop start)
      = if input.length < start + count then .error ⟨.missing, input.length - start⟩
        else .ok (value ((input.drop start).take count), input.drop (start + count)) := by
  rw [StateT.run_bind, run_take, List.length_drop, List.drop_drop]
  split
  · rw [if_neg (by omega)]
    rfl
  · rw [if_pos (by omega)]
    rfl

/-- A byte is read as itself. -/
theorem decode_take_one (input : List UInt8) (start : Nat) :
    UInt8.ofNat (Endianness.little.decode ((input.drop start).take 1)) = input.getD start 0 := by
  rw [List.getD_eq_getElem?_getD, ← Nat.add_zero start, ← List.getElem?_drop, Nat.add_zero]
  cases input.drop start with
  | nil => rfl
  | cons b rest =>
    rw [List.take_succ_cons, List.take_zero, Endianness.decode_little_cons]
    exact UInt8.ofNat_toNat

theorem run_select (element : Reader α) (meaning : α → Option β) (input : List UInt8) :
    (select element meaning).run input = element.run input >>= fun x =>
      match meaning x.1 with
      | some b => .ok (b, x.2)
      | none => .error ⟨.value, input.length⟩ := by
  simp only [select, StateT.run_bind, StateT.run_get, pure_bind]
  refine bind_congr fun x => ?_
  cases meaning x.1 <;> rfl

/-- A value that stands for something is taken off like any other. -/
theorem run_select_eq_ok {element : Reader α} {meaning : α → Option β} {b : β} :
    (select element meaning).run input = .ok (b, rest) ↔
      ∃ a, element.run input = .ok (a, rest) ∧ meaning a = some b := by
  simp only [run_select, except_bind_eq_ok, Prod.exists]
  constructor
  · rintro ⟨a, mid, hrun, h⟩
    split at h
    · cases h
      exact ⟨a, hrun, ‹_›⟩
    · cases h
  · rintro ⟨a, hrun, hmeaning⟩
    exact ⟨a, rest, hrun, by rw [hmeaning]⟩

end Reader

end DemandPaging
