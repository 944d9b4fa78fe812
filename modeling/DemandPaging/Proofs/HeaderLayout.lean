import DemandPaging.Proofs.Outcomes
import DemandPaging.Proofs.Readers

/-!
# The layout of a header

A header is fourteen elements in a row. Each has a place of its own, and what can be wrong with an
element can be told from the input without reading anything: bytes that have to be there are not,
a value stands for nothing, or the input ends too early. The parser reads one element after the
other, so what it reports is the first element that is at fault, and a header without faults is what
stands at the places of its fields.

The places do not depend on the input. Two elements are read in an order of bytes that a third one
says, but how far an element reaches is the same in both orders.

## Main definitions

* `ElfHeader.Element`, `ElfHeader.Element.fault` — the elements, and what is wrong with them.
* `ElfHeader.WellFormed` — the inputs that begin with a header.
* `ElfHeader.StandsIn` — the fields of a header are what stands at their places.
* `ElfHeader.ParsedByLayout` — what the parser makes of an input.

## Main results

* `ElfHeader.parse_eq` — the parser checks the elements in turn.
* `ElfHeader.parsed_by_layout` — it accepts the well-formed inputs and no others.
-/

namespace DemandPaging

/-! ### Values that stand for something -/

theorem ElfHeader.endiannessOfCode_eq_some {c : UInt8} {e : Endianness} :
    endiannessOfCode c = some e ↔ c = e.code := by
  constructor
  · intro h
    unfold endiannessOfCode at h
    split at h <;> cases h <;> rfl
  · rintro rfl
    cases e <;> rfl

theorem ElfHeader.isSome_endiannessOfCode {c : UInt8} :
    (endiannessOfCode c).isSome ↔ c = 1 ∨ c = 2 := by
  rw [Option.isSome_iff_exists]
  constructor
  · rintro ⟨e, h⟩
    obtain rfl := endiannessOfCode_eq_some.1 h
    cases e
    · exact .inl rfl
    · exact .inr rfl
  · rintro (rfl | rfl)
    · exact ⟨.little, rfl⟩
    · exact ⟨.big, rfl⟩

theorem ElfHeader.getD_endiannessOfCode (c : UInt8) :
    (endiannessOfCode c).getD .little = if c = 2 then .big else .little := by
  unfold endiannessOfCode
  split
  · rfl
  · rfl
  · rw [if_neg ‹_›]
    rfl

theorem ElfUsage.ofCode_eq_some {c : UInt16} {u : ElfUsage} : ofCode c = some u ↔ c = u.code := by
  constructor
  · intro h
    unfold ofCode at h
    split at h <;> cases h <;> rfl
  · rintro rfl
    cases u <;> rfl

theorem ElfUsage.isSome_ofCode {c : UInt16} : (ofCode c).isSome ↔ 1 ≤ c.toNat ∧ c.toNat ≤ 4 := by
  rw [Option.isSome_iff_exists]
  constructor
  · rintro ⟨u, h⟩
    obtain rfl := ofCode_eq_some.1 h
    cases u <;> decide
  · rintro ⟨hpos, hle⟩
    have hcases : c.toNat = 1 ∨ c.toNat = 2 ∨ c.toNat = 3 ∨ c.toNat = 4 := by omega
    rcases hcases with h | h | h | h
    · exact ⟨.relocatable, ofCode_eq_some.2 (UInt16.toNat_inj.1 h)⟩
    · exact ⟨.executable, ofCode_eq_some.2 (UInt16.toNat_inj.1 h)⟩
    · exact ⟨.shared, ofCode_eq_some.2 (UInt16.toNat_inj.1 h)⟩
    · exact ⟨.core, ofCode_eq_some.2 (UInt16.toNat_inj.1 h)⟩

theorem ElfMachine.code_ofCode (c : UInt16) : (ofCode c).code = c := by
  rw [ofCode]
  repeat' split
  all_goals (subst_vars; rfl)

namespace ElfHeader

/-! ### Elements -/

/-- The elements of a header. Three of them are passed over. -/
inductive Element
  | magic
  | width
  | byteOrder
  | headerVersion
  | ident
  | usage
  | machine
  | elfVersion
  | programEntry
  | programHeadersOffset
  | sections
  | programHeaderEntrySize
  | programHeaderCount
  | strings
  deriving DecidableEq, Repr

/-- The order of bytes that an input says. -/
def byteOrder (input : List UInt8) : Endianness :=
  if input.getD 5 0 = 2 then .big else .little

namespace Element

/-- The elements in the order of the layout. -/
def all : List Element :=
  [magic, width, byteOrder, headerVersion, ident, usage, machine, elfVersion, programEntry,
    programHeadersOffset, sections, programHeaderEntrySize, programHeaderCount, strings]

/-- Where an element begins. -/
def start : Element → Nat
  | magic => 0
  | width => 4
  | byteOrder => 5
  | headerVersion => 6
  | ident => 7
  | usage => 16
  | machine => 18
  | elfVersion => 20
  | programEntry => 24
  | programHeadersOffset => 28
  | sections => 32
  | programHeaderEntrySize => 42
  | programHeaderCount => 44
  | strings => 46

/-- How many bytes an element has. -/
def size : Element → Nat
  | magic => 4
  | width | byteOrder | headerVersion => 1
  | ident => 9
  | usage | machine | programHeaderEntrySize | programHeaderCount => 2
  | elfVersion | programEntry | programHeadersOffset => 4
  | sections => 10
  | strings => 6

/-- What is wrong with an element. The magic number and the class are wrong, too, if the input ends
in the middle of them. -/
def fault (input : List UInt8) : Element → Option ReadErrorKind
  | magic => if input.take 4 = [0x7F, 0x45, 0x4C, 0x46] then none else some .literal
  | width => if (input.drop 4).take 1 = [1] then none else some .literal
  | byteOrder =>
    if input.length < 6 then some .missing
    else if input.getD 5 0 = 1 ∨ input.getD 5 0 = 2 then none
    else some .value
  | usage =>
    let code := (ElfHeader.byteOrder input).valueAt input 16 2
    if input.length < 18 then some .missing
    else if 1 ≤ code ∧ code ≤ 4 then none
    else some .value
  | element => if input.length < element.start + element.size then some .missing else none

/-- Fails as the parser fails at an element with a fault. -/
def check (input : List UInt8) (element : Element) : Except ReadError Unit :=
  match element.fault input with
  | none => .ok ()
  | some kind => .error ⟨kind, input.length - element.start⟩

theorem mem_all (element : Element) : element ∈ all := by cases element <;> decide

/-- The elements are in the order of their places. -/
theorem pairwise_all : all.Pairwise fun x y => x.start < y.start := by decide

/-- Every element but the first begins where another one ends. -/
theorem start_eq (element : Element) : element.start = 0 ∨ ∃ before ∈ all,
    before.start < element.start ∧ before.start + before.size = element.start := by
  cases element <;> decide

variable {input : List UInt8} {element : Element}

/-- Nothing can be wrong with the element but that the input ends too early. -/
def Plain (element : Element) : Prop := ∀ input : List UInt8,
  element.fault input = if input.length < element.start + element.size then some .missing else none

theorem Plain.fault_eq_none (hplain : element.Plain) :
    element.fault input = none ↔ element.start + element.size ≤ input.length := by
  rw [hplain input, ← Nat.not_lt]
  simp

theorem fault_magic_eq_none :
    magic.fault input = none ↔ input.take 4 = [0x7F, 0x45, 0x4C, 0x46] := by
  rw [fault]
  simp

theorem fault_width_eq_none : width.fault input = none ↔ (input.drop 4).take 1 = [1] := by
  rw [fault]
  simp

theorem fault_byteOrder_eq_none : byteOrder.fault input = none ↔
    6 ≤ input.length ∧ (input.getD 5 0 = 1 ∨ input.getD 5 0 = 2) := by
  rw [fault]
  split
  · simp [*]
  · split <;> simp_all

theorem fault_usage_eq_none : usage.fault input = none ↔ 18 ≤ input.length ∧
    1 ≤ (ElfHeader.byteOrder input).valueAt input 16 2 ∧
    (ElfHeader.byteOrder input).valueAt input 16 2 ≤ 4 := by
  rw [fault]
  split
  · simp [*]
  · split <;> simp_all

/-- An element without a fault lies in the input. -/
theorem le_of_fault_eq_none (h : element.fault input = none) :
    element.start + element.size ≤ input.length := by
  have htake : ∀ {l bytes : List UInt8} {n : Nat}, l.take n = bytes → bytes.length = n →
      n ≤ l.length := by
    rintro l bytes n rfl hlength
    rw [List.length_take] at hlength
    omega
  cases element with
  | magic => exact htake (fault_magic_eq_none.1 h) rfl
  | width =>
    have hle := htake (fault_width_eq_none.1 h) rfl
    rw [List.length_drop] at hle
    show 4 + 1 ≤ input.length
    omega
  | byteOrder => exact (fault_byteOrder_eq_none.1 h).1
  | usage => exact (fault_usage_eq_none.1 h).1
  | _ => exact Plain.fault_eq_none (fun _ => rfl) |>.1 h

/-! ### The first fault -/

/-- The checks are passed if there is no fault. -/
theorem forM_check_eq_ok {elements : List Element} :
    forM elements (check input) = .ok () ↔ ∀ element ∈ elements, element.fault input = none := by
  induction elements with
  | nil => exact ⟨fun _ => nofun, fun _ => rfl⟩
  | cons element rest ih =>
    rw [List.forM_cons, List.forall_mem_cons, ← ih, check]
    cases element.fault input with
    | none => exact (and_iff_right rfl).symm
    | some kind => exact ⟨nofun, nofun⟩

/-- The checks end at the first fault. -/
theorem forM_check_eq_error {elements : List Element} {e : ReadError}
    (hsorted : elements.Pairwise fun x y => x.start < y.start) :
    forM elements (check input) = .error e ↔ ∃ element ∈ elements,
      element.fault input = some e.kind ∧ e.left = input.length - element.start ∧
        ∀ before ∈ elements, before.start < element.start → before.fault input = none := by
  induction elements with
  | nil => exact ⟨nofun, nofun⟩
  | cons first rest ih =>
    obtain ⟨hfirst, hrest⟩ := List.pairwise_cons.1 hsorted
    rw [List.forM_cons, check]
    cases hfault : first.fault input with
    | none =>
      -- the first fault is behind the first element
      refine (ih hrest).trans ⟨?_, ?_⟩
      · rintro ⟨element, hmem, hkind, hleft, hbefore⟩
        exact ⟨element, List.mem_cons_of_mem _ hmem, hkind, hleft,
          List.forall_mem_cons.2 ⟨fun _ => hfault, hbefore⟩⟩
      · rintro ⟨element, hmem, hkind, hleft, hbefore⟩
        rcases List.mem_cons.1 hmem with rfl | hmem
        · rw [hfault] at hkind
          cases hkind
        · exact ⟨element, hmem, hkind, hleft, (List.forall_mem_cons.1 hbefore).2⟩
    | some kind =>
      refine Iff.trans (b := (⟨kind, input.length - first.start⟩ : ReadError) = e)
        ⟨fun h => Except.error.inj h, congrArg _⟩ ⟨?_, ?_⟩
      · rintro rfl
        refine ⟨first, List.mem_cons_self, hfault, rfl, ?_⟩
        refine List.forall_mem_cons.2 ⟨fun hlt => absurd hlt (Nat.lt_irrefl _), ?_⟩
        exact fun before hmem hlt => absurd (hfirst before hmem) (Nat.lt_asymm hlt)
      · rintro ⟨element, hmem, hkind, hleft, hbefore⟩
        rcases List.mem_cons.1 hmem with rfl | hmem
        · obtain ⟨kind', left⟩ := e
          obtain rfl : kind = kind' := Option.some.inj (hfault.symm.trans hkind)
          exact congrArg (ReadError.mk kind) hleft.symm
        · rw [(List.forall_mem_cons.1 hbefore).1 (hfirst element hmem)] at hfault
          cases hfault

/-! ### Elements are read at their places -/

/-- The bytes of an element. -/
def bytes (input : List UInt8) (element : Element) : List UInt8 :=
  (input.drop element.start).take element.size

/-- The number that an element is read as is the one that stands at its place. -/
theorem toNat_u16 (element : Element) (e : Endianness) (hsize : element.size = 2)
    (hin : element.start + element.size ≤ input.length) :
    (UInt16.ofNat (e.decode (element.bytes input))).toNat = e.valueAt input element.start 2 := by
  rw [hsize] at hin
  rw [bytes, hsize, e.decode_eq_valueAt hin]
  exact UInt16.toNat_ofNat_of_lt' (e.valueAt_lt hin)

theorem toNat_u32 (element : Element) (e : Endianness) (hsize : element.size = 4)
    (hin : element.start + element.size ≤ input.length) :
    (UInt32.ofNat (e.decode (element.bytes input))).toNat = e.valueAt input element.start 4 := by
  rw [hsize] at hin
  rw [bytes, hsize, e.decode_eq_valueAt hin]
  exact UInt32.toNat_ofNat_of_lt' (e.valueAt_lt hin)

variable {α : Type} {next : Nat}

/-- A value that is made of the bytes of a plain element. -/
theorem run_plain (input : List UInt8) (hplain : element.Plain)
    (hnext : element.start + element.size = next) (hpos : 0 < element.size)
    (value : List UInt8 → α) :
    (do return value (← Reader.take element.size) : Reader α).run (input.drop element.start)
      = element.check input >>= fun _ => .ok (value (element.bytes input), input.drop next) := by
  rw [Reader.run_map_take hpos, check, hplain input, hnext]
  split <;> rfl

theorem run_skip (element : Element) (next count : Nat) (hplain : element.Plain)
    (hnext : element.start + element.size = next) (hsize : element.size = count)
    (hpos : 0 < count) : (Reader.skip count).run (input.drop element.start)
      = element.check input >>= fun _ => .ok ((), input.drop next) := by
  have hrun := run_plain input hplain hnext (hsize ▸ hpos) fun _ => ()
  rwa [hsize] at hrun

theorem run_u8 (element : Element) (next : Nat) (hplain : element.Plain)
    (hnext : element.start + element.size = next) (hsize : element.size = 1) :
    Reader.u8.run (input.drop element.start) = element.check input >>= fun _ =>
      .ok (UInt8.ofNat (Endianness.little.decode (element.bytes input)), input.drop next) := by
  have hrun := run_plain input hplain hnext (hsize ▸ Nat.one_pos) fun bytes =>
    UInt8.ofNat (Endianness.little.decode bytes)
  rwa [hsize] at hrun

theorem run_u16 (element : Element) (next : Nat) (hplain : element.Plain)
    (hnext : element.start + element.size = next) (hsize : element.size = 2) (e : Endianness) :
    (Reader.u16 e).run (input.drop element.start) = element.check input >>= fun _ =>
      .ok (UInt16.ofNat (e.decode (element.bytes input)), input.drop next) := by
  have hrun := run_plain input hplain hnext (hsize ▸ Nat.two_pos) fun bytes =>
    UInt16.ofNat (e.decode bytes)
  rwa [hsize] at hrun

theorem run_u32 (element : Element) (next : Nat) (hplain : element.Plain)
    (hnext : element.start + element.size = next) (hsize : element.size = 4) (e : Endianness) :
    (Reader.u32 e).run (input.drop element.start) = element.check input >>= fun _ =>
      .ok (UInt32.ofNat (e.decode (element.bytes input)), input.drop next) := by
  have hrun := run_plain input hplain hnext (hsize ▸ Nat.zero_lt_succ 3) fun bytes =>
    UInt32.ofNat (e.decode bytes)
  rwa [hsize] at hrun

theorem run_magic : (Reader.literal ElfHeader.magic).run input
    = magic.check input >>= fun _ => .ok ((), input.drop width.start) := by
  rw [Reader.run_literal, check, fault]
  by_cases h : input.take 4 = [0x7F, 0x45, 0x4C, 0x46]
  · rw [if_pos h]
    exact if_pos h
  · rw [if_neg h]
    exact if_neg h

theorem run_width : (Reader.literal [1]).run (input.drop width.start)
    = width.check input >>= fun _ => .ok ((), input.drop byteOrder.start) := by
  rw [Reader.run_literal, check, fault, List.length_drop, List.drop_drop]
  by_cases h : (input.drop 4).take 1 = [1]
  · rw [if_pos h]
    exact if_pos h
  · rw [if_neg h]
    exact if_neg h

/-- A value that has to stand for something. Where it does not, there is a fault, and what would be
read does not matter. -/
theorem run_select {β : Type} (element : Element) (next : Nat)
    (hnext : element.start + element.size = next) (hpos : 0 < element.size)
    (value : List UInt8 → α) (meaning : α → Option β) (b : β)
    (hfault : element.fault input = if input.length < next then some .missing
      else if (meaning (value (element.bytes input))).isSome then none else some .value) :
    (Reader.select (do return value (← Reader.take element.size)) meaning).run
        (input.drop element.start)
      = element.check input >>= fun _ =>
        .ok ((meaning (value (element.bytes input))).getD b, input.drop next) := by
  rw [Reader.run_select, Reader.run_map_take hpos, List.length_drop, hnext, check, hfault, bytes]
  split
  · rfl
  · simp only [except_ok_bind]
    cases meaning (value ((input.drop element.start).take element.size)) <;> rfl

theorem run_byteOrder :
    (Reader.select Reader.u8 endiannessOfCode).run (input.drop byteOrder.start)
      = byteOrder.check input >>= fun _ =>
        .ok (ElfHeader.byteOrder input, input.drop headerVersion.start) := by
  have hcode : UInt8.ofNat (Endianness.little.decode (byteOrder.bytes input)) = input.getD 5 0 :=
    Reader.decode_take_one input 5
  have hfault : byteOrder.fault input = if input.length < 6 then some .missing
      else if (endiannessOfCode (.ofNat (Endianness.little.decode (byteOrder.bytes input)))).isSome
        then none else some .value := by
    simp only [hcode, isSome_endiannessOfCode, fault]
  rw [ElfHeader.byteOrder, ← getD_endiannessOfCode, ← hcode]
  exact run_select byteOrder headerVersion.start rfl (by decide)
    (fun bytes => UInt8.ofNat (Endianness.little.decode bytes)) endiannessOfCode .little hfault

theorem run_usage :
    (Reader.select (Reader.u16 (ElfHeader.byteOrder input)) ElfUsage.ofCode).run
        (input.drop usage.start)
      = usage.check input >>= fun _ =>
        .ok ((ElfUsage.ofCode (.ofNat ((ElfHeader.byteOrder input).decode
          (usage.bytes input)))).getD .relocatable, input.drop machine.start) := by
  have hfault : usage.fault input = if input.length < 18 then some .missing
      else if (ElfUsage.ofCode (.ofNat ((ElfHeader.byteOrder input).decode
        (usage.bytes input)))).isSome then none else some .value := by
    by_cases hin : input.length < 18
    · rw [fault, if_pos hin, if_pos hin]
    · have hcode := toNat_u16 usage (ElfHeader.byteOrder input) rfl (Nat.le_of_not_lt hin)
      rw [fault, if_neg hin, if_neg hin]
      simp only [ElfUsage.isSome_ofCode, hcode]
      rfl
  exact run_select usage machine.start rfl (by decide)
    (fun bytes => UInt16.ofNat ((ElfHeader.byteOrder input).decode bytes)) ElfUsage.ofCode
    .relocatable hfault

end Element

/-- The header whose fields stand at their places in the input. -/
def ofInput (input : List UInt8) : ElfHeader :=
  let e := byteOrder input
  { endianness := e
    headerVersion := .ofNat (Endianness.little.decode (Element.headerVersion.bytes input))
    usage := (ElfUsage.ofCode (.ofNat (e.decode (Element.usage.bytes input)))).getD .relocatable
    machine := .ofCode (.ofNat (e.decode (Element.machine.bytes input)))
    elfVersion := .ofNat (e.decode (Element.elfVersion.bytes input))
    programEntry := .ofNat (e.decode (Element.programEntry.bytes input))
    programHeadersOffset := .ofNat (e.decode (Element.programHeadersOffset.bytes input))
    programHeaderEntrySize := .ofNat (e.decode (Element.programHeaderEntrySize.bytes input))
    programHeaderCount := .ofNat (e.decode (Element.programHeaderCount.bytes input)) }

/-- The parser checks the elements in turn, and then knows the header. -/
theorem parse_eq (input : List UInt8) : parse input =
    forM Element.all (Element.check input) >>= fun _ => .ok (ofInput input, input.drop size) := by
  -- each element is read where the one before it ends, so the checks come in the same order
  simp only [parse, reader, StateT.run_bind, Element.run_magic, Element.run_width,
    Element.run_byteOrder, Element.run_usage,
    Element.run_u8 .headerVersion Element.ident.start (fun _ => rfl) rfl rfl,
    Element.run_u16 .machine Element.elfVersion.start (fun _ => rfl) rfl rfl,
    Element.run_u32 .elfVersion Element.programEntry.start (fun _ => rfl) rfl rfl,
    Element.run_u32 .programEntry Element.programHeadersOffset.start (fun _ => rfl) rfl rfl,
    Element.run_u32 .programHeadersOffset Element.sections.start (fun _ => rfl) rfl rfl,
    Element.run_u16 .programHeaderEntrySize Element.programHeaderCount.start (fun _ => rfl) rfl rfl,
    Element.run_u16 .programHeaderCount Element.strings.start (fun _ => rfl) rfl rfl,
    Element.run_skip .ident Element.usage.start 9 (fun _ => rfl) rfl rfl (by decide),
    Element.run_skip .sections Element.programHeaderEntrySize.start 10 (fun _ => rfl) rfl rfl
      (by decide),
    Element.run_skip .strings size 6 (fun _ => rfl) rfl rfl (by decide), bind_assoc,
    except_ok_bind, Element.all, List.forM_cons, List.forM_nil, StateT.run_pure]
  rfl

/-! ### The header at its places -/

/-- An input that begins with a header. -/
structure WellFormed (input : List UInt8) : Prop where
  length : size ≤ input.length
  /-- The magic number and the class of 32-bit images. -/
  front : input.take 5 = [0x7F, 0x45, 0x4C, 0x46, 1]
  order : input[5]? = some 1 ∨ input[5]? = some 2
  usage : 1 ≤ (byteOrder input).valueAt input 16 2 ∧ (byteOrder input).valueAt input 16 2 ≤ 4

/-- The fields of the header are what stands at their places in the input. -/
structure StandsIn (h : ElfHeader) (input : List UInt8) : Prop where
  endianness : input[5]? = some h.endianness.code
  headerVersion : input[6]? = some h.headerVersion
  usage : h.usage.code.toNat = h.endianness.valueAt input 16 2
  /-- A machine with a name goes by its name. -/
  machine : h.machine = .ofCode h.machine.code
  machineCode : h.machine.code.toNat = h.endianness.valueAt input 18 2
  elfVersion : h.elfVersion.toNat = h.endianness.valueAt input 20 4
  programEntry : h.programEntry.toNat = h.endianness.valueAt input 24 4
  programHeadersOffset : h.programHeadersOffset.toNat = h.endianness.valueAt input 28 4
  programHeaderEntrySize : h.programHeaderEntrySize.toNat = h.endianness.valueAt input 42 2
  programHeaderCount : h.programHeaderCount.toNat = h.endianness.valueAt input 44 2

theorem getElem?_eq_some_getD {input : List UInt8} {start : Nat} (h : start < input.length) :
    input[start]? = some (input.getD start 0) := by
  rw [List.getD_eq_getElem?_getD, List.getElem?_eq_getElem h, Option.getD_some]

/-- An input begins with a header if no element is at fault. -/
theorem wellFormed_iff {input : List UInt8} :
    WellFormed input ↔ ∀ element : Element, element.fault input = none := by
  constructor
  · intro h element
    have hlength : 52 ≤ input.length := h.length
    cases element with
    | magic =>
      have hmagic := congrArg (List.take 4) h.front
      rw [List.take_take] at hmagic
      exact Element.fault_magic_eq_none.2 hmagic
    | width =>
      have hwidth := congrArg (List.drop 4) h.front
      rw [List.drop_take] at hwidth
      exact Element.fault_width_eq_none.2 hwidth
    | byteOrder =>
      refine Element.fault_byteOrder_eq_none.2 ⟨by omega, ?_⟩
      rw [List.getD_eq_getElem?_getD]
      exact h.order.imp (fun h => by rw [h]; rfl) fun h => by rw [h]; rfl
    | usage => exact Element.fault_usage_eq_none.2 ⟨by omega, h.usage⟩
    | _ => exact (Element.Plain.fault_eq_none fun _ => rfl).2 (Nat.le_trans (by decide) hlength)
  · intro h
    obtain ⟨hin, horder⟩ := Element.fault_byteOrder_eq_none.1 (h .byteOrder)
    refine ⟨Element.le_of_fault_eq_none (h .strings), ?_, ?_,
      (Element.fault_usage_eq_none.1 (h .usage)).2⟩
    · rw [List.take_add (i := 4) (j := 1), Element.fault_magic_eq_none.1 (h .magic),
        Element.fault_width_eq_none.1 (h .width)]
      rfl
    · rw [getElem?_eq_some_getD (Nat.lt_of_succ_le hin), Option.some_inj, Option.some_inj]
      exact horder

/-- In an input without a fault the fields are found at their places. -/
theorem standsIn_ofInput {input : List UInt8}
    (h : ∀ element : Element, element.fault input = none) : (ofInput input).StandsIn input := by
  have hin : ∀ element : Element, element.start + element.size ≤ input.length := fun element =>
    Element.le_of_fault_eq_none (h element)
  have hhalf : ∀ element : Element, element.size = 2 →
      (UInt16.ofNat ((byteOrder input).decode (element.bytes input))).toNat
        = (byteOrder input).valueAt input element.start 2 := fun element hsize =>
    Element.toNat_u16 element _ hsize (hin element)
  have hword : ∀ element : Element, element.size = 4 →
      (UInt32.ofNat ((byteOrder input).decode (element.bytes input))).toNat
        = (byteOrder input).valueAt input element.start 4 := fun element hsize =>
    Element.toNat_u32 element _ hsize (hin element)
  have hmachine : (ofInput input).machine.code
      = .ofNat ((byteOrder input).decode (Element.machine.bytes input)) := ElfMachine.code_ofCode _
  constructor
  case endianness =>
    obtain ⟨hlt, horder⟩ := Element.fault_byteOrder_eq_none.1 (h .byteOrder)
    rw [getElem?_eq_some_getD (Nat.lt_of_succ_le hlt), ofInput, byteOrder]
    rcases horder with h₁ | h₂
    · rw [h₁]
      rfl
    · rw [h₂]
      rfl
  case headerVersion =>
    have hlt : 6 < input.length := hin .headerVersion
    rw [getElem?_eq_some_getD hlt]
    exact congrArg some (Reader.decode_take_one input 6).symm
  case usage =>
    have hcode := hhalf .usage rfl
    have hisSome := ElfUsage.isSome_ofCode.2
      (hcode.symm ▸ (Element.fault_usage_eq_none.1 (h .usage)).2)
    obtain ⟨u, hu⟩ := Option.isSome_iff_exists.1 hisSome
    rw [ElfUsage.ofCode_eq_some.1 hu] at hcode
    rw [ofInput, hu]
    exact hcode
  case machine => rw [hmachine, ofInput]
  case machineCode => rw [hmachine, hhalf .machine rfl]; rfl
  case elfVersion => exact hword .elfVersion rfl
  case programEntry => exact hword .programEntry rfl
  case programHeadersOffset => exact hword .programHeadersOffset rfl
  case programHeaderEntrySize => exact hhalf .programHeaderEntrySize rfl
  case programHeaderCount => exact hhalf .programHeaderCount rfl

/-- What the parser makes of an input. -/
structure ParsedByLayout (input : List UInt8) : Prop where
  ok_iff : (∃ h rest, parse input = .ok (h, rest)) ↔ WellFormed input
  stands : ∀ h rest, parse input = .ok (h, rest) → h.StandsIn input ∧ rest = input.drop size
  /-- The error is that of the first element with a fault, and says how much input is left where the
  element begins. -/
  error_iff : ∀ kind left, parse input = .error ⟨kind, left⟩ ↔ ∃ element : Element,
    element.fault input = some kind ∧ left + element.start = input.length ∧
      ∀ before : Element, before.start < element.start → before.fault input = none

/-- The first element with a fault begins in the input. -/
theorem Element.start_le {input : List UInt8} {element : Element}
    (h : ∀ before : Element, before.start < element.start → before.fault input = none) :
    element.start ≤ input.length := by
  rcases element.start_eq with hstart | ⟨before, -, hlt, heq⟩
  · rw [hstart]
    exact Nat.zero_le _
  · rw [← heq]
    exact le_of_fault_eq_none (h before hlt)

/-- What is read is what the input says, if nothing is at fault. -/
theorem parse_eq_ok_iff_fault {input rest : List UInt8} {h : ElfHeader} :
    parse input = .ok (h, rest) ↔
      (∀ element : Element, element.fault input = none) ∧ h = ofInput input ∧
        rest = input.drop size := by
  rw [parse_eq, except_bind_eq_ok]
  constructor
  · rintro ⟨_, hcheck, heq⟩
    cases heq
    exact ⟨fun element => Element.forM_check_eq_ok.1 hcheck element element.mem_all, rfl, rfl⟩
  · rintro ⟨hnone, rfl, rfl⟩
    exact ⟨(), Element.forM_check_eq_ok.2 fun element _ => hnone element, rfl⟩

theorem parse_eq_error_iff {input : List UInt8} {e : ReadError} :
    parse input = .error e ↔ forM Element.all (Element.check input) = .error e := by
  rw [parse_eq]
  cases forM Element.all (Element.check input) with
  | error e' =>
    constructor
    · exact fun h => congrArg _ (Except.error.inj h)
    · exact fun h => congrArg _ (Except.error.inj h)
  | ok _ => exact ⟨nofun, nofun⟩

/-- Every input is parsed by the layout of a header. It is accepted exactly if it begins with one,
and the header is then the one whose fields stand at their places. Otherwise the first element that
is wrong, or that the input ends in, is reported where it begins. -/
theorem parsed_by_layout (input : List UInt8) : ParsedByLayout input := by
  constructor
  case ok_iff =>
    simp only [parse_eq_ok_iff_fault, wellFormed_iff]
    exact ⟨fun ⟨_, _, hnone, _⟩ => hnone, fun hnone => ⟨_, _, hnone, rfl, rfl⟩⟩
  case stands =>
    intro h rest hparse
    obtain ⟨hnone, rfl, rfl⟩ := parse_eq_ok_iff_fault.1 hparse
    exact ⟨standsIn_ofInput hnone, rfl⟩
  case error_iff =>
    intro kind left
    rw [parse_eq_error_iff, Element.forM_check_eq_error Element.pairwise_all]
    constructor
    · rintro ⟨element, -, hkind, hleft, hbefore⟩
      have hfirst := fun before : Element => hbefore before before.mem_all
      have hle := Element.start_le hfirst
      replace hleft : left = input.length - element.start := hleft
      exact ⟨element, hkind, by omega, hfirst⟩
    · rintro ⟨element, hkind, hleft, hbefore⟩
      replace hleft : left = input.length - element.start := by omega
      exact ⟨element, element.mem_all, hkind, hleft, fun before _ => hbefore before⟩

end ElfHeader

end DemandPaging
