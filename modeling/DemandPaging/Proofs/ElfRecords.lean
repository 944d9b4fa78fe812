import DemandPaging.Proofs.HeaderLayout
import DemandPaging.Proofs.Images

/-!
# Records of an executable are read as they are written

The header and the program headers are written and read by tables that agree: what is written is
read back, whatever stands in the places that no field has, and what is read is written back as it
was, if these places are copied. The table of numbers that have a name and the one that catches all
others must divide the numbers among them for that: a record that says *other* for a number with a
name is written like the one that says the name, and is not read back. Such a record is never read.

## Main definitions

* `Canonical` — a value does not say *other* where there is a name.
* `RoundTrips` — reading and writing are inverse to each other.
* `HeaderPadding.ofInput`, `ProgramHeader.hidden` — what a record does not show of its bytes.

## Main results

* `ElfHeader.parse_eq_ok_iff`, `ProgramHeader.parse_eq_ok_iff` — a record is read exactly if it is
  written down at the front of the input.
* `elf_records_round_trip` — reading and writing are inverse to each other.
-/

namespace DemandPaging

/-! ### Numbers with and without a name -/

/-- The value does not say *other* for a number that has a name. -/
def Canonical {α β : Type} (other : β → α) (code : α → β) (a : α) : Prop :=
  ∀ c, a = other c → ∀ named, (∀ c', named ≠ other c') → code named ≠ c

/-- The values that are read are those that do not say *other* where there is a name. -/
theorem canonical_iff {α β : Type} {other : β → α} {code : α → β} {ofCode : β → α} {a : α}
    (hcode : ∀ c, code (ofCode c) = c) (hother : ∀ c, code (other c) = c)
    (hnamed : ∀ a, (∀ c, a ≠ other c) → ofCode (code a) = a) :
    Canonical other code a ↔ ofCode (code a) = a := by
  constructor
  · intro h
    by_cases ha : ∃ c, a = other c
    · obtain ⟨c, rfl⟩ := ha
      rw [hother]
      by_contra hne
      -- a number that is not read as *other* has a name
      refine h c rfl (ofCode c) (fun c' heq => hne ?_) (hcode c)
      rw [heq, ← hcode c, heq, hother]
    · exact hnamed a (not_exists.1 ha)
  · rintro h c rfl named hnot rfl
    rw [hother, hnamed named hnot] at h
    exact hnot _ h

namespace ElfMachine

theorem canonical_iff_ofCode {m : ElfMachine} : Canonical other code m ↔ ofCode m.code = m :=
  canonical_iff code_ofCode (fun _ => rfl) fun m hnot => by
    cases m with
    | other c => exact absurd rfl (hnot c)
    | _ => rfl

end ElfMachine

namespace SegmentKind

theorem code_ofCode (c : UInt32) : (ofCode c).code = c := by
  rw [ofCode]
  repeat' split
  all_goals (subst_vars; rfl)

theorem canonical_iff_ofCode {k : SegmentKind} : Canonical other code k ↔ ofCode k.code = k :=
  canonical_iff code_ofCode (fun _ => rfl) fun k hnot => by
    cases k with
    | other c => exact absurd rfl (hnot c)
    | _ => rfl

end SegmentKind

/-! ### Headers -/

namespace ElfHeader

open Reader

variable {input rest : List UInt8}

theorem length_encode (h : ElfHeader) (p : HeaderPadding) : (h.encode p).length = size := by
  have hident : p.ident.toList.length = 9 := p.ident.size_toArray
  have hsections : p.sections.toList.length = 10 := p.sections.size_toArray
  have hstrings : p.strings.toList.length = 6 := p.strings.size_toArray
  simp only [encode, List.length_append, Endianness.length_encode, hident, hsections, hstrings]
  rfl

/-- A header is read exactly if it is written down at the front of the input. -/
theorem parse_eq_ok_iff {h : ElfHeader} : parse input = .ok (h, rest) ↔
    Canonical ElfMachine.other ElfMachine.code h.machine ∧ ∃ p, input = h.encode p ++ rest := by
  rw [ElfMachine.canonical_iff_ofCode]
  simp only [parse, reader, run_bind_eq_ok, run_literal_eq_ok, run_select_eq_ok, run_u8_eq_ok,
    run_u16_eq_ok, run_u32_eq_ok, run_skip_eq_ok, run_pure_eq_ok, endiannessOfCode_eq_some,
    ElfUsage.ofCode_eq_some]
  constructor
  · -- what the readers take off, one after the other, are the pieces that are written
    rintro ⟨_, _, rfl, _, _, rfl, e, _, ⟨_, rfl, rfl⟩, version, _, rfl, _, _, ⟨ident, hident, rfl⟩,
      usage, _, ⟨_, rfl, rfl⟩, machine, _, rfl, elfVersion, _, rfl, entry, _, rfl, offset, _, rfl,
      _, _, ⟨sections, hsections, rfl⟩, entrySize, _, rfl, count, _, rfl, _, _,
      ⟨strings, hstrings, rfl⟩, rfl, rfl⟩
    refine ⟨congrArg _ (ElfMachine.code_ofCode machine),
      ⟨⟨⟨ident⟩, hident⟩, ⟨⟨sections⟩, hsections⟩, ⟨⟨strings⟩, hstrings⟩⟩, ?_⟩
    simp only [encode, ElfMachine.code_ofCode, List.append_assoc]
    rfl
  · rintro ⟨hmachine, p, rfl⟩
    simp only [encode, List.append_assoc]
    exact ⟨(), _, rfl, (), _, rfl, h.endianness, _, ⟨_, rfl, rfl⟩, h.headerVersion, _, rfl,
      (), _, ⟨p.ident.toList, p.ident.size_toArray, rfl⟩, h.usage, _, ⟨_, rfl, rfl⟩,
      h.machine.code, _, rfl, h.elfVersion, _, rfl, h.programEntry, _, rfl,
      h.programHeadersOffset, _, rfl, (), _, ⟨p.sections.toList, p.sections.size_toArray, rfl⟩,
      h.programHeaderEntrySize, _, rfl, h.programHeaderCount, _, rfl,
      (), _, ⟨p.strings.toList, p.strings.size_toArray, rfl⟩, by rw [hmachine], rfl⟩

end ElfHeader

/-! ### What a header does not show -/

/-- The bytes of an input that are at the places no field of a header has. -/
def HeaderPadding.ofInput (input : List UInt8) : HeaderPadding where
  ident := .ofFn fun i => input.getD (7 + i.val) 0
  sections := .ofFn fun i => input.getD (32 + i.val) 0
  strings := .ofFn fun i => input.getD (46 + i.val) 0

/-- Bytes are found where they were put. -/
theorem ofFn_getD_eq {n start : Nat} {before input : List UInt8} {v : Vector UInt8 n}
    (h : before ++ v.toList <+: input) (hstart : before.length = start) :
    Vector.ofFn (fun i : Fin n => input.getD (start + i.val) 0) = v := by
  obtain ⟨after, rfl⟩ := h
  refine Vector.ext fun i hi => ?_
  have hlength : v.toList.length = n := v.size_toArray
  rw [Vector.getElem_ofFn, List.getD_eq_getElem?_getD, List.append_assoc,
    List.getElem?_append_right (by omega), hstart, Nat.add_sub_cancel_left,
    List.getElem?_append_left (by omega)]
  simp [hi]

/-- The places that no field has hold what was put there. -/
theorem HeaderPadding.ofInput_encode (h : ElfHeader) (p : HeaderPadding) (rest : List UInt8) :
    ofInput (h.encode p ++ rest) = p := by
  have hident : p.ident.toList.length = 9 := p.ident.size_toArray
  have hsections : p.sections.toList.length = 10 := p.sections.size_toArray
  rw [ofInput, ElfHeader.encode]
  congr 1
  · apply ofFn_getD_eq
    · iterate 10 apply List.prefix_append_of_prefix
      exact List.prefix_rfl
    · rfl
  · apply ofFn_getD_eq
    · iterate 4 apply List.prefix_append_of_prefix
      exact List.prefix_rfl
    · simp only [List.length_append, Endianness.length_encode, hident]
      rfl
  · apply ofFn_getD_eq
    · apply List.prefix_append_of_prefix
      exact List.prefix_rfl
    · simp only [List.length_append, Endianness.length_encode, hident, hsections]
      rfl

/-! ### Program headers -/

/-- A word is found where it was put. -/
theorem Endianness.word_eq {e : Endianness} {k : Nat} {n : UInt32} {before input : List UInt8}
    (h : before ++ e.encode 4 n.toNat <+: input) (hstart : before.length = 4 * k) :
    e.word input k = n := by
  obtain ⟨after, rfl⟩ := h
  rw [word, List.append_assoc, List.drop_left' hstart, List.take_left' (e.length_encode 4 _),
    decode_encode]
  exact (congrArg UInt32.ofNat (Nat.mod_eq_of_lt n.toNat_lt)).trans UInt32.ofNat_toNat

namespace ProgramHeader

open Reader

variable {e : Endianness} {input rest : List UInt8} {h : ProgramHeader}

/-- The physical address and the 29 bits of the flag word that have no name. -/
def hidden (e : Endianness) (input : List UInt8) : UInt32 × BitVec 29 :=
  (e.word input 3, .ofNat 29 ((e.word input 6).toNat / 8))

/-- A word whose low bits are the rights of a segment is its flag word. -/
theorem flags_eq {w : Nat} (hx : w.testBit 0 = h.executable) (hw : w.testBit 1 = h.writable)
    (hr : w.testBit 2 = h.readable) : h.flags (w / 8) = w := by
  rw [flags, ← hx, ← hw, ← hr]
  simp only [Nat.toNat_testBit]
  omega

/-- The low bits of the flag word of a segment are its rights. -/
theorem testBit_flags (others : Nat) : (h.flags others).testBit 0 = h.executable ∧
    (h.flags others).testBit 1 = h.writable ∧ (h.flags others).testBit 2 = h.readable := by
  have hbit : ∀ (i : Nat) (b : Bool), (h.flags others / 2 ^ i % 2 = b.toNat) →
      (h.flags others).testBit i = b := by
    intro i b hb
    rw [Nat.testBit_eq_decide_div_mod_eq, hb]
    cases b <;> rfl
  have hx := Bool.toNat_le h.executable
  have hw := Bool.toNat_le h.writable
  have hr := Bool.toNat_le h.readable
  refine ⟨hbit 0 _ ?_, hbit 1 _ ?_, hbit 2 _ ?_⟩ <;> rw [flags] <;> omega

theorem flags_lt (others : BitVec 29) : h.flags others.toNat < 2 ^ 32 := by
  have := others.isLt
  have hx := Bool.toNat_le h.executable
  have hw := Bool.toNat_le h.writable
  have hr := Bool.toNat_le h.readable
  rw [flags]
  omega

/-- The bits of a word behind the first three are 29. -/
theorem toNat_others (w : UInt32) : (BitVec.ofNat 29 (w.toNat / 8)).toNat = w.toNat / 8 := by
  have := w.toNat_lt
  rw [BitVec.toNat_ofNat]
  exact Nat.mod_eq_of_lt (by omega)

theorem length_encode {physical : UInt32} {others : Nat} :
    (h.encode e physical others).length = size := by
  simp only [encode, List.length_append, Endianness.length_encode]
  rfl

/-- A program header is read exactly if it is written down at the front of the input. -/
theorem parse_eq_ok_iff : parse input e = .ok (h, rest) ↔
    Canonical SegmentKind.other SegmentKind.code h.kind ∧
      ∃ (physical : UInt32) (others : BitVec 29),
        input = h.encode e physical others.toNat ++ rest := by
  rw [SegmentKind.canonical_iff_ofCode]
  simp only [parse, reader, run_bind_eq_ok, run_u32_eq_ok, run_pure_eq_ok]
  constructor
  · rintro ⟨kind, _, rfl, offset, _, rfl, address, _, rfl, physical, _, rfl, fileSize, _, rfl,
      memorySize, _, rfl, flags, _, rfl, alignment, _, rfl, rfl, rfl⟩
    refine ⟨congrArg _ (SegmentKind.code_ofCode kind), physical, .ofNat 29 (flags.toNat / 8), ?_⟩
    simp only [encode, SegmentKind.code_ofCode, List.append_assoc, toNat_others]
    rw [flags_eq rfl rfl rfl]
  · rintro ⟨hkind, physical, others, rfl⟩
    have hflags : (UInt32.ofNat (h.flags others.toNat)).toNat = h.flags others.toNat :=
      UInt32.toNat_ofNat_of_lt' (flags_lt others)
    obtain ⟨hx, hw, hr⟩ := testBit_flags (h := h) others.toNat
    simp only [encode, List.append_assoc]
    refine ⟨h.kind.code, _, rfl, h.fileOffset, _, rfl, h.virtualAddress, _, rfl, physical, _, rfl,
      h.fileSize, _, rfl, h.memorySize, _, rfl, .ofNat (h.flags others.toNat), _, ?_,
      h.alignment, _, rfl, ?_, rfl⟩
    · rw [hflags]
    · rw [hflags, hkind, hx, hw, hr]

/-- The physical address and the bits without a name are where they were put. -/
theorem hidden_encode (physical : UInt32) (others : BitVec 29) (rest : List UInt8) :
    hidden e (h.encode e physical others.toNat ++ rest) = (physical, others) := by
  obtain ⟨w, hw⟩ : ∃ w : UInt32, w.toNat = h.flags others.toNat :=
    ⟨.ofNat _, UInt32.toNat_ofNat_of_lt' (flags_lt others)⟩
  have hphysical : e.word (h.encode e physical others.toNat ++ rest) 3 = physical := by
    rw [encode]
    apply Endianness.word_eq
    · iterate 5 apply List.prefix_append_of_prefix
      exact List.prefix_rfl
    · simp only [List.length_append, Endianness.length_encode]
  have hflags : e.word (h.encode e physical others.toNat ++ rest) 6 = w := by
    rw [encode, ← hw]
    apply Endianness.word_eq
    · iterate 2 apply List.prefix_append_of_prefix
      exact List.prefix_rfl
    · simp only [List.length_append, Endianness.length_encode]
  have hothers : h.flags others.toNat / 8 = others.toNat := by
    have hx := Bool.toNat_le h.executable
    have hw := Bool.toNat_le h.writable
    have hr := Bool.toNat_le h.readable
    rw [flags]
    omega
  rw [hidden, hphysical, hflags, hw, hothers, BitVec.ofNat_toNat, BitVec.setWidth_eq]

/-- There is a program header at the front of an input if the input is long enough for one. -/
theorem exists_parse_iff :
    (∃ h rest, parse input e = .ok (h, rest)) ↔ size ≤ input.length := by
  constructor
  · rintro ⟨h, rest, hparse⟩
    obtain ⟨-, physical, others, rfl⟩ := parse_eq_ok_iff.1 hparse
    rw [List.length_append, length_encode]
    exact Nat.le_add_right _ _
  · intro hle
    exact ⟨_, _, parse_of_le e hle⟩

end ProgramHeader

/-! ### Reading and writing -/

/-- A parser and a writer of records of `size` bytes are inverse to each other. A record has a
canonical form, and what it does not show of its bytes is given to the writer and found in the input
by `hidden`. -/
structure RoundTrips {α γ : Type} (size : Nat)
    (parse : List UInt8 → Except ReadError (α × List UInt8)) (encode : α → γ → List UInt8)
    (canonical : α → Prop) (hidden : List UInt8 → γ) : Prop where
  length_encode : ∀ a c, (encode a c).length = size
  /-- A record that is written is read back, with any filling and before any bytes. -/
  parse_encode : ∀ a c rest, canonical a → parse (encode a c ++ rest) = .ok (a, rest)
  /-- A record that is read is written back as it was. -/
  encode_parse : ∀ input a rest, parse input = .ok (a, rest) →
    canonical a ∧ encode a (hidden input) ++ rest = input

theorem ElfHeader.roundTrips : RoundTrips size parse encode
    (fun h => Canonical ElfMachine.other ElfMachine.code h.machine) HeaderPadding.ofInput where
  length_encode := length_encode
  parse_encode _ p _ hcanonical := parse_eq_ok_iff.2 ⟨hcanonical, p, rfl⟩
  encode_parse _ h rest hparse := by
    obtain ⟨hcanonical, p, rfl⟩ := parse_eq_ok_iff.1 hparse
    exact ⟨hcanonical, by rw [HeaderPadding.ofInput_encode]⟩

theorem ProgramHeader.roundTrips (e : Endianness) : RoundTrips size (parse · e)
    (fun h (c : UInt32 × BitVec 29) => h.encode e c.1 c.2.toNat)
    (fun h => Canonical SegmentKind.other SegmentKind.code h.kind) (hidden e) where
  length_encode _ _ := length_encode
  parse_encode _ c _ hcanonical := parse_eq_ok_iff.2 ⟨hcanonical, c.1, c.2, rfl⟩
  encode_parse _ h rest hparse := by
    obtain ⟨hcanonical, physical, others, rfl⟩ := parse_eq_ok_iff.1 hparse
    exact ⟨hcanonical, by rw [hidden_encode]⟩

/-- Headers and program headers are read as they are written, and every 32 bytes, but no fewer, are
a program header. -/
theorem elf_records_round_trip :
    RoundTrips ElfHeader.size ElfHeader.parse ElfHeader.encode
        (fun h => Canonical ElfMachine.other ElfMachine.code h.machine) HeaderPadding.ofInput ∧
      ∀ e : Endianness,
        RoundTrips ProgramHeader.size (ProgramHeader.parse · e)
            (fun h (c : UInt32 × BitVec 29) => h.encode e c.1 c.2.toNat)
            (fun h => Canonical SegmentKind.other SegmentKind.code h.kind)
            (ProgramHeader.hidden e) ∧
          ∀ input, (∃ h rest, ProgramHeader.parse input e = .ok (h, rest)) ↔
            ProgramHeader.size ≤ input.length :=
  ⟨ElfHeader.roundTrips, fun e => ⟨ProgramHeader.roundTrips e, fun _ =>
    ProgramHeader.exists_parse_iff⟩⟩

end DemandPaging
