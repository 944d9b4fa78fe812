import DemandPaging.Elf.Header
import DemandPaging.Elf.ProgramHeader

/-!
# Writing executables' records

The other direction of the readers: the bytes of a header and of a program header. Bytes that no
field stands for, and flag bits without a name, are given separately, so that every record a reader
accepts is the image of some value.

## Main definitions

* `HeaderPadding`, `ElfHeader.encode` — the bytes of a header.
* `ProgramHeader.flags`, `ProgramHeader.encode` — the bytes of a program header.

## Main results

* `Endianness.decode_encode` — a number is read back as it was written.
-/

namespace DemandPaging

namespace Endianness

/-- The byte that stands for a byte order in a header. -/
def code : Endianness → UInt8
  | little => 1
  | big => 2

@[simp] theorem length_encode (e : Endianness) (size n : Nat) : (e.encode size n).length = size := by
  cases e <;> simp [encode]

/-- A number that is written least byte first is read back by adding up its digits. -/
theorem foldr_digits (size n : Nat) :
    ((List.range size).map fun i => UInt8.ofNat (n / Nat.pow 256 i)).foldr
      (fun b m => b.toNat + 256 * m) 0 = n % Nat.pow 256 size := by
  show ((List.range size).map fun i => UInt8.ofNat (n / 256 ^ i)).foldr
    (fun b m => b.toNat + 256 * m) 0 = n % 256 ^ size
  induction size generalizing n with
  | zero => simp [Nat.mod_one]
  | succ size ih =>
    have h : (List.range size).map (fun i => UInt8.ofNat (n / 256 ^ (i + 1))) =
        (List.range size).map fun i => UInt8.ofNat (n / 256 / 256 ^ i) := by
      refine List.map_congr_left fun i _ => ?_
      rw [Nat.pow_succ, Nat.mul_comm, Nat.div_div_eq_div_mul]
    rw [List.range_succ_eq_map, List.map_cons, List.map_map, List.foldr_cons]
    change _ + 256 * ((List.range size).map fun i => UInt8.ofNat (n / 256 ^ (i + 1))).foldr _ 0 = _
    rw [h, ih, Nat.pow_succ, Nat.mul_comm (256 ^ size), Nat.mod_mul]
    simp

theorem decode_encode (e : Endianness) (size n : Nat) :
    e.decode (e.encode size n) = n % Nat.pow 256 size := by
  cases e with
  | little => exact foldr_digits size n
  | big =>
    change ((List.reverse _).reverse).foldr _ 0 = _
    rw [List.reverse_reverse]
    exact foldr_digits size n

end Endianness

/-- The bytes of a header that no field stands for. -/
structure HeaderPadding where
  /-- The binary interface and the padding behind it. -/
  ident : Vector UInt8 9
  /-- The place of the section headers, flags and the length of the header. -/
  sections : Vector UInt8 10
  /-- Length and number of the section headers and the index of the string table. -/
  strings : Vector UInt8 6

/-- The bytes of a header. -/
def ElfHeader.encode (h : ElfHeader) (p : HeaderPadding) : List UInt8 :=
  let e := h.endianness
  ElfHeader.magic ++ [1, e.code, h.headerVersion] ++ p.ident.toList ++
    e.encode 2 h.usage.code.toNat ++ e.encode 2 h.machine.code.toNat ++
    e.encode 4 h.elfVersion.toNat ++ e.encode 4 h.programEntry.toNat ++
    e.encode 4 h.programHeadersOffset.toNat ++ p.sections.toList ++
    e.encode 2 h.programHeaderEntrySize.toNat ++ e.encode 2 h.programHeaderCount.toNat ++
    p.strings.toList

namespace ProgramHeader

/-- The flag word of a segment: three rights in the low bits, `others` shifted above them. -/
def flags (h : ProgramHeader) (others : Nat) : Nat :=
  h.executable.toNat + 2 * h.writable.toNat + 4 * h.readable.toNat + 8 * others

/-- The bytes of a program header, with the physical address and the flag bits that have no
name. -/
def encode (h : ProgramHeader) (e : Endianness) (physicalAddress : UInt32) (others : Nat) :
    List UInt8 :=
  e.encode 4 h.kind.code.toNat ++ e.encode 4 h.fileOffset.toNat ++
    e.encode 4 h.virtualAddress.toNat ++ e.encode 4 physicalAddress.toNat ++
    e.encode 4 h.fileSize.toNat ++ e.encode 4 h.memorySize.toNat ++
    e.encode 4 (h.flags others) ++ e.encode 4 h.alignment.toNat

end ProgramHeader

end DemandPaging
