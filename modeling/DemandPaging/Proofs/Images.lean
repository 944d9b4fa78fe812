import DemandPaging.Elf.Image
import DemandPaging.Proofs.Contents
import DemandPaging.Proofs.Outcomes
import DemandPaging.Proofs.Readers

/-!
# What the loader reads of an executable

An image is read in two pieces, the header and the table of program headers, and nothing else of the
file is looked at. Whether it is accepted so far is a matter of the bytes: the header has to be
there, to parse and to be one the loader supports, and the table has to lie in the file. What is
read of the table is one program header for every 32 bytes.

The checks on a loadable segment are listed here without their order. The order decides which error
is reported and not whether one is.

## Main definitions

* `ElfHeader.Supported`, `ProgramHeader.Loadable` — what is checked of a header and of a segment.
* `ElfImage.ReadFrom` — an image is what certain bytes say.

## Main results

* `ProgramHeader.parse_of_le` — every 32 bytes are a program header.
* `ElfImage.ofFile_eq_ok` — the images that are read from a file.
-/

namespace DemandPaging

/-! ### Checks -/

/-- A header of an executable that the pager can load. -/
structure ElfHeader.Supported (h : ElfHeader) : Prop where
  endianness : h.endianness = .little
  headerVersion : h.headerVersion = 1
  elfVersion : h.elfVersion = 1
  usage : h.usage = .executable
  machine : h.machine = .x86
  entrySize : h.programHeaderEntrySize.toNat = ProgramHeader.size
  count : h.programHeaderCount.toNat ≤ maxProgramHeaders

theorem ElfHeader.verify_eq_ok {h : ElfHeader} : h.verify = .ok () ↔ h.Supported := by
  have hiff : h.verify = .ok () ↔ h.endianness = .little ∧
      (h.headerVersion = 1 ∧ h.elfVersion = 1) ∧ h.usage = .executable ∧ h.machine = .x86 ∧
      h.programHeaderEntrySize.toNat = ProgramHeader.size ∧
      h.programHeaderCount.toNat ≤ maxProgramHeaders := by
    simp [verify]
  rw [hiff]
  constructor
  · rintro ⟨h₁, ⟨h₂, h₃⟩, h₄, h₅, h₆, h₇⟩
    exact ⟨h₁, h₂, h₃, h₄, h₅, h₆, h₇⟩
  · rintro ⟨h₁, h₂, h₃, h₄, h₅, h₆, h₇⟩
    exact ⟨h₁, ⟨h₂, h₃⟩, h₄, h₅, h₆, h₇⟩

/-- A segment that can be loaded from a file of the given length below `physBase`. -/
structure ProgramHeader.Loadable (h : ProgramHeader) (fileLength physBase : Nat) : Prop where
  same_offset : pageOffset h.fileOffset.toNat = pageOffset h.virtualAddress.toNat
  in_file : h.fileOffset.toNat ≤ fileLength
  nonempty : 0 < h.memorySize.toNat
  fileSize_le : h.fileSize.toNat ≤ h.memorySize.toNat
  above_first_page : pageSize ≤ h.virtualAddress.toNat
  below_kernel : h.virtualAddress.toNat + h.memorySize.toNat ≤ physBase

/-- The checks on a segment pass exactly when it can be loaded. A segment lies in the first 8 GiB,
so its end is always a number that an address could be. -/
theorem ProgramHeader.validate_eq_ok {h : ProgramHeader} {fileLength physBase : Nat} :
    h.validate fileLength physBase = .ok () ↔ h.Loadable fileLength physBase := by
  have hend : checkedEnd? h.virtualAddress.toNat h.memorySize.toNat
      = some (h.virtualAddress.toNat + h.memorySize.toNat) := by
    have h₁ := h.virtualAddress.toNat_lt
    have h₂ := h.memorySize.toNat_lt
    rw [checkedEnd?, if_pos (by simp only [Nat.pow_eq]; omega)]
  have hsizes : h.memorySize < h.fileSize ↔ h.memorySize.toNat < h.fileSize.toNat :=
    UInt32.lt_iff_toNat_lt
  have hzero : h.memorySize = 0 ↔ h.memorySize.toNat = 0 := by
    rw [← UInt32.toNat_inj]
    rfl
  have hiff : h.validate fileLength physBase = .ok () ↔
      pageOffset h.fileOffset.toNat = pageOffset h.virtualAddress.toNat ∧
      h.fileOffset.toNat ≤ fileLength ∧ h.fileSize.toNat ≤ h.memorySize.toNat ∧
      ¬ h.memorySize.toNat = 0 ∧ (h.virtualAddress.toNat < physBase ∧
        h.virtualAddress.toNat + h.memorySize.toNat ≤ physBase) ∧
      pageSize ≤ h.virtualAddress.toNat := by
    simp [validate, hend, hsizes, hzero]
  rw [hiff]
  constructor
  · rintro ⟨h₁, h₂, h₃, h₄, ⟨-, h₅⟩, h₆⟩
    exact ⟨h₁, h₂, Nat.pos_of_ne_zero h₄, h₃, h₆, h₅⟩
  · rintro ⟨h₁, h₂, h₃, h₄, h₅, h₆⟩
    exact ⟨h₁, h₂, h₄, by omega, ⟨by omega, h₆⟩, h₅⟩

/-! ### Program headers -/

/-- Word `k` of the input. -/
def Endianness.word (e : Endianness) (input : List UInt8) (k : Nat) : UInt32 :=
  UInt32.ofNat (e.decode ((input.drop (4 * k)).take 4))

/-- The program header that eight words describe. -/
def ProgramHeader.ofWords (word : Nat → UInt32) : ProgramHeader where
  kind := SegmentKind.ofCode (word 0)
  fileOffset := word 1
  virtualAddress := word 2
  fileSize := word 4
  memorySize := word 5
  executable := (word 6).toNat.testBit 0
  writable := (word 6).toNat.testBit 1
  readable := (word 6).toNat.testBit 2
  alignment := word 7

/-- Every 32 bytes are a program header. -/
theorem ProgramHeader.parse_of_le (e : Endianness) {input : List UInt8}
    (h : ProgramHeader.size ≤ input.length) :
    ProgramHeader.parse input e = .ok (.ofWords (e.word input), input.drop ProgramHeader.size) := by
  have hread : ∀ d, d + 4 ≤ ProgramHeader.size → (Reader.u32 e).run (input.drop d)
      = .ok (.ofNat (e.decode ((input.drop d).take 4)), input.drop (d + 4)) := fun d hd =>
    (Reader.run_map_take (by decide) fun bytes => UInt32.ofNat (e.decode bytes)).trans
      (if_neg (by omega))
  have hstart := hread 0 (by decide)
  rw [List.drop_zero] at hstart
  simp (disch := decide) only [parse, reader, StateT.run_bind, hstart, except_ok_bind, hread,
    Nat.reduceAdd, StateT.run_pure]
  rfl

/-- A program header is described by its own 32 bytes. -/
theorem ProgramHeader.ofWords_take (e : Endianness) (input : List UInt8) :
    ofWords (e.word (input.take ProgramHeader.size)) = ofWords (e.word input) := by
  have hword : ∀ k < 8, e.word (input.take ProgramHeader.size) k = e.word input k := by
    intro k hk
    rw [Endianness.word, Endianness.word, List.drop_take, List.take_take,
      Nat.min_eq_left (by rw [ProgramHeader.size]; omega)]
  rw [ofWords, ofWords, hword 0 (by omega), hword 1 (by omega), hword 2 (by omega),
    hword 4 (by omega), hword 5 (by omega), hword 6 (by omega), hword 7 (by omega)]

/-! ### Images -/

theorem File.toList_window (data : Bytes) (offset count : Nat) :
    (window data offset count).toList = (data.toList.drop offset).take count := by
  rw [window, Array.toList_extract, List.extract, Nat.add_sub_cancel_left]

/-- The window is as long as was asked for if it lies in the file, or nothing was asked for. -/
theorem File.size_window_eq_iff {data : Bytes} {offset count : Nat} :
    (window data offset count).size = count ↔ count = 0 ∨ offset + count ≤ data.size := by
  rw [window, Array.size_extract]
  omega

namespace ElfImage

variable {f : File} {data : Bytes}

theorem readExact_eq_ok (hf : f.Holds data) {offset count : Nat} {bytes : List UInt8} :
    readExact f offset count = .ok bytes ↔
      (count = 0 ∨ offset + count ≤ data.size) ∧
        bytes = (File.window data offset count).toList := by
  rw [readExact, hf.readFull, ← File.size_window_eq_iff]
  simp only
  split
  · simp [*, eq_comm]
  · simp [*]

/-- A table is read entry by entry. -/
theorem readTable_eq (e : Endianness) {count : Nat} {input : List UInt8}
    (h : count * ProgramHeader.size ≤ input.length) :
    readTable e count input = .ok ((List.range count).map fun k =>
      .ofWords (e.word (input.drop (k * ProgramHeader.size)))) := by
  induction count generalizing input with
  | zero => rfl
  | succ count ih =>
    rw [Nat.succ_mul] at h
    rw [readTable, ProgramHeader.parse_of_le e (by omega)]
    simp only
    rw [ih (by rw [List.length_drop]; omega), List.range_succ_eq_map, List.map_cons, List.map_map,
      Nat.zero_mul, List.drop_zero]
    refine congrArg (fun rest => Except.ok (_ :: rest)) (List.map_congr_left fun k _ => ?_)
    rw [Function.comp, List.drop_drop, Nat.succ_mul, Nat.add_comm]

/-- An image is what the bytes of a file say. -/
structure ReadFrom (image : ElfImage) (data : Bytes) : Prop where
  /-- The file is long enough for a header. -/
  header_inside : ElfHeader.size ≤ data.size
  /-- The header is the one that the file starts with. -/
  header_eq : ∃ rest, ElfHeader.parse (File.window data 0 ElfHeader.size).toList
    = .ok (image.header, rest)
  /-- The table of program headers is empty or lies in the file. -/
  table_inside : image.header.programHeaderCount.toNat = 0 ∨
    image.header.programHeadersOffset.toNat
      + image.header.programHeaderCount.toNat * ProgramHeader.size ≤ data.size
  /-- There are as many program headers as the header says. -/
  length_eq : image.segments.length = image.header.programHeaderCount.toNat
  /-- The program headers are the entries of the table. -/
  segments_eq : ∀ (k : Nat) (h : ProgramHeader), image.segments[k]? = some h →
    ProgramHeader.parse (File.window data
      (image.header.programHeadersOffset.toNat + k * ProgramHeader.size) ProgramHeader.size).toList
        image.header.endianness = .ok (h, [])

theorem readHeader_eq_ok (hf : f.Holds data) {header : ElfHeader} :
    readHeader f = .ok header ↔ header.Supported ∧ ElfHeader.size ≤ data.size ∧
      ∃ rest, ElfHeader.parse (File.window data 0 ElfHeader.size).toList = .ok (header, rest) := by
  have hsize_iff : (ElfHeader.size = 0 ∨ 0 + ElfHeader.size ≤ data.size) ↔
      ElfHeader.size ≤ data.size := by
    rw [ElfHeader.size]
    omega
  simp only [readHeader, except_bind_eq_ok, readExact_eq_ok hf, hsize_iff]
  constructor
  · rintro ⟨bytes, ⟨hsize, rfl⟩, h⟩
    split at h
    · cases h
    · rename_i found rest hparse
      split at h
      · cases h
      · rename_i hverify
        cases h
        exact ⟨ElfHeader.verify_eq_ok.1 hverify, hsize, rest, hparse⟩
  · rintro ⟨hsupported, hsize, rest, hparse⟩
    refine ⟨_, ⟨hsize, rfl⟩, ?_⟩
    rw [hparse]
    simp only [ElfHeader.verify_eq_ok.2 hsupported]
    rfl

/-- The entries of a table that was read, one by one. -/
theorem table_entry {data : Bytes} {offset count k : Nat} (e : Endianness)
    (hinside : offset + count * ProgramHeader.size ≤ data.size) (hk : k < count) :
    ProgramHeader.parse
        (File.window data (offset + k * ProgramHeader.size) ProgramHeader.size).toList e
      = .ok (.ofWords (e.word ((File.window data offset (count * ProgramHeader.size)).toList.drop
          (k * ProgramHeader.size))), []) := by
  have hfits : k * ProgramHeader.size + ProgramHeader.size ≤ count * ProgramHeader.size := by
    rw [← Nat.succ_mul]
    exact Nat.mul_le_mul_right _ hk
  have hlength :
      (File.window data (offset + k * ProgramHeader.size) ProgramHeader.size).toList.length
        = ProgramHeader.size := by
    rw [Array.length_toList, File.size_window_eq_iff]
    omega
  rw [ProgramHeader.parse_of_le e (Nat.le_of_eq hlength.symm),
    List.drop_of_length_le (Nat.le_of_eq hlength),
    ← ProgramHeader.ofWords_take e ((File.window _ _ _).toList.drop _)]
  simp only [File.toList_window, List.drop_take, List.drop_drop, List.take_take]
  rw [Nat.min_eq_left (by omega)]

/-- A table that lies in the file is read as the list of its entries. -/
theorem readTable_eq_ok {offset count : Nat} (e : Endianness)
    (hinside : count = 0 ∨ offset + count * ProgramHeader.size ≤ data.size)
    {segments : List ProgramHeader} :
    readTable e count (File.window data offset (count * ProgramHeader.size)).toList = .ok segments ↔
      segments.length = count ∧ ∀ (k : Nat) (h : ProgramHeader), segments[k]? = some h →
        ProgramHeader.parse
          (File.window data (offset + k * ProgramHeader.size) ProgramHeader.size).toList e
            = .ok (h, []) := by
  have hlength : (File.window data offset (count * ProgramHeader.size)).toList.length
      = count * ProgramHeader.size := by
    rw [Array.length_toList, File.size_window_eq_iff, ProgramHeader.size] at *
    omega
  rw [readTable_eq e (Nat.le_of_eq hlength.symm), Except.ok.injEq]
  constructor
  · rintro rfl
    refine ⟨by rw [List.length_map, List.length_range], fun k h hk => ?_⟩
    rw [List.getElem?_map, Option.map_eq_some_iff] at hk
    obtain ⟨k', hk', rfl⟩ := hk
    obtain ⟨hlt, rfl⟩ := List.getElem?_eq_some_iff.1 hk'
    rw [List.length_range] at hlt
    rw [List.getElem_range]
    exact table_entry e (by omega) hlt
  · rintro ⟨hcount, hentries⟩
    refine List.ext_getElem? fun k => ?_
    by_cases hk : k < count
    · have hsegment := List.getElem?_eq_getElem (Nat.lt_of_lt_of_eq hk hcount.symm)
      have hparsed := hentries k _ hsegment
      rw [table_entry e (by omega) hk, Except.ok.injEq, Prod.mk.injEq] at hparsed
      rw [List.getElem?_map, List.getElem?_range hk, Option.map_some, hsegment, hparsed.1]
    · rw [List.getElem?_eq_none (by rw [List.length_map, List.length_range]; omega),
        List.getElem?_eq_none (by omega)]

/-- The images that are read from a file are those that its bytes say, with a header that the
loader supports. -/
theorem ofFile_eq_ok (hf : f.Holds data) {image : ElfImage} :
    ofFile f = .ok image ↔ image.header.Supported ∧ image.ReadFrom data := by
  have hinside_iff : ∀ header : ElfHeader,
      (header.programHeaderCount.toNat * ProgramHeader.size = 0 ∨
        header.programHeadersOffset.toNat
          + header.programHeaderCount.toNat * ProgramHeader.size ≤ data.size) ↔
      (header.programHeaderCount.toNat = 0 ∨ header.programHeadersOffset.toNat
          + header.programHeaderCount.toNat * ProgramHeader.size ≤ data.size) := by
    intro header
    rw [ProgramHeader.size]
    omega
  simp only [ofFile, except_bind_eq_ok, readHeader_eq_ok hf, readExact_eq_ok hf, hinside_iff,
    except_pure_eq_ok]
  constructor
  · rintro ⟨header, ⟨hsupported, hsize, hparse⟩, _, ⟨hinside, rfl⟩, segments, hread, rfl⟩
    obtain ⟨hcount, hentries⟩ := (readTable_eq_ok _ hinside).1 hread
    exact ⟨hsupported, hsize, hparse, hinside, hcount, hentries⟩
  · rintro ⟨hsupported, hsize, hparse, hinside, hcount, hentries⟩
    exact ⟨image.header, ⟨hsupported, hsize, hparse⟩, _, ⟨hinside, rfl⟩, image.segments,
      (readTable_eq_ok _ hinside).2 ⟨hcount, hentries⟩, rfl⟩

end ElfImage

end DemandPaging
