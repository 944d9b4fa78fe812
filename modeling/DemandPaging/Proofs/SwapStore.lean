import DemandPaging.Proofs.Availability
import DemandPaging.Proofs.Contents
import DemandPaging.Proofs.Transfers
import DemandPaging.Swap.Run

/-!
# The swap area as an array of pages

Between a caller and the bytes on the disk lie a table of slots, a device that numbers its sectors
in 32 bits, and the disk. Seen from outside there is only an array of pages: a slot holds the page
that was last written to it, whatever has happened to the other slots, and whether a slot is taken
depends on the last time it was taken or given back.

Both are read off the *history* of a run, so the specification needs no state of its own. The
invariant `Swap.Mirrors` ties the area to the history that led to it; each call keeps it and gives
the answer the history asks for, and the results for runs follow by induction.

## Main definitions

* `Swap.lastWritten`, `Swap.inUseAfter` — what the history says of a slot.
* `Swap.Event.Answers` — the answer that the history asks for.
* `Swap.Mirrors` — the area is as the history says.
* `Swap.StoresPages` — everything a caller may rely on after a run.

## Main results

* `Swap.Mirrors.step`, `Swap.Mirrors.run` — every call, and every run, follows the history.
* `Swap.storesPages_of_run` — an area on a blank disk is an array of pages.
-/

namespace DemandPaging

namespace Swap

variable {s s' : Swap} {slot : Nat} {page : Page} {history before : List Event} {e : Event}

/-! ### What a history says -/

/-- The page that a call put into `slot`. -/
def Event.put? (e : Event) (slot : Nat) : Option Page :=
  match e.request with
  | .write i page => if i = slot then some page else none
  | _ => none

/-- Whether a call took `slot` or gave it back. -/
def Event.use? (e : Event) (slot : Nat) : Option Bool :=
  match e.request, e.answer with
  | .allocate, .slot i => if i = slot then some true else none
  | .release i, _ => if i = slot then some false else none
  | _, _ => none

/-- The page last written to a slot, zeros if none ever was. -/
def lastWritten (history : List Event) (slot : Nat) : Page :=
  (history.reverse.findSome? (·.put? slot)).getD Page.zero

/-- Whether a slot was taken and has not been given back since. -/
def inUseAfter (history : List Event) (slot : Nat) : Bool :=
  (history.reverse.findSome? (·.use? slot)).getD false

/-- The number of sectors a call writes. -/
def Request.writes : Request → Nat
  | .write .. => sectorsPerPage
  | _ => 0

/-- The number of sectors a call reads. -/
def Request.reads : Request → Nat
  | .read _ => sectorsPerPage
  | _ => 0

/-- The number of sectors written in a history. -/
def sectorsWritten (history : List Event) : Nat := history.foldl (fun n e => n + e.request.writes) 0

/-- The number of sectors read in a history. -/
def sectorsRead (history : List Event) : Nat := history.foldl (fun n e => n + e.request.reads) 0

/-- The answer of an array of `slots` pages with the history `before`. -/
def Event.Answers (e : Event) (slots : Nat) (before : List Event) : Prop :=
  match e.request with
  | .allocate => ∃ slot, e.answer = .slot slot ∧ slot < slots ∧ inUseAfter before slot = false ∧
      ∀ i < slot, inUseAfter before i = true
  | .release slot | .write slot _ => inUseAfter before slot = true ∧ e.answer = .done
  | .read slot => inUseAfter before slot = true ∧ e.answer = .page (lastWritten before slot)

/-- The calls that an array of `slots` pages answers after `before`. The counts of sectors have 32
bits, so a page can be moved as long as they have room for its sectors. -/
def Request.Due (slots : Nat) (before : List Event) : Request → Prop
  | .allocate => ∃ slot < slots, inUseAfter before slot = false
  | .release slot => inUseAfter before slot = true
  | .write slot _ =>
    inUseAfter before slot = true ∧ sectorsWritten before < 2 ^ 32 - sectorsPerPage
  | .read slot => inUseAfter before slot = true ∧ sectorsRead before < 2 ^ 32 - sectorsPerPage

/-- Every call of the list is due when its turn comes, whatever the calls before it answer. -/
def DueInTurn (slots : Nat) : List Event → List Request → Prop
  | _, [] => True
  | before, request :: rest => request.Due slots before ∧
      ∀ answer, Event.Answers ⟨request, answer⟩ slots before →
        DueInTurn slots (before ++ [⟨request, answer⟩]) rest

/-- What a call does to one slot shows there and nowhere else. -/
theorem getD_ite_some {α : Type} (slot i : Nat) (a b : α) :
    (if slot = i then some a else none).getD b = if i = slot then a else b := by
  by_cases hi : i = slot
  · rw [if_pos hi.symm, if_pos hi, Option.getD_some]
  · rw [if_neg (Ne.symm hi), if_neg hi, Option.getD_none]

theorem lastWritten_concat (history : List Event) (e : Event) (slot : Nat) :
    lastWritten (history ++ [e]) slot = (e.put? slot).getD (lastWritten history slot) := by
  simp only [lastWritten, List.reverse_append, List.reverse_singleton, List.singleton_append,
    List.findSome?_cons]
  cases e.put? slot <;> rfl

theorem inUseAfter_concat (history : List Event) (e : Event) (slot : Nat) :
    inUseAfter (history ++ [e]) slot = (e.use? slot).getD (inUseAfter history slot) := by
  simp only [inUseAfter, List.reverse_append, List.reverse_singleton, List.singleton_append,
    List.findSome?_cons]
  cases e.use? slot <;> rfl

theorem sectorsWritten_concat (history : List Event) (e : Event) :
    sectorsWritten (history ++ [e]) = sectorsWritten history + e.request.writes :=
  List.foldl_concat _ _ _ _

theorem sectorsRead_concat (history : List Event) (e : Event) :
    sectorsRead (history ++ [e]) = sectorsRead history + e.request.reads :=
  List.foldl_concat _ _ _ _

/-! ### The calls one by one -/

/-- The slot that is taken next is the first that is free. -/
theorem isInUse_of_lt_firstFree? (h : s.firstFree? = some slot) {i : Nat} (hi : i < slot) :
    s.isInUse i = true := by
  unfold firstFree? at h
  split at h
  · rename_i j hj
    cases h
    rw [Array.findIdx?_eq_some_iff_getElem] at hj
    obtain ⟨hlt, -, hbefore⟩ := hj
    have htaken := hbefore i hi
    have hsize : i < s.taken.size := by omega
    simpa [isInUse, hsize] using htaken
  · rename_i hnone
    split at h
    · cases h
      have htaken := Array.findIdx?_eq_none_iff.1 hnone s.taken[i] (Array.getElem_mem hi)
      simpa [isInUse, hi] using htaken
    · cases h

theorem isInUse_of_lt_allocate (h : s.allocate = .ok (slot, s')) {i : Nat} (hi : i < slot) :
    s.isInUse i = true := by
  unfold Swap.allocate at h
  cases hf : s.firstFree? with
  | none => simp [hf] at h
  | some first =>
    simp only [hf, except_bind_eq_ok, except_pure_eq_ok, Prod.mk.injEq] at h
    obtain ⟨_, -, rfl, -⟩ := h
    exact isInUse_of_lt_firstFree? hf hi

/-- A page-sized buffer is written if the slot is in use. -/
theorem write_toArray_eq_ok :
    s.write slot page.toArray = .ok s' ↔ s.isInUse slot = true ∧ s.store slot page = .ok s' := by
  simp only [Swap.write, checkWrite, Page.ofBytes?, Vector.size_toArray, dite_true,
    except_bind_eq_ok, except_ite_eq_ok, reduceCtorEq, and_false, or_false, and_true,
    exists_const]

/-- A page-sized buffer is read into if the slot is in use. -/
theorem read_pageSize_eq_ok {r : Page × Swap} :
    s.read slot pageSize = .ok r ↔ s.isInUse slot = true ∧ s.fetch slot = .ok r := by
  simp only [Swap.read, checkRead, if_true, except_bind_eq_ok, except_ite_eq_ok, reduceCtorEq,
    and_false, or_false, and_true, exists_const]

theorem sector_zero (k : Nat) : Page.zero.sector k = Sector.zero := by
  refine Vector.ext fun i hi => ?_
  simp only [Page.sector, Page.zero, Page.filled, Sector.zero, Vector.getElem_ofFn, Vector.getD,
    Vector.toArray_replicate, Array.getD_eq_getD_getElem?, Vector.getElem_replicate]
  by_cases hk : k * sectorSize + i < pageSize <;> simp [hk]

/-! ### The area follows its history -/

/-- The area is as its history says. -/
structure Mirrors (s : Swap) (history : List Event) : Prop where
  consistent : s.Consistent
  backed : s.Backed
  isInUse_eq : ∀ slot, s.isInUse slot = inUseAfter history slot
  contents_eq : ∀ slot, s.contents slot = lastWritten history slot
  writes_eq : s.device.writes = sectorsWritten history
  reads_eq : s.device.reads = sectorsRead history

namespace Mirrors

theorem slot_lt (hs : s.Mirrors history) (hslot : inUseAfter history slot = true) :
    slot < s.slots := by
  rw [← hs.isInUse_eq] at hslot
  exact Nat.lt_of_lt_of_le (lt_size_of_isInUse hslot) hs.consistent.size_taken

/-- The sectors of a slot are on the device. -/
theorem sector_le (hs : s.Mirrors history) (hslot : slot < s.slots) :
    slot * sectorsPerPage + sectorsPerPage ≤ s.device.size :=
  hs.backed.slot_le hslot

/-- The number of the first sector of a slot is not cut off. -/
theorem slot_mul_lt (hs : s.Mirrors history) (hslot : slot < s.slots) :
    slot * sectorsPerPage < 2 ^ 32 := by
  have hle := hs.sector_le hslot
  have hsize := hs.backed.healthy.size_le
  have hpos : 0 < sectorsPerPage := by decide
  omega

/-- The slots that are not in use are the ones counted as free. -/
theorem free_eq (hs : s.Mirrors history) :
    s.free = (List.range s.slots).countP fun slot => !inUseAfter history slot := by
  have hperm : s.usedSlots.Perm ((List.range s.slots).filter (inUseAfter history)) := by
    refine (List.perm_ext_iff_of_nodup s.nodup_usedSlots (List.nodup_range.filter _)).2 ?_
    intro slot
    rw [mem_usedSlots, List.mem_filter, List.mem_range, hs.isInUse_eq]
    exact (and_iff_right_of_imp hs.slot_lt).symm
  have hlength := hperm.length_eq
  rw [← List.countP_eq_length_filter] at hlength
  have hsplit := (List.range s.slots).length_eq_countP_add_countP (inUseAfter history)
  rw [List.length_range] at hsplit
  have hadd := hs.consistent.free_add
  have hnot : (List.range s.slots).countP (fun slot => !inUseAfter history slot)
      = (List.range s.slots).countP fun slot => decide ¬ inUseAfter history slot = true := by
    refine List.countP_congr fun slot _ => ?_
    simp
  omega

/-- A call that changes the table, the pages and the counts as its event says keeps the area in
line with the history. -/
theorem concat (hs : s.Mirrors history) (hc : s'.Consistent) (hb : s'.Backed)
    (huse : ∀ i, s'.isInUse i = (e.use? i).getD (s.isInUse i))
    (hcontents : ∀ i, s'.contents i = (e.put? i).getD (s.contents i))
    (hwrites : s'.device.writes = s.device.writes + e.request.writes)
    (hreads : s'.device.reads = s.device.reads + e.request.reads) :
    s'.Mirrors (history ++ [e]) where
  consistent := hc
  backed := hb
  isInUse_eq i := by rw [huse, inUseAfter_concat, hs.isInUse_eq]
  contents_eq i := by rw [hcontents, lastWritten_concat, hs.contents_eq]
  writes_eq := by rw [hwrites, sectorsWritten_concat, hs.writes_eq]
  reads_eq := by rw [hreads, sectorsRead_concat, hs.reads_eq]

/-- A call that changes nothing but the table has no part in the pages and the counts. -/
theorem concat_of_device_eq (hs : s.Mirrors history) (hc : s'.Consistent)
    (hslots : s'.slots = s.slots) (hdevice : s'.device = s.device)
    (huse : ∀ i, s'.isInUse i = (e.use? i).getD (s.isInUse i)) (hput : ∀ i, e.put? i = none)
    (hwrites : e.request.writes = 0) (hreads : e.request.reads = 0) :
    s'.Mirrors (history ++ [e]) := by
  refine hs.concat hc (hs.backed.congr hdevice hslots) huse ?_ ?_ ?_
  · intro i
    rw [hput, Option.getD_none, contents_congr hdevice]
  · rw [hdevice, hwrites, Nat.add_zero]
  · rw [hdevice, hreads, Nat.add_zero]

theorem allocate (hs : s.Mirrors history) (h : s.allocate = .ok (slot, s')) :
    s'.Mirrors (history ++ [⟨.allocate, .slot slot⟩]) ∧
      Event.Answers ⟨.allocate, .slot slot⟩ s.slots history ∧
      s'.slots = s.slots ∧ s'.device.size = s.device.size := by
  obtain ⟨hc, hslots, hdevice, hunused, hlt, huse⟩ := hs.consistent.allocate h
  refine ⟨?_, ⟨slot, rfl, hlt, ?_, ?_⟩, hslots, by rw [hdevice]⟩
  · refine hs.concat_of_device_eq hc hslots hdevice (fun i => ?_) (fun _ => rfl) rfl rfl
    exact (huse i).trans (getD_ite_some slot i _ _).symm
  · rw [← hs.isInUse_eq, hunused]
  · intro i hi
    rw [← hs.isInUse_eq, isInUse_of_lt_allocate h hi]

theorem release (hs : s.Mirrors history) (h : s.release slot = .ok s') :
    s'.Mirrors (history ++ [⟨.release slot, .done⟩]) ∧
      Event.Answers ⟨.release slot, .done⟩ s.slots history ∧
      s'.slots = s.slots ∧ s'.device.size = s.device.size := by
  obtain ⟨hc, hslots, hdevice, hused, huse⟩ := hs.consistent.release h
  refine ⟨?_, ⟨?_, rfl⟩, hslots, by rw [hdevice]⟩
  · refine hs.concat_of_device_eq hc hslots hdevice (fun i => ?_) (fun _ => rfl) rfl rfl
    exact (huse i).trans (getD_ite_some slot i _ _).symm
  · rw [← hs.isInUse_eq, hused]

theorem write (hs : s.Mirrors history) (h : s.write slot page.toArray = .ok s') :
    s'.Mirrors (history ++ [⟨.write slot page, .done⟩]) ∧
      Event.Answers ⟨.write slot page, .done⟩ s.slots history ∧
      s'.slots = s.slots ∧ s'.device.size = s.device.size := by
  obtain ⟨hused, hstore⟩ := write_toArray_eq_ok.1 h
  rw [hs.isInUse_eq] at hused
  have hcontents := contents_of_store (hs.slot_mul_lt (hs.slot_lt hused)) hstore
  obtain ⟨hsize, hreads, hwrites, -⟩ := counts_of_store hstore
  have hbacked := hs.backed.store hstore
  obtain ⟨device, -, rfl⟩ := store_eq_ok hstore
  refine ⟨hs.concat ⟨hs.consistent.size_taken, hs.consistent.free_add⟩ hbacked (fun i => rfl) ?_
    hwrites hreads, ⟨hused, rfl⟩, rfl, hsize⟩
  intro i
  exact (hcontents i).trans (getD_ite_some slot i _ _).symm

theorem read (hs : s.Mirrors history) (h : s.read slot pageSize = .ok (page, s')) :
    s'.Mirrors (history ++ [⟨.read slot, .page page⟩]) ∧
      Event.Answers ⟨.read slot, .page page⟩ s.slots history ∧
      s'.slots = s.slots ∧ s'.device.size = s.device.size := by
  obtain ⟨hused, hfetch⟩ := read_pageSize_eq_ok.1 h
  rw [hs.isInUse_eq] at hused
  obtain ⟨rfl, hcontents⟩ := contents_of_fetch (hs.slot_mul_lt (hs.slot_lt hused)) hfetch
  have hdevice := counts_of_fetch hfetch
  have hbacked := hs.backed.fetch hfetch
  obtain ⟨_, device, -, -, rfl⟩ := fetch_eq_ok hfetch
  obtain rfl : device = { s.device with reads := s.device.reads + sectorsPerPage } := hdevice
  exact ⟨hs.concat ⟨hs.consistent.size_taken, hs.consistent.free_add⟩ hbacked (fun i => rfl)
    hcontents rfl rfl, ⟨hused, by rw [hs.contents_eq]⟩, rfl, rfl⟩

/-- Every call follows the history. -/
theorem step (hs : s.Mirrors history) {request : Request} {answer : Answer}
    (h : s.serve request = .ok (answer, s')) :
    s'.Mirrors (history ++ [⟨request, answer⟩]) ∧
      Event.Answers ⟨request, answer⟩ s.slots history ∧
      s'.slots = s.slots ∧ s'.device.size = s.device.size := by
  cases request with
  | allocate =>
    simp only [serve, except_bind_eq_ok, except_pure_eq_ok, Prod.exists, Prod.mk.injEq] at h
    obtain ⟨slot, _, hcall, rfl, rfl⟩ := h
    exact hs.allocate hcall
  | release slot =>
    simp only [serve, except_bind_eq_ok, except_pure_eq_ok, Prod.mk.injEq] at h
    obtain ⟨_, hcall, rfl, rfl⟩ := h
    exact hs.release hcall
  | write slot page =>
    simp only [serve, except_bind_eq_ok, except_pure_eq_ok, Prod.mk.injEq] at h
    obtain ⟨_, hcall, rfl, rfl⟩ := h
    exact hs.write hcall
  | read slot =>
    simp only [serve, except_bind_eq_ok, except_pure_eq_ok, Prod.exists, Prod.mk.injEq] at h
    obtain ⟨page, _, hcall, rfl, rfl⟩ := h
    exact hs.read hcall

/-- A call that is due is answered. -/
theorem exists_serve (hs : s.Mirrors history) {request : Request}
    (hdue : request.Due s.slots history) : ∃ r, s.serve request = .ok r := by
  cases request with
  | allocate =>
    obtain ⟨slot, hslot, hfree⟩ := hdue
    have hpos : 0 < s.free := by
      rw [hs.free_eq, List.countP_pos_iff]
      exact ⟨slot, List.mem_range.2 hslot, by rw [hfree]; rfl⟩
    rcases hs.consistent.allocate_cases with ⟨-, r, hr⟩ | ⟨hzero, -⟩
    · rw [serve, hr]
      exact ⟨_, rfl⟩
    · omega
  | release slot =>
    obtain ⟨s', hr⟩ := Swap.exists_release ((hs.isInUse_eq slot).trans hdue)
    rw [serve, hr]
    exact ⟨_, rfl⟩
  | write slot page =>
    obtain ⟨hslot, hcount⟩ := hdue
    rw [← hs.writes_eq] at hcount
    obtain ⟨s', hstore⟩ := hs.backed.exists_store (hs.slot_lt hslot) (by omega) page
    rw [serve, write_toArray_eq_ok.2 ⟨(hs.isInUse_eq slot).trans hslot, hstore⟩]
    exact ⟨_, rfl⟩
  | read slot =>
    obtain ⟨hslot, hcount⟩ := hdue
    rw [← hs.reads_eq] at hcount
    obtain ⟨r, hfetch⟩ := hs.backed.exists_fetch (hs.slot_lt hslot) (by omega)
    rw [serve, read_pageSize_eq_ok.2 ⟨(hs.isInUse_eq slot).trans hslot, hfetch⟩]
    exact ⟨_, rfl⟩

/-- Every run follows the history, from wherever it starts. -/
theorem run (hs : s.Mirrors before) {requests : List Request}
    (h : Swap.run requests s = .ok (history, s')) :
    s'.Mirrors (before ++ history) ∧ s'.slots = s.slots ∧ s'.device.size = s.device.size ∧
      history.map (·.request) = requests ∧
      ∀ earlier e later, history = earlier ++ e :: later →
        e.Answers s.slots (before ++ earlier) := by
  induction requests generalizing s before history with
  | nil =>
    cases h
    rw [List.append_nil]
    exact ⟨hs, rfl, rfl, rfl, fun earlier e later heq => by simp at heq⟩
  | cons request rest ih =>
    simp only [Swap.run, except_bind_eq_ok, except_pure_eq_ok, Prod.exists, Prod.mk.injEq] at h
    obtain ⟨answer, s₁, hcall, others, s₂, hrest, rfl, rfl⟩ := h
    obtain ⟨hs₁, hanswer, hslots, hsize⟩ := hs.step hcall
    obtain ⟨hs₂, hslots₂, hsize₂, hrequests, hanswers⟩ := ih hs₁ hrest
    rw [List.append_assoc] at hs₂
    refine ⟨hs₂, hslots₂.trans hslots, hsize₂.trans hsize, by rw [List.map_cons, hrequests], ?_⟩
    intro earlier e later heq
    cases earlier with
    | nil =>
      obtain ⟨rfl, -⟩ := List.cons.inj heq
      rw [List.append_nil]
      exact hanswer
    | cons first earlier =>
      obtain ⟨rfl, htail⟩ := List.cons.inj heq
      have := hanswers earlier e later htail
      rw [List.append_assoc, hslots] at this
      exact this

/-- A run in which every call is due when its turn comes does not panic. -/
theorem exists_run (hs : s.Mirrors before) {requests : List Request}
    (hdue : DueInTurn s.slots before requests) : ∃ r, Swap.run requests s = .ok r := by
  induction requests generalizing s before with
  | nil => exact ⟨_, rfl⟩
  | cons request rest ih =>
    obtain ⟨hnow, hrest⟩ := hdue
    obtain ⟨⟨answer, s₁⟩, hcall⟩ := hs.exists_serve hnow
    obtain ⟨hs₁, hanswer, hslots, -⟩ := hs.step hcall
    obtain ⟨r, hr⟩ := ih hs₁ (hslots ▸ hrest answer hanswer)
    simp only [Swap.run, hcall, except_ok_bind, hr]
    exact ⟨_, rfl⟩

/-- The invariant holds of an area on a blank disk. -/
theorem ofBlock (name : String) {sectors : Nat} (hsectors : sectors ≤ 2 ^ 32) (maxSlots : Nat) :
    (ofBlock (.attach .swap name (.ram (.blank sectors))) maxSlots).Mirrors [] where
  consistent := Consistent.ofBlock _ _
  backed := backed_ofBlock (Block.Healthy.attach name hsectors) maxSlots
  isInUse_eq slot := by simp [isInUse, Swap.ofBlock, inUseAfter]
  contents_eq slot := by
    rw [contents, lastWritten]
    refine Eq.trans (congrArg Page.ofSectors (List.map_congr_left fun k _ => ?_))
      (ofSectors_sector Page.zero)
    rw [sector_zero]
    exact RamDisk.contents_blank _ _
  writes_eq := rfl
  reads_eq := rfl

end Mirrors

/-! ### What a caller may rely on -/

/-- The numbers of the sectors that a page transfer of a slot goes through. -/
def sectorNumbers (slot : Nat) : List Nat := (List.range sectorsPerPage).map (firstSector slot + ·)

/-- What a caller may rely on after a run of calls on an area with at most `maxSlots` slots on a
disk of `sectors` sectors. -/
structure StoresPages (sectors maxSlots : Nat) (history : List Event) (s : Swap) : Prop where
  slots_eq : s.slots = min (sectors / sectorsPerPage) maxSlots
  /-- Every call was answered as an array of pages answers it. -/
  answers : ∀ earlier e later, history = earlier ++ e :: later → e.Answers s.slots earlier
  isInUse_eq : ∀ slot, s.isInUse slot = inUseAfter history slot
  lt_slots : ∀ slot, inUseAfter history slot = true → slot < s.slots
  free_eq : s.free = (List.range s.slots).countP fun slot => !inUseAfter history slot
  /-- A call that is due does not panic. -/
  exists_serve : ∀ request : Request, request.Due s.slots history → ∃ r, s.serve request = .ok r
  /-- The numbers of the sectors are not cut off at 32 bits. -/
  sectorNumbers_eq : ∀ slot < s.slots,
    sectorNumbers slot = (List.range sectorsPerPage).map (slot * sectorsPerPage + ·)
  sector_lt : ∀ slot < s.slots, ∀ i ∈ sectorNumbers slot, i < sectors
  disjoint : ∀ i < s.slots, ∀ j < s.slots, i ≠ j → (sectorNumbers i).Disjoint (sectorNumbers j)
  /-- A page is written to the sectors of its slot, and to no others. -/
  written : ∀ slot (page : Page) s', s.write slot page.toArray = .ok s' →
    (sectorNumbers slot).map s'.device.device.contents
        = (List.range sectorsPerPage).map page.sector ∧
      ∀ i ∉ sectorNumbers slot, s'.device.device.contents i = s.device.device.contents i
  /-- A page is read from the sectors of its slot. -/
  read : ∀ slot page s', s.read slot pageSize = .ok (page, s') →
    page = Page.ofSectors ((sectorNumbers slot).map s.device.device.contents)

theorem mem_sectorNumbers {i : Nat} :
    i ∈ sectorNumbers slot ↔ firstSector slot ≤ i ∧ i < firstSector slot + sectorsPerPage := by
  simp only [sectorNumbers, List.mem_map, List.mem_range]
  constructor
  · rintro ⟨k, hk, rfl⟩
    omega
  · rintro ⟨hle, hlt⟩
    exact ⟨i - firstSector slot, by omega, by omega⟩

theorem contents_of_write (h : s.write slot page.toArray = .ok s') :
    (sectorNumbers slot).map s'.device.device.contents
        = (List.range sectorsPerPage).map page.sector ∧
      ∀ i ∉ sectorNumbers slot, s'.device.device.contents i = s.device.device.contents i := by
  obtain ⟨-, hstore⟩ := write_toArray_eq_ok.1 h
  obtain ⟨device, hd, rfl⟩ := store_eq_ok hstore
  have hsectors := contents_of_storeSectors hd
  rw [Nat.add_zero] at hsectors
  constructor
  · rw [sectorNumbers, List.map_map]
    refine List.map_congr_left fun k hk => ?_
    have hk := List.mem_range.1 hk
    rw [Function.comp, hsectors, if_pos (by omega), Nat.add_sub_cancel_left]
  · intro i hi
    rw [mem_sectorNumbers] at hi
    rw [hsectors, if_neg hi]

theorem eq_of_read (h : s.read slot pageSize = .ok (page, s')) :
    page = Page.ofSectors ((sectorNumbers slot).map s.device.device.contents) := by
  obtain ⟨-, hfetch⟩ := read_pageSize_eq_ok.1 h
  obtain ⟨sectors, device, hd, rfl, -⟩ := fetch_eq_ok hfetch
  rw [(contents_of_fetchSectors hd).1, Nat.add_zero, sectorNumbers, List.map_map]
  rfl

/-- An area on a blank disk is an array of pages, after any run that does not panic. -/
theorem storesPages_of_run (name : String) {sectors : Nat} (hsectors : sectors < 2 ^ 32)
    (maxSlots : Nat) {requests : List Request}
    (h : run requests (ofBlock (.attach .swap name (.ram (.blank sectors))) maxSlots)
      = .ok (history, s)) :
    history.map (·.request) = requests ∧ StoresPages sectors maxSlots history s := by
  have hstart := Mirrors.ofBlock name (Nat.le_of_lt hsectors) maxSlots
  obtain ⟨hs, hslots, hsize, hrequests, hanswers⟩ := hstart.run h
  rw [List.nil_append] at hs
  replace hsize : s.device.size = sectors := hsize
  refine ⟨hrequests, ?_⟩
  constructor
  case slots_eq => exact hslots
  case answers =>
    intro earlier e later heq
    rw [hslots]
    exact hanswers earlier e later heq
  case isInUse_eq => exact hs.isInUse_eq
  case lt_slots => exact fun slot => hs.slot_lt
  case free_eq => exact hs.free_eq
  case exists_serve => exact fun request => hs.exists_serve
  case sectorNumbers_eq =>
    intro slot hslot
    rw [sectorNumbers, firstSector_of_lt (hs.slot_mul_lt hslot)]
  case sector_lt =>
    intro slot hslot i hi
    have hle := hs.sector_le hslot
    rw [mem_sectorNumbers, firstSector_of_lt (hs.slot_mul_lt hslot)] at hi
    omega
  case disjoint =>
    intro i hi j hj hne
    rw [List.disjoint_left]
    intro n hni hnj
    rw [mem_sectorNumbers, firstSector_of_lt (hs.slot_mul_lt hi)] at hni
    rw [mem_sectorNumbers, firstSector_of_lt (hs.slot_mul_lt hj)] at hnj
    simp only [sectorsPerPage, pageSize, sectorSize] at hni hnj
    omega
  case written => exact fun slot page s' => contents_of_write
  case read => exact fun slot page s' => eq_of_read

/-- Two slots are taken and written, and the first is given back and taken again. -/
def reuse : List Request :=
  [.allocate, .write 0 (Page.filled 7), .allocate, .write 1 (Page.filled 9), .release 0, .allocate,
    .read 0]

theorem dueInTurn_reuse : DueInTurn 3 [] reuse := by
  -- the slot that is taken is the least one that is free
  have hleast : ∀ {before : List Event} {answer : Answer} {n : Nat},
      Event.Answers ⟨.allocate, answer⟩ 3 before → inUseAfter before n = false →
      (∀ i < n, inUseAfter before i = true) → answer = .slot n := by
    rintro before answer n ⟨slot, rfl, -, hfree, hbelow⟩ hn hbelow'
    rcases Nat.lt_trichotomy slot n with hlt | rfl | hlt
    · rw [hbelow' slot hlt] at hfree
      cases hfree
    · rfl
    · rw [hbelow n hlt] at hn
      cases hn
  refine ⟨⟨0, by decide, rfl⟩, fun answer h => ?_⟩
  obtain rfl := hleast h (n := 0) rfl (fun i hi => absurd hi (Nat.not_lt_zero i))
  refine ⟨⟨rfl, by decide⟩, ?_⟩
  rintro _ ⟨-, rfl⟩
  refine ⟨⟨1, by decide, rfl⟩, fun answer h => ?_⟩
  obtain rfl := hleast h (n := 1) rfl (by decide)
  refine ⟨⟨rfl, by decide⟩, ?_⟩
  rintro _ ⟨-, rfl⟩
  refine ⟨rfl, ?_⟩
  rintro _ ⟨-, rfl⟩
  refine ⟨⟨0, by decide, rfl⟩, fun answer h => ?_⟩
  obtain rfl := hleast h (n := 0) rfl (fun i hi => absurd hi (Nat.not_lt_zero i))
  exact ⟨⟨rfl, by decide⟩, fun _ _ => trivial⟩

theorem storesPages_reuse :
    40 < 2 ^ 32 ∧ ∃ history s,
      run reuse (ofBlock (.attach .swap "swap" (.ram (.blank 40))) 3) = .ok (history, s) ∧
        history.map (·.request) = reuse ∧ StoresPages 40 3 history s := by
  have hsectors : 40 < 2 ^ 32 := by decide
  have hmirrors : Mirrors (ofBlock (.attach .swap "swap" (.ram (.blank 40))) 3) [] :=
    Mirrors.ofBlock "swap" (Nat.le_of_lt hsectors) 3
  obtain ⟨⟨history, s⟩, h⟩ := hmirrors.exists_run dueInTurn_reuse
  exact ⟨hsectors, history, s, h, storesPages_of_run "swap" hsectors 3 h⟩

end Swap

end DemandPaging
