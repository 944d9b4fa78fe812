import DemandPaging.Proofs.Pins
import DemandPaging.Proofs.TableCount
import DemandPaging.Proofs.Transfers
import DemandPaging.Proofs.Translation

/-!
# What the pager has to work with

Beside the books, the operations of the pager rely on what they work with: every frame has its
memory, every slot its sectors on a device that does not fail, every resident page a place in a
page table that counts itself right, and user pages lie in user memory. None of this is ever lost.

## Main definitions

* `Process.Mappable` — the table of a process takes and gives up pages.
* `Pager.Equipped` — memory, swap area and tables are as the operations expect them.

## Main results

* `Pager.Step.equipped` — every step keeps what the pager has to work with.
-/

namespace DemandPaging

open VirtualAddress (place)

/-! ### One process -/

/-- The table of the process maps exactly its resident pages, and it counts itself right. -/
structure Process.Mappable (pr : Process) : Prop where
  charted : pr.Charted
  counted : pr.space.table.Counted

namespace Process

variable {pr pr' : Process} {addr f phys : Nat} {change : Pager.Change}

theorem Mappable.fresh : Process.fresh.Mappable := ⟨.fresh, PageTable.counted_empty⟩

theorem Turns.counted (h : pr.Turns change pr') (hpr : pr.Mappable) :
    pr'.space.table.Counted := by
  cases h with
  | idle => exact hpr.counted
  | mapped address set =>
    rcases table_of_setPage set with ⟨h, -⟩ | hmap
    · simp at h
    · exact hpr.counted.map hpr.charted.wellFormed hmap
  | refused set =>
    rcases table_of_setPage set with ⟨-, htable⟩ | hmap
    · simpa [htable] using hpr.counted
    · exact hpr.counted.map hpr.charted.wellFormed hmap
  | unmapped unmapped =>
    exact hpr.counted.unmap hpr.charted.wellFormed (table_of_clearPage unmapped)
  | plan => exact hpr.counted

theorem Turns.mappable (h : pr.Turns change pr') (hpr : pr.Mappable) : pr'.Mappable :=
  ⟨h.charted hpr.charted, h.counted hpr⟩

/-- A page below 4 GiB can be unmapped. -/
theorem Mappable.exists_clearPage (h : pr.Mappable) (haddr : addr < 2 ^ 32) :
    ∃ space, pr.space.clearPage addr = .ok space := by
  obtain ⟨table, htable⟩ := PageTable.exists_unmap h.charted.wellFormed h.counted haddr
  refine ⟨{ pr.space with table }, ?_⟩
  simp only [AddressSpace.clearPage, htable, except_ok_bind]
  rfl

/-- A page below 4 GiB is put into a frame, or refused. -/
theorem Mappable.exists_setPage (h : pr.Mappable) (hpage : pageFloor addr = addr)
    (haddr : addr < 2 ^ 32) (hphys : pageOffset phys = 0) (hphys' : phys < 2 ^ 32)
    (writable : Bool) : ∃ r, pr.space.setPage addr phys writable = .ok r := by
  obtain ⟨r, hr⟩ := PageTable.exists_map h.charted.wellFormed h.counted hphys hphys' haddr
    writable true
  unfold AddressSpace.setPage
  cases pr.space.refuses pr.space.requests with
  | true => exact ⟨_, rfl⟩
  | false =>
    simp only [Bool.false_eq_true, if_false, hpage, if_true, hr, except_ok_bind]
    exact ⟨_, rfl⟩

end Process

/-! ### The pager -/

namespace FrameMemory

variable {m m' : FrameMemory} {f : Nat} {page : Page}

theorem size_of_setContents (h : m.setContents f page = .ok m') : m'.size = m.size := by
  rw [setContents] at h
  split at h
  · cases h
    simp [size]
  · simp at h

theorem exists_contents (hf : f < m.size) : ∃ page, m.contents f = .ok page := by
  rw [size] at hf
  exact ⟨m.frames[f], by rw [contents, Array.getElem?_eq_getElem hf]⟩

theorem exists_setContents (hf : f < m.size) (page : Page) : ∃ m', m.setContents f page = .ok m' :=
  ⟨_, by rw [setContents, if_pos hf]⟩

end FrameMemory

namespace Pager

variable {p p₁ p' : Pager} {config : Config} {slots pid page f : Nat} {e : PageEntry}
  {o : FrameOwner} {change : Change}

/-- What the operations work with is as they expect it. -/
structure Equipped (p : Pager) : Prop where
  /-- Every frame has its memory. -/
  size_memory : p.memory.size = p.config.userFrames
  /-- Every slot has its sectors. -/
  backed : p.swap.Backed
  /-- Every declared page lies in user memory. -/
  user : ∀ o, (p.declared o).isSome → o.page < p.config.physBase
  /-- The tables map exactly the resident pages, and they count themselves right. -/
  mappable : p.All Process.Mappable

/-! ### The swap area -/

theorem Acquires.backed (h : p.Acquires o f p₁) (ho : SlotsOwned p.swap p.residency)
    (hp : p.swap.Backed) : p₁.swap.Backed := by
  cases h with
  | free => exact hp
  | evicting _ _ _ _ _ _ _ slot_free _ stored =>
    obtain ⟨-, hslots, hdevice, -⟩ := ho.consistent.allocate slot_free
    exact (hp.congr hdevice hslots).store stored

theorem Fetches.backed {old : Page} {result : Except FileError Page} {swap : Swap}
    (h : p.Fetches e old result swap) (hp : p.swap.Backed) : swap.Backed := by
  cases h with
  | swapped residency fetched => exact hp.fetch fetched
  | populated => exact hp

theorem backed_of_release {s s' : Swap} {slot : Nat} (h : s.release slot = .ok s')
    (hs : s.Backed) : s'.Backed := by
  refine hs.congr (Swap.device_of_release h) ?_
  rw [Swap.release] at h
  split at h
  · cases h
    rfl
  · simp at h

theorem backed_of_freesSlot {s s' : Swap} (h : freesSlot e s s') (hs : s.Backed) : s'.Backed := by
  rw [freesSlot] at h
  split at h
  · exact backed_of_release h hs
  · exact h ▸ hs

theorem Loads.backed {result : Except FaultError Nat} (h : p.Loads pid page result p')
    (ho : Owned config slots p) (hp : p.swap.Backed) : p'.swap.Backed := by
  cases h with
  | unreadable acquired process entry held fetched =>
    exact fetched.backed (acquired.backed ho.swap hp)
  | refused acquired process entry held fetched =>
    exact fetched.backed (acquired.backed ho.swap hp)
  | loaded acquired process entry held fetched written address mapped slot_freed =>
    exact backed_of_freesSlot slot_freed (fetched.backed (acquired.backed ho.swap hp))

theorem Step.backed (h : Step change p p') (ho : Owned config slots p) (hp : p.swap.Backed) :
    p'.swap.Backed := by
  cases h with
  | load missing loads => exact loads.backed ho hp
  | remove process entry releases =>
    cases releases with
    | resident => exact hp
    | swapped residency released => exact backed_of_release released hp
    | notPopulated => exact hp
  | _ => exact hp

/-! ### Memory and user pages -/

theorem Acquires.memory_eq (h : p.Acquires o f p₁) :
    p₁.memory = p.memory ∧ p₁.config = p.config := by
  cases h <;> exact ⟨rfl, rfl⟩

theorem Loads.size_memory {result : Except FaultError Nat} (h : p.Loads pid page result p') :
    p'.memory.size = p.memory.size ∧ p'.config = p.config := by
  cases h with
  | unreadable acquired =>
    exact ⟨congrArg FrameMemory.size acquired.memory_eq.1, acquired.memory_eq.2⟩
  | refused acquired process entry held fetched written =>
    exact ⟨(FrameMemory.size_of_setContents written).trans
      (congrArg FrameMemory.size acquired.memory_eq.1), acquired.memory_eq.2⟩
  | loaded acquired process entry held fetched written =>
    exact ⟨(FrameMemory.size_of_setContents written).trans
      (congrArg FrameMemory.size acquired.memory_eq.1), acquired.memory_eq.2⟩

theorem Step.size_memory (h : Step change p p') :
    p'.memory.size = p.memory.size ∧ p'.config = p.config := by
  cases h with
  | load missing loads => exact loads.size_memory
  | write written => exact ⟨FrameMemory.size_of_setContents written, rfl⟩
  | remove process entry releases => cases releases <;> exact ⟨rfl, rfl⟩
  | _ => exact ⟨rfl, rfl⟩

theorem Steps.size_memory {kinds : Change → Prop} (h : Steps kinds p p') :
    p'.memory.size = p.memory.size ∧ p'.config = p.config := by
  refine h.keeps (P := fun q => q.memory.size = p.memory.size ∧ q.config = p.config) ?_ ⟨rfl, rfl⟩
  rintro change q q' - hstep ⟨hsize, hconfig⟩
  exact ⟨hstep.size_memory.1.trans hsize, hstep.size_memory.2.trans hconfig⟩

/-- A load declares no page and takes none away. -/
theorem Loads.isSome_declared {result : Except FaultError Nat} (h : p.Loads pid page result p')
    (ho : Owned config slots p) (hmissing : p.Missing ⟨pid, page⟩) (o : FrameOwner) :
    (p'.declared o).isSome = (p.declared o).isSome := by
  have hacquired : ∀ {f p₁}, p.Acquires ⟨pid, page⟩ f p₁ →
      (p₁.declared o).isSome = (p.declared o).isSome := by
    intro f p₁ acquired
    rcases acquired.declared_eq ho hmissing.residency_ne with heq | ⟨v, e, slot, -, hv, -, heq⟩
    · rw [heq]
    · rw [heq]
      by_cases hvo : o = v
      · rw [hvo, Function.update_self, hv]
        rfl
      · rw [Function.update_of_ne hvo]
  cases h with
  | @unreadable f p₁ pr e old error swap frames acquired =>
    exact (congrArg Option.isSome (congrFun (declared_of_processes_eq (p := p₁) rfl) o)).trans
      (hacquired acquired)
  | @refused f phys p₁ pr e old contents swap memory space frames acquired process =>
    have hsame : Pager.declared { p₁.withProcess pid { pr with space } with swap, memory, frames }
        = p₁.declared := declared_of_pages_eq process rfl rfl
    exact (congrArg Option.isSome (congrFun hsame o)).trans (hacquired acquired)
  | @loaded f phys p₁ pr e old contents swap freed memory space acquired process entry =>
    rw [← hacquired acquired, declared_of_pages_set process rfl rfl,
      pageFloor_of_pageOffset hmissing.1]
    by_cases hpage : o = ⟨pid, page⟩
    · rw [PageMap.lookup, pageFloor_of_pageOffset hmissing.1] at entry
      rw [hpage, Function.update_self, declared_of_getElem? process, entry]
      rfl
    · rw [Function.update_of_ne hpage]

/-- Pages are declared below the kernel. -/
theorem Step.user (h : Step change p p') (ho : Owned config slots p)
    (hp : ∀ o, (p.declared o).isSome → o.page < p.config.physBase) (o : FrameOwner)
    (hdeclared : (p'.declared o).isSome) : o.page < p'.config.physBase := by
  rw [h.size_memory.2]
  cases h with
  | @declare _ pid page pr source writable process allowed user undeclared =>
    rw [declared_of_pages_set process rfl rfl, pageFloor_of_pageOffset
      (PageMap.pageOffset_of_checkDeclaration allowed)] at hdeclared
    by_cases hpage : o = ⟨pid, page⟩
    · rw [hpage]
      exact user
    · rw [Function.update_of_ne hpage] at hdeclared
      exact hp o hdeclared
  | load missing loads => exact hp o (loads.isSome_declared ho missing o ▸ hdeclared)
  | pin | unpin | medium | write => exact hp o hdeclared
  | @register _ pid unregistered =>
    rw [declared_withProcess_bare (fun _ ho' => declared_eq_none unregistered ho')
      fun page => by simp [Process.fresh, PageMap.empty]] at hdeclared
    exact hp o hdeclared
  | remove process entry releases =>
    exact hp o (Step.declared_of_shrink (.remove process entry releases) hdeclared)
  | discard process bare => exact hp o (Step.declared_of_shrink (.discard process bare) hdeclared)
  | @mappings _ _ pid pr mappings nextSerial process =>
    have hsame : Pager.declared { p.withProcess pid { pr with mappings } with nextSerial }
        = p.declared := declared_of_pages_eq process rfl rfl
    exact hp o (hsame ▸ hdeclared)
  | @plan _ pid pr refuses process =>
    have hsame : Pager.declared (p.withProcess pid { pr with space := pr.space.plan refuses })
        = p.declared := declared_of_pages_eq process rfl rfl
    exact hp o (hsame ▸ hdeclared)

/-! ### All of it -/

/-- Nothing that the pager has to work with is ever lost. -/
theorem Step.equipped (h : Step change p p') (ho : Owned config slots p) (hp : p.Equipped) :
    p'.Equipped where
  size_memory := by rw [h.size_memory.1, hp.size_memory, h.size_memory.2]
  backed := h.backed ho hp.backed
  user := h.user ho hp.user
  mappable := h.all .fresh (fun _ _ hpr hturn => hturn.mappable hpr) ho hp.mappable

theorem Steps.equipped {kinds : Change → Prop} (h : Steps kinds p p') (ho : Owned config slots p)
    (hp : p.Equipped) : p'.Equipped :=
  h.keeps_owned ho (fun _ => Step.equipped) hp

theorem size_memory_ofConfig (config : Config) (device : Block) :
    (ofConfig config device).memory.size = config.userFrames := by
  simp [ofConfig, FrameMemory.ofSize, FrameMemory.size]

theorem equipped_ofConfig (config : Config) {device : Block} (hdevice : device.Healthy) :
    (ofConfig config device).Equipped where
  size_memory := size_memory_ofConfig config device
  backed := Swap.backed_ofBlock hdevice config.swapSlots
  user o ho := by simp [declared, ofConfig] at ho
  mappable := all_ofConfig config device

end Pager

end DemandPaging
