import DemandPaging.Proofs.Coherence

/-!
# Handles are opened and closed with mappings

A mapping reads its file through an opening of its own, and so does every page of it. The opening
is closed when the last of them goes. So a page that a failed request, a removed mapping or a
process that exits left behind would keep the file open, for good.

Nothing is left behind. The pages of a mapping and the table of mappings agree at all times, so a
handle that a page of a mapping reads through is the handle of a live mapping. Every mapping has a
number of its own for its handle, since the number goes up with each mapping that is made and with
nothing else. And the pages of executables read through handles that their owners keep. What is
open is therefore what is held outside the pager, and one handle for each live mapping.

The handles outside are numbered by those who hold them. All that matters is that their numbers are
not those of the pager, which counts up from one.

## Main definitions

* `Pager.mapping`, `Pager.allMappings`, `Pager.mappingsOf` — the live mappings of all processes.
* `Pager.openHandlesBeside` — the live handles to a file.
* `Op.opens`, `Op.unmaps` — the mapping a request makes, and those it removes.
* `Pager.Remaps` — what a request does to the mappings.
* `Traced.BalancesHandles` — the handles are those outside and those of live mappings.

## Main results

* `PagerM.ensures_perform_remaps` — every request makes one mapping at most, or removes some.
* `Pager.HoldsHandles.openHandlesBeside_eq` — the number of handles, from what every request keeps.
* `Pager.handles_balance_of_run` — after every run.
-/

namespace DemandPaging

/-- The handles to file `id` that a request opens for good, by its answer. -/
def Op.opens (id : Nat) : Op → Answer → Nat
  | .mapFile _ file _, .mapped (.ok _) => if file.id = id then 1 else 0
  | _, _ => 0

/-- Whether a request removes a mapping, which is named by its process and its number. -/
def Op.unmaps : Op → Nat × Nat → Bool
  | .destroy pid, o => o.1 == pid
  | .unmapFile pid id, o => o == (pid, id)
  | _, _ => false

/-- Whether the pages of file `id` that a request declares without mapping it read through a handle
that is held outside. -/
def Op.sharesOnly (outside : List Nat) (id : Nat) : Op → Bool
  | .declareImage _ _ file _ _ _ | .tryDeclareImage _ _ file _ _ _ | .loadElf _ file =>
    file.id != id || outside.contains file.serial
  | _ => true

theorem Op.serial_mem {op : Op} {outside : List Nat} {id : Nat} {h : Handle}
    (hop : op.sharesOnly outside id = true) (hremaps : op.remaps = false)
    (hhandle : op.handle? = some h) (hid : h.id = id) : h.serial ∈ outside := by
  cases op with
  | declareImage | tryDeclareImage | loadElf =>
    cases hhandle
    simpa [sharesOnly, hid] using hop
  | mapFile => cases hremaps
  | _ => cases hhandle

namespace Pager

variable {p p' : Pager} {o : Nat × Nat} {m : Mapping} {outside : List Nat} {file pid : Nat}
  {pr : Process}

/-! ### The live mappings -/

/-- A live mapping, by its process and its number. -/
def mapping (p : Pager) (o : Nat × Nat) : Option Mapping :=
  p.processes[o.1]?.bind fun pr => pr.mappings.live[o.2]?

/-- The live mappings of all processes. -/
def allMappings (p : Pager) : List ((Nat × Nat) × Mapping) :=
  p.processes.toList.flatMap fun (pid, pr) =>
    pr.mappings.live.toList.map fun (id, m) => ((pid, id), m)

/-- The number of live mappings of file `id`. -/
def mappingsOf (p : Pager) (id : Nat) : Nat := p.allMappings.countP fun x => x.2.file.id == id

/-- The number of live handles to file `id`: those held outside the pager, whose numbers are
`outside`, and those that mappings and pages read through, each handle once. -/
def openHandlesBeside (p : Pager) (outside : List Nat) (id : Nat) : Nat :=
  let read := p.handles.filter fun h => h.id == id
  (outside ++ read.map Handle.serial).eraseDups.length

/-- The owner of a file holds handle zero to it. -/
theorem openHandles_eq (p : Pager) (id : Nat) : p.openHandles id = p.openHandlesBeside [0] id := by
  simp only [openHandles, openHandlesBeside, List.singleton_append, List.eraseDups_cons,
    List.length_cons, List.filter_map, List.filter_filter, Nat.add_comm 1]
  refine congrArg (fun read => (List.map Handle.serial read).eraseDups.length + 1) ?_
  exact List.filter_congr fun h _ => Bool.and_comm _ _

theorem mapping_of_getElem? (h : p.processes[pid]? = some pr) (id : Nat) :
    p.mapping (pid, id) = pr.mappings.live[id]? := by
  rw [mapping, h, Option.bind_some]

theorem mem_allMappings : (o, m) ∈ p.allMappings ↔ p.mapping o = some m := by
  obtain ⟨pid, id⟩ := o
  simp only [allMappings, List.mem_flatMap, List.mem_map, Prod.exists,
    Std.ExtTreeMap.mem_toList_iff_getElem?_eq_some, Prod.mk.injEq]
  constructor
  · rintro ⟨q, pr, hpr, k, m', hm, ⟨rfl, rfl⟩, rfl⟩
    rwa [mapping_of_getElem? hpr]
  · intro h
    obtain ⟨pr, hpr, hm⟩ := Option.bind_eq_some_iff.1 h
    exact ⟨pid, pr, hpr, id, m, hm, ⟨rfl, rfl⟩, rfl⟩

/-- No mapping is listed twice. -/
theorem nodup_allMappings (p : Pager) : p.allMappings.Nodup := by
  rw [allMappings, List.Nodup, List.pairwise_flatMap]
  refine ⟨fun x _ => ?_, ?_⟩
  · rw [List.pairwise_map]
    refine Std.ExtTreeMap.distinct_keys_toList.imp fun h heq => h ?_
    simpa using congrArg (fun x => x.1.2) heq
  · refine Std.ExtTreeMap.distinct_keys_toList.imp fun h a ha b hb heq => h ?_
    simp only [List.mem_map, Prod.exists] at ha hb
    obtain ⟨_, _, _, rfl⟩ := ha
    obtain ⟨_, _, _, rfl⟩ := hb
    simpa using congrArg (fun x => x.1.1) heq

/-- Some mappings go, and the others are left. -/
theorem allMappings_of_removes {gone : Nat × Nat → Bool}
    (h : ∀ o, p'.mapping o = if gone o then none else p.mapping o) :
    p'.allMappings.Perm (p.allMappings.filter fun x => !gone x.1) := by
  refine (List.perm_ext_iff_of_nodup p'.nodup_allMappings (p.nodup_allMappings.filter _)).2 ?_
  rintro ⟨o, m⟩
  rw [List.mem_filter, mem_allMappings, mem_allMappings, h]
  cases gone o <;> simp

/-- A mapping is made. -/
theorem allMappings_of_adds (hnew : p.mapping o = none)
    (h : ∀ o', p'.mapping o' = if o = o' then some m else p.mapping o') :
    p'.allMappings.Perm ((o, m) :: p.allMappings) := by
  have hnotin : (o, m) ∉ p.allMappings := by simp [mem_allMappings, hnew]
  refine (List.perm_ext_iff_of_nodup p'.nodup_allMappings
    (List.nodup_cons.2 ⟨hnotin, p.nodup_allMappings⟩)).2 ?_
  rintro ⟨o', m'⟩
  rw [List.mem_cons, mem_allMappings, mem_allMappings, h]
  by_cases ho : o = o'
  · subst ho
    simp [hnew, eq_comm]
  · simp [ho, Ne.symm ho]

/-- The mappings that go and those that are left are all there were. -/
theorem mappingsOf_add_of_removes {gone : Nat × Nat → Bool}
    (h : ∀ o, p'.mapping o = if gone o then none else p.mapping o) (id : Nat) :
    p'.mappingsOf id + p.allMappings.countP (fun x => gone x.1 && x.2.file.id == id)
      = p.mappingsOf id := by
  have hgone : p.allMappings.countP (fun x => gone x.1 && x.2.file.id == id)
      = (p.allMappings.filter fun x => !!gone x.1).countP fun x => x.2.file.id == id := by
    rw [List.countP_filter]
    refine List.countP_congr fun x _ => ?_
    rw [Bool.not_not, Bool.and_comm]
  rw [hgone, mappingsOf, mappingsOf, (allMappings_of_removes h).countP_eq]
  exact (List.countP_eq_countP_filter_add p.allMappings _ fun x => !gone x.1).symm

theorem mappingsOf_of_adds (hnew : p.mapping o = none)
    (h : ∀ o', p'.mapping o' = if o = o' then some m else p.mapping o') (id : Nat) :
    p'.mappingsOf id = p.mappingsOf id + if m.file.id = id then 1 else 0 := by
  rw [mappingsOf, mappingsOf, (allMappings_of_adds hnew h).countP_eq, List.countP_cons]
  simp

/-! ### What requests do to mappings -/

theorem mapping_withProcess (p : Pager) (pid : Nat) (pr : Process) (o : Nat × Nat) :
    (p.withProcess pid pr).mapping o
      = if pid = o.1 then pr.mappings.live[o.2]? else p.mapping o := by
  rw [mapping, getElem?_withProcess]
  split <;> rfl

theorem mapping_erase (p : Pager) (pid : Nat) (o : Nat × Nat) :
    ({ p with processes := p.processes.erase pid } : Pager).mapping o
      = if o.1 == pid then none else p.mapping o := by
  rw [mapping, Std.ExtTreeMap.getElem?_erase, mapping]
  by_cases ho : pid = o.1
  · simp [ho]
  · simp [ho, Ne.symm ho]

/-- A mapping is taken out of the table of its process. -/
theorem mapping_unmap {pr' : Process} {id : Nat} (h : p.processes[pid]? = some pr)
    (hpr' : pr'.mappings = { pr.mappings with live := pr.mappings.live.erase id })
    (o : Nat × Nat) :
    (p.withProcess pid pr').mapping o = if o == (pid, id) then none else p.mapping o := by
  obtain ⟨q, k⟩ := o
  rw [mapping_withProcess, hpr', Std.ExtTreeMap.getElem?_erase]
  by_cases hq : pid = q
  · subst hq
    rw [mapping_of_getElem? h]
    by_cases hk : id = k
    · simp [hk]
    · simp [hk, Ne.symm hk]
  · simp [hq, Ne.symm hq]

theorem Extends.mapping_eq {fresh : FrameOwner → PageSource × Bool → Prop}
    (h : p.Extends fresh p') : p'.mapping = p.mapping := by
  have hof : ∀ (q : Pager) (o : Nat × Nat),
      q.mapping o = (q.processes[o.1]?.map Process.mappings).bind fun table => table.live[o.2]? :=
    fun q o => by rw [mapping, Option.bind_map]; rfl
  funext o
  rw [hof, h.mappings_eq, ← hof]

/-- What a request that answers `answer` does to the mappings and to the number of the next
opening. -/
inductive Remaps (p : Pager) (op : Op) (answer : Answer) (p' : Pager) : Prop
  /-- It removes some mappings, or none. -/
  | removes (nextSerial_eq : p'.nextSerial = p.nextSerial)
      (opens_eq : ∀ id, op.opens id answer = 0)
      (mapping_eq : ∀ o, p'.mapping o = if op.unmaps o then none else p.mapping o) :
    Remaps p op answer p'
  /-- It makes one mapping, through an opening with the next number. -/
  | adds {o : Nat × Nat} {m : Mapping} (nextSerial_eq : p'.nextSerial = p.nextSerial + 1)
      (serial_eq : m.file.serial = p.nextSerial)
      (opens_eq : ∀ id, op.opens id answer = if m.file.id = id then 1 else 0)
      (unmaps_eq : ∀ o, op.unmaps o = false) (new : p.mapping o = none)
      (mapping_eq : ∀ o', p'.mapping o' = if o = o' then some m else p.mapping o') :
    Remaps p op answer p'

/-- The numbers of mappings are not used again. -/
theorem mapping_nextId (h : p.All Process.Coherent) (hpr : p.processes[pid]? = some pr) :
    p.mapping (pid, pr.mappings.nextId) = none := by
  rw [mapping_of_getElem? hpr, Option.eq_none_iff_forall_ne_some]
  intro m hm
  exact absurd ((h pid pr hpr).numbered _ m hm).2 (Nat.lt_irrefl _)

theorem MapsFile.remaps {handle : Handle} {addr : Nat} {result : Except MmapError Nat}
    (h : p.MapsFile pid handle addr result p') (hp : p.All Process.Coherent) :
    p.Remaps (.mapFile pid handle addr) (.mapped result) p' := by
  cases h with
  | refused error => exact .removes rfl (fun _ => rfl) fun _ => rfl
  | @mapped pr pages table m hm process aligned fits declared inserted =>
    obtain ⟨hid, hlive, -⟩ := MappingTable.of_insert inserted
    have hfile : m.file = { handle with serial := p.nextSerial } := congrArg Mapping.file hm
    refine .adds (o := (pid, m.id)) (m := m) rfl ?_ (fun id => ?_) (fun _ => rfl) ?_ ?_
    · rw [hfile]
    · rw [hfile]
      rfl
    · rw [hid]
      exact mapping_nextId hp process
    · rintro ⟨q, k⟩
      show (p.withProcess pid _).mapping (q, k) = _
      rw [mapping_withProcess, hlive]
      by_cases hq : pid = q
      · subst hq
        simp [mapping_of_getElem? process]
      · simp [hq]

/-! ### What requests do to the pages of executables -/

theorem declarations_of_le (h : ∀ o e, p'.declared o = some e → p.declared o = some e)
    {o : FrameOwner} {d : PageSource × Bool} (hd : p'.declarations o = some d) :
    p.declarations o = some d := by
  obtain ⟨e, he, rfl⟩ := Option.map_eq_some_iff.1 hd
  exact declarations_of_declared (h o e he)

/-- Mapping a file declares pages of the mapping only. -/
theorem MapsFile.image_declarations {handle : Handle} {addr offset read : Nat} {writable : Bool}
    {image : Handle} {result : Except MmapError Nat} {o : FrameOwner}
    (h : p.MapsFile pid handle addr result p')
    (hd : p'.declarations o = some (.image image offset read, writable)) :
    p.declarations o = some (.image image offset read, writable) := by
  cases h with
  | refused => exact hd
  | @mapped pr pages table m _ process _ _ hdeclared =>
    obtain ⟨hnew, hold⟩ := PageMap.getElem?_declareMapped hdeclared
    obtain ⟨e, he, hsource⟩ := Option.map_eq_some_iff.1 hd
    have he' : (p.withProcess pid { pr with pages, mappings := table }).declared o = some e := he
    rw [declared_withProcess] at he'
    split at he'
    · rename_i hpid
      by_cases hrun : ∃ i < m.pages.count, o.page = m.pages.first + i * pageSize
      · obtain ⟨i, hi, hpage⟩ := hrun
        rw [hpage, (hnew i hi).2] at he'
        cases he'
        cases hsource
      · rw [hold o.page fun i hi hpage => hrun ⟨i, hi, hpage⟩] at he'
        rw [declarations, declared, ← hpid, process, Option.bind_some, he', Option.map_some,
          hsource]
    · rw [declarations, he', Option.map_some, hsource]

end Pager

theorem Op.opens_of_remaps {op : Op} (h : op.remaps = false) (id : Nat) (answer : Answer) :
    op.opens id answer = 0 := by
  cases op <;> first | rfl | cases h

theorem Op.unmaps_of_remaps {op : Op} (h : op.remaps = false) (o : Nat × Nat) :
    op.unmaps o = false := by
  cases op <;> first | rfl | cases h

namespace PagerM

open Pager (Remaps)

variable {t : Traced}

/-- Every request makes one mapping, or removes those that it is meant to remove. -/
theorem ensures_perform_remaps (op : Op) (ht : t.pager.All Process.Coherent) :
    Ensures (Pager.perform op) (fun answer t' => t.pager.Remaps op answer t'.pager) t := by
  cases hop : op.remaps with
  | false =>
    refine (ensures_perform_extends hop t).mono fun answer t' hext => ?_
    refine .removes hext.nextSerial_eq (Op.opens_of_remaps hop · answer) fun o => ?_
    rw [hext.mapping_eq, Op.unmaps_of_remaps hop]
    rfl
  | true =>
    cases op with
    | register pid =>
      simp only [Pager.perform, ensures_bind, ensures_pure]
      refine (ensures_register_fresh pid t).mono ?_
      rintro _ t' ⟨hnew, hpager⟩
      rw [hpager]
      refine .removes rfl (fun _ => rfl) fun o => ?_
      show (t.pager.withProcess pid .fresh).mapping o = t.pager.mapping o
      rw [Pager.mapping_withProcess]
      split
      · rename_i hpid
        rw [Pager.mapping, ← hpid, hnew]
        exact Std.ExtTreeMap.getElem?_empty
      · rfl
    | destroy pid =>
      simp only [Pager.perform, ensures_bind, ensures_pure]
      refine (ensures_destroy_returns pid t).mono ?_
      rintro _ t' ⟨_, _, -, hpager⟩
      rw [hpager]
      exact .removes rfl (fun _ => rfl) (t.pager.mapping_erase pid)
    | mapFile pid file addr =>
      simp only [Pager.perform, ensures_bind, ensures_pure]
      exact (ensures_mapFile_cases pid file addr t).mono fun _ _ hmaps => hmaps.remaps ht
    | unmapFile pid id =>
      simp only [Pager.perform, ensures_bind, ensures_pure]
      refine (ensures_unmapFile_cases pid id t).mono ?_
      rintro _ t' ⟨pr, m, pr', q, hpr, -, hmappings, -, ⟨_, _, -, rfl⟩, hpager⟩
      rw [hpager]
      exact .removes rfl (fun _ => rfl) (Pager.mapping_unmap hpr hmappings)
    | _ => cases hop

/-- A page of an executable was declared before, or by the request, through the handle it was
given. -/
theorem ensures_perform_image (op : Op) (t : Traced) :
    Ensures (Pager.perform op) (fun _ t' => ∀ o file offset read writable,
      t'.pager.declarations o = some (.image file offset read, writable) →
        t.pager.declarations o = some (.image file offset read, writable) ∨
          op.remaps = false ∧ op.handle? = some file) t := by
  cases hop : op.remaps with
  | false =>
    refine (ensures_perform_extends hop t).mono ?_
    intro _ t' hext o file offset read writable hd
    cases hold : t.pager.declarations o with
    | some d =>
      rw [← hd, hext.kept o d hold]
      exact .inl rfl
    | none =>
      rcases (hext.allowed o _ hold hd).declares with hzero | ⟨_, _, _, hhandle, himage⟩
      · cases hzero
      · cases himage
        exact .inr ⟨rfl, hhandle⟩
  | true =>
    cases op with
    | register pid =>
      simp only [Pager.perform, ensures_bind, ensures_pure]
      refine (ensures_register_fresh pid t).mono ?_
      rintro _ t' ⟨hnew, hpager⟩ o file offset read writable hd
      have hsame : (t.pager.withProcess pid .fresh).declared = t.pager.declared :=
        Pager.declared_withProcess_bare (fun o ho => Pager.declared_eq_none hnew ho)
          fun page => by simp [Process.fresh, PageMap.empty]
      rw [hpager, Pager.declarations_congr hsame] at hd
      exact .inl hd
    | destroy pid =>
      simp only [Pager.perform, ensures_bind, ensures_pure]
      refine (ensures_destroy_processes pid t).mono fun _ t' hprocesses => ?_
      intro o file offset read writable hd
      refine .inl (Pager.declarations_of_le (fun o e he => ?_) hd)
      rw [Pager.declared, hprocesses, Std.ExtTreeMap.getElem?_erase] at he
      split at he
      · cases he
      · exact he
    | mapFile pid handle addr =>
      simp only [Pager.perform, ensures_bind, ensures_pure]
      refine (ensures_mapFile_cases pid handle addr t).mono fun _ t' hmaps => ?_
      intro o file offset read writable hd
      exact .inl (hmaps.image_declarations hd)
    | unmapFile pid id =>
      simp only [Pager.perform, ensures_bind, ensures_pure]
      intro _ t' hrun o file offset read writable hd
      obtain ⟨pr, m, -, -, hpr, hm, -⟩ := ensures_unmapFile_cases pid id t _ t' hrun
      refine .inl (Pager.declarations_of_le (fun o e he => ?_) hd)
      rw [ensures_unmapFile_declared hpr hm _ t' hrun] at he
      split at he
      · cases he
      · exact he
    | _ => cases hop

end PagerM

/-! ### What every request keeps -/

/-- Every mapping reads through an opening of its own, and the pages of executables in file `id`
read through handles in `outside`. -/
structure Pager.HoldsHandles (outside : List Nat) (id : Nat) (p : Pager) : Prop where
  nextSerial_pos : 0 < p.nextSerial
  serial_lt : ∀ o m, p.mapping o = some m → 0 < m.file.serial ∧ m.file.serial < p.nextSerial
  serial_inj : ∀ o o' m m', p.mapping o = some m → p.mapping o' = some m' →
    m.file.serial = m'.file.serial → o = o'
  serial_mem : ∀ o image offset read writable,
    p.declarations o = some (.image image offset read, writable) → image.id = id →
      image.serial ∈ outside

namespace Pager.HoldsHandles

variable {p p' : Pager} {outside : List Nat} {id : Nat}

theorem ofConfig (config : Config) (device : Block) :
    (Pager.ofConfig config device).HoldsHandles outside id where
  nextSerial_pos := Nat.one_pos
  serial_lt o m h := by simp [mapping, Pager.ofConfig] at h
  serial_inj o o' m m' h := by simp [mapping, Pager.ofConfig] at h
  serial_mem o image offset read writable h := by
    simp [declarations, declared, Pager.ofConfig] at h

theorem remaps {op : Op} {answer : Answer} (h : p.HoldsHandles outside id)
    (hremaps : p.Remaps op answer p')
    (himage : ∀ o image offset read writable,
      p'.declarations o = some (.image image offset read, writable) → image.id = id →
        image.serial ∈ outside) : p'.HoldsHandles outside id := by
  cases hremaps with
  | removes hserial _ hmapping =>
    have hold : ∀ o m, p'.mapping o = some m → p.mapping o = some m := by
      intro o m hm
      rw [hmapping] at hm
      split at hm
      · cases hm
      · exact hm
    refine ⟨hserial ▸ h.nextSerial_pos, fun o m hm => ?_, fun o o' m m' hm hm' => ?_, himage⟩
    · rw [hserial]
      exact h.serial_lt o m (hold o m hm)
    · exact h.serial_inj o o' m m' (hold o m hm) (hold o' m' hm')
  | @adds o₀ m₀ hserial hfile _ _ _ hmapping =>
    -- the new mapping has a number that no mapping had before
    have hcases : ∀ o m, p'.mapping o = some m →
        (o = o₀ ∧ m.file.serial = p.nextSerial) ∨
          p.mapping o = some m ∧ 0 < m.file.serial ∧ m.file.serial < p.nextSerial := by
      intro o m hm
      rw [hmapping] at hm
      split at hm
      · rename_i ho
        cases hm
        exact .inl ⟨ho.symm, hfile⟩
      · exact .inr ⟨hm, h.serial_lt o m hm⟩
    have hpos := h.nextSerial_pos
    refine ⟨by omega, fun o m hm => ?_, fun o o' m m' hm hm' heq => ?_, himage⟩
    · rcases hcases o m hm with ⟨-, hs⟩ | ⟨-, hs⟩ <;> omega
    · rcases hcases o m hm with ⟨ho, hs⟩ | ⟨hm, hs⟩ <;>
        rcases hcases o' m' hm' with ⟨ho', hs'⟩ | ⟨hm', hs'⟩
      · rw [ho, ho']
      · omega
      · omega
      · exact h.serial_inj o o' m m' hm hm' heq

end Pager.HoldsHandles

namespace Pager

variable {p : Pager} {outside : List Nat} {id : Nat} {handle : Handle}

theorem mem_values {α : Type} {table : Std.ExtTreeMap Nat α} {a : α} :
    a ∈ table.values ↔ ∃ k : Nat, table[k]? = some a := by
  rw [values_eq_map_toList, List.mem_map]
  simp only [Prod.exists, Std.ExtTreeMap.mem_toList_iff_getElem?_eq_some, exists_eq_right]

/-- Processes read through the handles of mappings and of pages. -/
theorem mem_handles : handle ∈ p.handles ↔ (∃ o m, p.mapping o = some m ∧ m.file = handle) ∨
    ∃ o e, p.declared o = some e ∧ e.source.handle? = some handle := by
  simp only [handles, List.mem_flatMap, mem_values, Process.handles, List.mem_append, List.mem_map,
    List.mem_filterMap, PageMap.toList, Prod.exists, Std.ExtTreeMap.mem_toList_iff_getElem?_eq_some]
  constructor
  · rintro ⟨pr, ⟨pid, hpr⟩, ⟨m, ⟨k, hm⟩, rfl⟩ | ⟨page, e, he, hhandle⟩⟩
    · exact .inl ⟨pid, k, m, by rwa [mapping_of_getElem? hpr], rfl⟩
    · exact .inr ⟨⟨pid, page⟩, e, by rwa [declared_of_getElem? hpr], hhandle⟩
  · rintro (⟨pid, k, m, hm, rfl⟩ | ⟨⟨pid, page⟩, e, he, hhandle⟩)
    · obtain ⟨pr, hpr, hm⟩ := Option.bind_eq_some_iff.1 hm
      exact ⟨pr, ⟨pid, hpr⟩, .inl ⟨m, ⟨k, hm⟩, rfl⟩⟩
    · obtain ⟨pr, hpr, he⟩ := Option.bind_eq_some_iff.1 he
      exact ⟨pr, ⟨pid, hpr⟩, .inr ⟨page, e, he, hhandle⟩⟩

/-- A handle of the pager's own is the handle of a live mapping: a page that reads through it is a
page of this mapping. -/
theorem HoldsHandles.mem_handles_iff (h : p.HoldsHandles outside id) (hp : p.All Process.Coherent)
    (hid : handle.id = id) (hserial : handle.serial ∉ outside) :
    handle ∈ p.handles ↔ ∃ o m, p.mapping o = some m ∧ m.file = handle := by
  refine mem_handles.trans (or_iff_left_of_imp ?_)
  rintro ⟨⟨pid, page⟩, e, he, hhandle⟩
  obtain ⟨pr, hpr, hpage⟩ := Option.bind_eq_some_iff.1 he
  cases hsource : e.source with
  | zero => rw [hsource] at hhandle; cases hhandle
  | image image offset read =>
    rw [hsource] at hhandle
    cases hhandle
    have hd := declarations_of_declared he
    rw [hsource] at hd
    exact absurd (h.serial_mem _ _ offset read _ hd hid) hserial
  | mapped k mapped offset =>
    rw [hsource] at hhandle
    cases hhandle
    obtain ⟨m, hm, -, hfile, -⟩ := ((hp pid pr hpr).mapped_iff page k handle offset).1
      (PageMap.mapped?_eq_some.2 ⟨e, hpage, hsource⟩)
    exact ⟨(pid, k), m, by rwa [mapping_of_getElem? hpr], hfile.symm⟩

/-! ### Counting handles -/

theorem nodup_eraseDups (serials : List Nat) : serials.eraseDups.Nodup := by
  match serials with
  | [] => exact List.nodup_nil
  | s :: rest =>
    rw [List.eraseDups_cons, List.nodup_cons, List.mem_eraseDups]
    exact ⟨by simp, nodup_eraseDups _⟩
termination_by serials.length
decreasing_by exact Nat.lt_succ_of_le (List.length_filter_le _ rest)

theorem length_eraseDups_of {serials distinct : List Nat} (hdistinct : distinct.Nodup)
    (hmem : ∀ s, s ∈ serials ↔ s ∈ distinct) : serials.eraseDups.length = distinct.length := by
  refine ((List.perm_ext_iff_of_nodup (nodup_eraseDups serials) hdistinct).2 fun s => ?_).length_eq
  rw [List.mem_eraseDups, hmem]

/-- The numbers of the handles of the live mappings of file `id`. -/
def serialsOf (p : Pager) (id : Nat) : List Nat :=
  (p.allMappings.filter fun x => x.2.file.id == id).map fun x => x.2.file.serial

theorem length_serialsOf (p : Pager) (id : Nat) : (p.serialsOf id).length = p.mappingsOf id := by
  rw [serialsOf, List.length_map, mappingsOf, List.countP_eq_length_filter]

theorem mem_serialsOf {s : Nat} : s ∈ p.serialsOf id ↔
    ∃ o m, p.mapping o = some m ∧ m.file.id = id ∧ m.file.serial = s := by
  simp only [serialsOf, List.mem_map, List.mem_filter, Prod.exists, beq_iff_eq, and_assoc,
    ← mem_allMappings]

namespace HoldsHandles

/-- No two mappings share a handle. -/
theorem nodup_serialsOf (h : p.HoldsHandles outside id) : (p.serialsOf id).Nodup := by
  refine (p.nodup_allMappings.filter _).map_on ?_
  rintro ⟨o, m⟩ hm ⟨o', m'⟩ hm' heq
  have hm := mem_allMappings.1 (List.mem_of_mem_filter hm)
  have hm' := mem_allMappings.1 (List.mem_of_mem_filter hm')
  obtain rfl := h.serial_inj o o' m m' hm hm' heq
  rw [Option.some.inj (hm.symm.trans hm')]

/-- The numbers of the handles outside are not those of mappings. -/
theorem disjoint (h : p.HoldsHandles outside id)
    (hbeside : ∀ s ∈ outside, s = 0 ∨ p.nextSerial ≤ s) : outside.Disjoint (p.serialsOf id) := by
  intro s hs hlive
  obtain ⟨o, m, hm, -, rfl⟩ := mem_serialsOf.1 hlive
  have := h.serial_lt o m hm
  have := hbeside _ hs
  omega

/-- What is open is what is held outside, and one handle for each live mapping. -/
theorem openHandlesBeside_eq (h : p.HoldsHandles outside id) (hp : p.All Process.Coherent)
    (hdistinct : outside.Nodup) (hbeside : ∀ s ∈ outside, s = 0 ∨ p.nextSerial ≤ s) :
    p.openHandlesBeside outside id = outside.length + p.mappingsOf id := by
  have hall : (outside ++ p.serialsOf id).Nodup :=
    hdistinct.append h.nodup_serialsOf (h.disjoint hbeside)
  rw [openHandlesBeside, ← length_serialsOf, ← List.length_append]
  refine length_eraseDups_of hall fun s => ?_
  rw [List.mem_append, List.mem_append]
  refine or_congr_right' fun hs => ?_
  simp only [List.mem_map, List.mem_filter, beq_iff_eq, mem_serialsOf]
  constructor
  · rintro ⟨handle, ⟨hread, hid⟩, rfl⟩
    obtain ⟨o, m, hm, rfl⟩ := (h.mem_handles_iff hp hid hs).1 hread
    exact ⟨o, m, hm, hid, rfl⟩
  · rintro ⟨o, m, hm, hid, rfl⟩
    exact ⟨m.file, ⟨(h.mem_handles_iff hp hid hs).2 ⟨o, m, hm, rfl⟩, hid⟩, rfl⟩

end HoldsHandles

/-! ### Steps and runs -/

/-- The number of live mappings of file `id` that a request is meant to remove. -/
def unmapped (p : Pager) (op : Op) (id : Nat) : Nat :=
  p.allMappings.countP fun x => op.unmaps x.1 && x.2.file.id == id

/-- The number of mappings of a file changes by those made and those removed. -/
theorem Remaps.mappingsOf_add_unmapped {op : Op} {answer : Answer} (h : p.Remaps op answer p')
    (id : Nat) : p'.mappingsOf id + p.unmapped op id = p.mappingsOf id + op.opens id answer := by
  cases h with
  | removes _ hopens hmapping =>
    rw [hopens, Nat.add_zero]
    exact mappingsOf_add_of_removes hmapping id
  | adds _ _ hopens hunmaps hnew hmapping =>
    have hnone : p.unmapped op id = 0 := by simp [unmapped, hunmaps]
    rw [hnone, hopens, Nat.add_zero]
    exact mappingsOf_of_adds hnew hmapping id

theorem Remaps.nextSerial_le {op : Op} {answer : Answer} (h : p.Remaps op answer p') :
    p'.nextSerial ≤ p.nextSerial + 1 := by
  cases h with
  | removes hserial => omega
  | adds hserial => omega

end Pager

namespace PagerM

variable {outside : List Nat} {id : Nat} {t : Traced}

theorem holdsHandles_perform {op : Op} (hop : op.sharesOnly outside id = true)
    (ht : t.pager.All Process.Coherent) (h : t.pager.HoldsHandles outside id) :
    Ensures (Pager.perform op) (fun _ t' => t'.pager.HoldsHandles outside id) t := by
  refine ((ensures_perform_remaps op ht).and (ensures_perform_image op t)).mono ?_
  rintro answer t' ⟨hremaps, himage⟩
  refine h.remaps hremaps fun o image offset read writable hd hid => ?_
  rcases himage o image offset read writable hd with hold | ⟨hop', hhandle⟩
  · exact h.serial_mem o image offset read writable hold hid
  · exact Op.serial_mem hop hop' hhandle hid

theorem holdsHandles_run {ops : List Op} (hops : ∀ op ∈ ops, op.sharesOnly outside id = true)
    (ht : t.pager.All Process.Coherent) (h : t.pager.HoldsHandles outside id) :
    Ensures (Pager.run ops) (fun _ t' => t'.pager.HoldsHandles outside id) t := by
  have hkeeps : Keeps
      (fun t => t.pager.All Process.Coherent ∧ t.pager.HoldsHandles outside id) (Pager.run ops) :=
    keeps_run fun op hop t ht =>
      (coherent_perform op ht.1).and (holdsHandles_perform (hops op hop) ht.1 ht.2)
  exact (hkeeps t ⟨ht, h⟩).mono fun _ _ => And.right

end PagerM

/-- The handles to file `id` balance at `t`, where those with the numbers in `outside` are held
outside the pager. -/
structure Traced.BalancesHandles (t : Traced) (outside : List Nat) (id : Nat) : Prop where
  /-- What is open is what is held outside, and one handle for each live mapping. -/
  openHandles_eq : t.pager.openHandlesBeside outside id = outside.length + t.pager.mappingsOf id
  /-- The pager counts the same where the owner of the file holds the only handle outside. -/
  owner : outside = [0] → t.pager.openHandles id = 1 + t.pager.mappingsOf id
  /-- The next request opens a handle if it makes a mapping, and closes one for each mapping that it
  removes. Nothing else opens or closes any. -/
  perform : ∀ op answer t', op.sharesOnly outside id = true →
    (Pager.perform op).run t = .ok answer t' →
      t'.pager.openHandlesBeside outside id + t.pager.unmapped op id =
        t.pager.openHandlesBeside outside id + op.opens id answer

namespace Pager

variable {config : Config} {device : Block} {ops : List Op} {answers : List Answer} {t : Traced}
  {outside : List Nat} {id : Nat}

/-- After every run that does not panic, the handles to a file balance, as long as its pages that
are declared without a mapping read through handles that are kept outside. These may be numbered as
one likes, but for the numbers that the pager gives out. -/
theorem handles_balance_of_run (hdistinct : outside.Nodup)
    (hops : ∀ op ∈ ops, op.sharesOnly outside id = true)
    (h : (run ops).run (.start config device) = .ok answers t)
    (hbeside : ∀ s ∈ outside, s = 0 ∨ t.pager.nextSerial < s) :
    t.BalancesHandles outside id := by
  have hcoherent := (inOrder_of_run h).coherent
  have hholds : t.pager.HoldsHandles outside id :=
    PagerM.holdsHandles_run hops (inOrder_ofConfig config device).coherent (.ofConfig config device)
      answers t h
  have hopen : t.pager.openHandlesBeside outside id = outside.length + t.pager.mappingsOf id :=
    hholds.openHandlesBeside_eq hcoherent hdistinct fun s hs =>
      (hbeside s hs).imp_right Nat.le_of_lt
  refine ⟨hopen, ?_, fun op answer t' hop hrun => ?_⟩
  · rintro rfl
    rw [Pager.openHandles_eq, hopen, List.length_singleton]
  · have hremaps := PagerM.ensures_perform_remaps op hcoherent answer t' hrun
    have hopen' : t'.pager.openHandlesBeside outside id
        = outside.length + t'.pager.mappingsOf id := by
      refine (PagerM.holdsHandles_perform hop hcoherent hholds answer t' hrun).openHandlesBeside_eq
        (PagerM.coherent_perform op hcoherent answer t' hrun) hdistinct fun s hs => ?_
      have := hremaps.nextSerial_le
      exact (hbeside s hs).imp_right (by omega)
    rw [hopen, hopen', Nat.add_assoc, Nat.add_assoc, hremaps.mappingsOf_add_unmapped]

/-- A file is mapped twice and a page of it is declared through the owner's handle. A third mapping
runs into the second one and is refused, the first one is removed after a page of it was touched. -/
theorem handles_balance_of_run_mapped : ∃ answers t,
    (run [.register 1, .declareImage 1 0x9000 ⟨5, 0, .ofBytes #[1, 2, 3]⟩ 0 3 true,
      .mapFile 1 ⟨5, 0, .ofBytes #[1, 2, 3]⟩ 0x1000, .mapFile 1 ⟨5, 0, .ofBytes #[1, 2, 3]⟩ 0x3000,
      .mapFile 1 ⟨5, 0, .ofBytes #[1, 2, 3]⟩ 0x3000, .pageFault 1 0x1000 0, .unmapFile 1 0]).run
        (.start { userFrames := 1 } (.attach .swap "swap" (.ram (.blank 64)))) = .ok answers t ∧
    t.pager.mappingsOf 5 = 1 ∧ t.BalancesHandles [0] 5 := by
  have hrun : ∃ answers t,
      (run [.register 1, .declareImage 1 0x9000 ⟨5, 0, .ofBytes #[1, 2, 3]⟩ 0 3 true,
        .mapFile 1 ⟨5, 0, .ofBytes #[1, 2, 3]⟩ 0x1000,
        .mapFile 1 ⟨5, 0, .ofBytes #[1, 2, 3]⟩ 0x3000,
        .mapFile 1 ⟨5, 0, .ofBytes #[1, 2, 3]⟩ 0x3000, .pageFault 1 0x1000 0, .unmapFile 1 0]).run
          (.start { userFrames := 1 } (.attach .swap "swap" (.ram (.blank 64)))) = .ok answers t ∧
        t.pager.mappingsOf 5 = 1 := by
    decide +kernel
  obtain ⟨answers, t, h, hmappings⟩ := hrun
  refine ⟨answers, t, h, hmappings, handles_balance_of_run (by decide) ?_ h ?_⟩
  · simp [Op.sharesOnly]
  · simp

end Pager

end DemandPaging
