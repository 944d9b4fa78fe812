import DemandPaging.Proofs.EvictionOrder
import DemandPaging.Proofs.MapOrNothing
import DemandPaging.Proofs.Teardown

/-!
# The numbers of mappings, and how they run out

A process numbers its mappings from zero. The count is kept in the table of mappings and goes up
with each mapping that is made; a request that is refused gives its number back with everything
else, and a mapping that is removed takes its number with it. So the numbers that a process was
given since it was registered are the first ones, in order and each once, whatever happened in
between, and the count is their number.

The count is a 32-bit word, and the sum is checked. A process that has `2 ^ 32 - 1` numbers gets no
further: the next request finds its pages, declares them, and then panics for want of a number to
go on with. It is not refused, although nothing but the caller's own mappings led there: removing
them does not give a number back, so mapping and removing one page over and over is enough. Up to
then every request ends.

## Main definitions

* `numbersGiven` — the numbers that a process was given, by the history of a run.
* `Op.remapping` — mapping a file and removing the mapping, again and again.
* `Traced.CountsMappings` — what a process can expect of the numbers of its mappings.

## Main results

* `PagerM.ensures_run_numbers` — the numbers given are the first ones.
* `Pager.exists_run_remapping` — mapping and removing goes on for as long as there are numbers.
* `Pager.counts_mappings_of_run` — which requests to map a file end, and which do not.
* `Pager.mapFile_panics_after_remapping` — a process that has used up its numbers stops the pager.
-/

namespace DemandPaging

/-! ### Numbers, by the history -/

/-- The numbers that process `pid` was given since it was last registered, after one more request
and its answer. -/
def Op.numbers (pid : Nat) (given : List Nat) : Op → Answer → List Nat
  | .register q, _ => if q = pid then [] else given
  | .mapFile q _ _, .mapped (.ok id) => if q = pid then given ++ [id] else given
  | _, _ => given

/-- The numbers that process `pid` was given since it was last registered, in the order in which it
got them. -/
def numbersGiven (pid : Nat) (history : List (Op × Answer)) : List Nat :=
  history.foldl (fun given x => x.1.numbers pid given x.2) []

theorem Op.numbers_of_remaps {op : Op} (h : op.remaps = false) (pid : Nat) (given : List Nat)
    (answer : Answer) : op.numbers pid given answer = given := by
  cases op <;> first | rfl | cases h

/-- The last number is kept back, so that the next one is always a 32-bit word. -/
theorem MappingTable.nextId_lt_of_insert {table table' : MappingTable} {m : Mapping}
    (h : table.insert m = .ok table') : table.nextId + 1 < 2 ^ 32 := by
  simp only [insert, except_bind_eq_ok, except_ite_eq_ok, except_pure_eq_ok, except_throw_ne_ok,
    false_and, exists_false, and_false, or_false, checkedAdd_eq_ok] at h
  obtain ⟨-, _, ⟨hlt, -⟩, -⟩ := h
  exact hlt

namespace Pager

variable {p p' : Pager} {pid : Nat} {given : List Nat}

/-- A mapping that is made leaves a number for the one after it. -/
theorem MapsFile.nextId_lt {addr id : Nat} {file : Handle} {pr : Process}
    (h : p.MapsFile pid file addr (.ok id) p') (hpr : p.processes[pid]? = some pr) :
    pr.mappings.nextId + 1 < 2 ^ 32 := by
  generalize hr : (Except.ok id : Except MmapError Nat) = r at h
  cases h with
  | refused => cases hr
  | @mapped pr₁ _ _ _ _ process _ _ _ inserted =>
    obtain rfl : pr₁ = pr := Option.some.inj (process.symm.trans hpr)
    exact MappingTable.nextId_lt_of_insert inserted

/-- If process `pid` is registered, it was given the numbers in `given`: the first ones, in order,
and there is a next one. -/
def Numbers (p : Pager) (pid : Nat) (given : List Nat) : Prop :=
  ∀ pr, p.processes[pid]? = some pr →
    given = List.range pr.mappings.nextId ∧ pr.mappings.nextId < 2 ^ 32

/-- Only the table of mappings matters. -/
theorem Numbers.congr (h : p.Numbers pid given)
    (hsame : ∀ pr', p'.processes[pid]? = some pr' →
      ∃ pr, p.processes[pid]? = some pr ∧ pr.mappings.nextId = pr'.mappings.nextId) :
    p'.Numbers pid given := by
  intro pr' hpr'
  obtain ⟨pr, hpr, hnext⟩ := hsame pr' hpr'
  rw [← hnext]
  exact h pr hpr

/-- A mapping that is made gets the next number. -/
theorem Numbers.mapFile {q addr : Nat} {file : Handle} {result : Except MmapError Nat}
    (h : p.Numbers pid given) (hmaps : p.MapsFile q file addr result p') :
    p'.Numbers pid ((Op.mapFile q file addr).numbers pid given (.mapped result)) := by
  cases hmaps with
  | refused => exact h
  | @mapped pr pages table m mapping process aligned fits declared inserted =>
    obtain ⟨hid, -, hnext⟩ := MappingTable.of_insert inserted
    have hlt := MappingTable.nextId_lt_of_insert inserted
    intro pr' hpr'
    replace hpr' : (p.withProcess q { pr with pages, mappings := table }).processes[pid]?
        = some pr' := hpr'
    rw [getElem?_withProcess] at hpr'
    rw [Op.numbers]
    split at hpr'
    · rename_i hq
      subst hq
      cases hpr'
      rw [if_pos rfl, (h pr process).1, hid, hnext, List.range_succ]
      exact ⟨rfl, hlt⟩
    · rename_i hq
      rw [if_neg hq]
      exact h pr' hpr'

end Pager

namespace PagerM

open Pager (Numbers)

variable {t : Traced} {pid : Nat} {given : List Nat}

/-- Every request keeps count. -/
theorem ensures_perform_numbers (op : Op) (h : t.pager.Numbers pid given) :
    Ensures (Pager.perform op)
      (fun answer t' => t'.pager.Numbers pid (op.numbers pid given answer)) t := by
  cases hop : op.remaps with
  | false =>
    refine (ensures_perform_catalogue hop t).mono fun answer t' hsame => ?_
    rw [Op.numbers_of_remaps hop]
    refine h.congr fun pr' hpr' => ?_
    have hpid := congrFun hsame pid
    rw [Pager.catalogue, Pager.catalogue, hpr', Option.map_some, eq_comm,
      Option.map_eq_some_iff] at hpid
    obtain ⟨pr, hpr, heq⟩ := hpid
    exact ⟨pr, hpr, congrArg (fun x => x.1.nextId) heq⟩
  | true =>
    cases op with
    | register q =>
      simp only [Pager.perform, ensures_bind, ensures_pure]
      refine (ensures_register_fresh q t).mono ?_
      rintro _ t' ⟨-, hpager⟩ pr' hpr'
      rw [hpager, Pager.getElem?_withProcess] at hpr'
      rw [Op.numbers]
      split at hpr'
      · rename_i hq
        cases hpr'
        rw [if_pos hq]
        exact ⟨rfl, Nat.two_pow_pos 32⟩
      · rename_i hq
        rw [if_neg hq]
        exact h pr' hpr'
    | destroy q =>
      simp only [Pager.perform, ensures_bind, ensures_pure]
      refine (ensures_destroy_processes q t).mono fun _ t' hprocesses pr' hpr' => ?_
      rw [hprocesses, Std.ExtTreeMap.getElem?_erase] at hpr'
      split at hpr'
      · cases hpr'
      · exact h pr' hpr'
    | mapFile q file addr =>
      simp only [Pager.perform, ensures_bind, ensures_pure]
      exact (ensures_mapFile_cases q file addr t).mono fun _ _ hmaps => h.mapFile hmaps
    | unmapFile q id =>
      simp only [Pager.perform, ensures_bind, ensures_pure]
      refine (ensures_unmapFile_cases q id t).mono ?_
      rintro _ t' ⟨pr, m, pr', _, hpr, -, hmappings, -, ⟨_, _, -, rfl⟩, hpager⟩
      rw [hpager]
      refine h.congr fun pr₁ hpr₁ => ?_
      replace hpr₁ : (t.pager.withProcess q pr').processes[pid]? = some pr₁ := hpr₁
      rw [Pager.getElem?_withProcess] at hpr₁
      split at hpr₁
      · rename_i hq
        subst hq
        cases hpr₁
        exact ⟨pr, hpr, by rw [hmappings]⟩
      · exact ⟨pr₁, hpr₁, rfl⟩
    | _ => cases hop

/-- A run keeps count. -/
theorem ensures_run_numbers {history : List (Op × Answer)} (ops : List Op)
    (h : t.pager.Numbers pid (numbersGiven pid history)) :
    Ensures (Pager.run ops) (fun answers t' =>
      t'.pager.Numbers pid (numbersGiven pid (history ++ ops.zip answers))) t := by
  induction ops generalizing t history with
  | nil =>
    rw [Pager.run, ensures_pure, List.zip_nil_left, List.append_nil]
    exact h
  | cons op rest ih =>
    rw [Pager.run]
    simp only [ensures_bind, ensures_pure]
    refine (ensures_perform_numbers op h).mono fun answer t₁ h₁ => ?_
    have hstep : op.numbers pid (numbersGiven pid history) answer
        = numbersGiven pid (history ++ [(op, answer)]) := by
      rw [numbersGiven, numbersGiven, List.foldl_append]
      rfl
    rw [hstep] at h₁
    refine (ih h₁).mono fun answers t' h' => ?_
    rwa [List.zip_cons_cons, List.append_cons]

end PagerM

/-! ### Mapping and removing -/

/-- Maps a file and removes the mapping, `count` times. The first mapping gets the number `next`. -/
def Op.remapping (pid : Nat) (file : Handle) (addr next : Nat) : (count : Nat) → List Op
  | 0 => []
  | count + 1 =>
    .mapFile pid file addr :: .unmapFile pid next :: remapping pid file addr (next + 1) count

/-- What stands in the way of a mapping depends on the tunables and the declared pages only. -/
theorem MmapError.obstructs_congr {p p' : Pager} {pid addr : Nat} {file : Handle} {e : MmapError}
    (hconfig : p'.config = p.config) (hdeclared : p'.declared = p.declared) :
    e.Obstructs p' pid file addr ↔ e.Obstructs p pid file addr := by
  cases e <;> simp only [Obstructs, hconfig, hdeclared]

/-- The pages of a mapping are those that its length takes from its base on. -/
theorem Mapping.mem_pages_iff {m : Mapping} (haligned : pageOffset m.base = 0)
    (hfits : m.base + m.length < 2 ^ 64) {page : Nat} :
    page ∈ m.pages.toList ↔ ∃ i < pagesFor m.length, page = m.base + i * pageSize := by
  have hfirst : m.pages.first = m.base := pageFloor_of_pageOffset haligned
  simp only [PageRun.toList, List.mem_map, List.mem_range, count_pages haligned hfits, hfirst,
    eq_comm]

namespace Pager

variable {config : Config} {slots pid addr id : Nat} {file : Handle} {pr : Process} {t t' : Traced}

/-- Taking away what a mapping has added leaves what was there before. -/
theorem MapsWhole.declared_without {p p' : Pager} {m : Mapping}
    (h : p.MapsWhole pid file m.base id p') (hlength : m.length = file.file.length)
    (haligned : pageOffset m.base = 0) (hfits : m.base + m.length < 2 ^ 64) (o : FrameOwner) :
    (if o.pid = pid ∧ o.page ∈ m.pages.toList then none else p'.declared o) = p.declared o := by
  simp only [Mapping.mem_pages_iff haligned hfits, hlength]
  split
  · rename_i hin
    obtain ⟨hpid, i, hi, hpage⟩ := hin
    have ho : o = ⟨pid, m.base + i * pageSize⟩ := by rw [← hpid, ← hpage]
    rw [ho, (h.mapped i hi).1]
  · rename_i hout
    refine h.others o fun i hi heq => hout ?_
    rw [heq]
    exact ⟨rfl, i, hi, rfl⟩

/-- A mapping that was just made can be removed, and then the pages are declared that were declared
before it was made. -/
theorem exists_run_unmapFile (ho : InOrder config slots t'.pager)
    (haligned : pageOffset addr = 0) (hfits : addr + file.file.length < 2 ^ 64)
    (hpr : t.pager.processes[pid]? = some pr)
    (hmaps : t.pager.MapsWhole pid file addr id t'.pager) :
    ∃ t'', (unmapFile pid id).run t' = .ok () t'' ∧ t''.pager.declared = t.pager.declared ∧
      ∃ pr'', t''.pager.processes[pid]? = some pr'' ∧ pr''.mappings.nextId = id + 1 := by
  obtain ⟨-, pr', hpr', hnext, hm⟩ := hmaps.recorded pr hpr
  obtain ⟨_, t'', hrun⟩ := (PagerM.meets_unmapFile ho.owned ho.releasable hpr' hm
    ((ho.coherent pid pr' hpr').serves hm)).ends
  refine ⟨t'', hrun, funext fun o => ?_, ?_⟩
  · rw [PagerM.ensures_unmapFile_declared hpr' hm _ t'' hrun o]
    exact hmaps.declared_without rfl haligned hfits o
  · obtain ⟨pr₁, -, pr'', q, hpr₁, -, hmappings, -, -, hpager⟩ :=
      PagerM.ensures_unmapFile_cases pid id t' _ t'' hrun
    obtain rfl : pr' = pr₁ := Option.some.inj (hpr'.symm.trans hpr₁)
    exact ⟨pr'', by rw [hpager, getElem?_withProcess_self], by rw [hmappings, hnext]⟩

/-- A file that can be mapped can be mapped and removed, which costs a number and nothing else. -/
theorem exists_mapFile_unmapFile (ho : InOrder config slots t.pager)
    (hpr : t.pager.processes[pid]? = some pr) (hid : pr.mappings.nextId + 1 < 2 ^ 32)
    (hclear : ∀ e : MmapError, ¬ e.Obstructs t.pager pid file addr) :
    ∃ t₁ t₂, (mapFile pid file addr).run t = .ok (.ok pr.mappings.nextId) t₁ ∧
      (unmapFile pid pr.mappings.nextId).run t₁ = .ok () t₂ ∧ InOrder config slots t₂.pager ∧
      t₂.pager.declared = t.pager.declared ∧
      ∃ pr₂, t₂.pager.processes[pid]? = some pr₂ ∧
        pr₂.mappings.nextId = pr.mappings.nextId + 1 := by
  obtain ⟨result, t₁, hmap, hends⟩ :=
    mapFile_all_or_nothing hpr (Nat.lt_sub_of_add_lt hid) file addr
  obtain ⟨id, rfl⟩ := hends.ok_iff.2 hclear
  have hmaps := hends.all id rfl
  obtain ⟨rfl, -⟩ := hmaps.recorded pr hpr
  have ho₁ : InOrder config slots t₁.pager :=
    PagerM.inOrder_perform (.mapFile pid file addr) ho _ t₁
      (PagerM.run_bind_eq_ok.2 ⟨_, t₁, hmap, rfl⟩)
  have haligned : pageOffset addr = 0 := not_not.1 (hclear .unaligned)
  have huser : addr + file.file.length < 2 ^ 64 ∧
      addr + file.file.length ≤ t.pager.config.physBase := not_not.1 (hclear .kernelAddress)
  obtain ⟨t₂, hunmap, hdeclared, hnext⟩ := exists_run_unmapFile ho₁ haligned huser.1 hpr hmaps
  have ho₂ : InOrder config slots t₂.pager :=
    PagerM.inOrder_perform (.unmapFile pid _) ho₁ _ t₂
      (PagerM.run_bind_eq_ok.2 ⟨_, t₂, hunmap, rfl⟩)
  exact ⟨t₁, t₂, hmap, hunmap, ho₂, hdeclared, hnext⟩

/-- A file that can be mapped can be mapped and removed as often as there are numbers left. -/
theorem exists_run_remapping (count : Nat) (ho : InOrder config slots t.pager)
    (hpr : t.pager.processes[pid]? = some pr) (hcount : pr.mappings.nextId + count < 2 ^ 32)
    (hclear : ∀ e : MmapError, ¬ e.Obstructs t.pager pid file addr) :
    ∃ answers t', (run (Op.remapping pid file addr pr.mappings.nextId count)).run t
        = .ok answers t' ∧
      t'.pager.config = t.pager.config ∧ t'.pager.declared = t.pager.declared ∧
      ∃ pr', t'.pager.processes[pid]? = some pr' ∧
        pr'.mappings.nextId = pr.mappings.nextId + count := by
  induction count generalizing t pr with
  | zero => exact ⟨[], t, rfl, rfl, rfl, pr, hpr, rfl⟩
  | succ count ih =>
    obtain ⟨t₁, t₂, hmap, hunmap, ho₂, hdeclared, pr₂, hpr₂, hnext⟩ :=
      exists_mapFile_unmapFile ho hpr (by omega) hclear
    have hconfig : t₂.pager.config = t.pager.config :=
      ho₂.owned.config_eq.trans ho.owned.config_eq.symm
    obtain ⟨answers, t', hrun, hconfig', hdeclared', pr', hpr', hnext'⟩ :=
      ih ho₂ hpr₂ (by omega) fun e => by
        rw [MmapError.obstructs_congr hconfig hdeclared]
        exact hclear e
    rw [hnext] at hrun hnext'
    have hops : (run (Op.remapping pid file addr pr.mappings.nextId (count + 1))).run t
        = .ok (.mapped (.ok pr.mappings.nextId) :: .done :: answers) t' := by
      simp only [Op.remapping, run, perform, PagerM.run_bind_eq_ok]
      exact ⟨_, t₁, ⟨_, t₁, hmap, rfl⟩, _, t', ⟨_, t₂, ⟨_, t₂, hunmap, rfl⟩, _, t', hrun, rfl⟩, rfl⟩
    exact ⟨_, t', hops, hconfig'.trans hconfig, hdeclared'.trans hdeclared, pr', hpr', by omega⟩

end Pager

/-! ### What a process can expect -/

/-- What process `pid` can expect of the next request to map a file if it was given the numbers in
`given`. -/
structure Traced.CountsMappings (t : Traced) (pid : Nat) (given : List Nat) : Prop where
  /-- The numbers are `0, 1, 2, …`, each once and in this order. -/
  first : given = List.range given.length
  /-- The last of the 32-bit words is not given out. -/
  length_lt : given.length < 2 ^ 32
  /-- A request ends as long as a number is left after the next one. A refusal changes nothing, and
  a mapping gets the next number. -/
  ends : ∀ file addr, given.length + 1 < 2 ^ 32 ∨
      (∃ e : MmapError, e.Obstructs t.pager pid file addr) →
    ∃ result t', (Pager.mapFile pid file addr).run t = .ok result t' ∧
      t.pager.MapsOrNot pid file addr result t'.pager ∧ ∀ id, result = .ok id → id = given.length
  /-- After that, a request that should go through ends in a panic. -/
  panics : ∀ file addr, given.length + 1 = 2 ^ 32 →
      (∀ e : MmapError, ¬ e.Obstructs t.pager pid file addr) →
    ∃ t', (Pager.mapFile pid file addr).run t = .error .arithmetic t'

namespace Pager

variable {config : Config} {device : Block} {ops : List Op} {answers : List Answer} {t : Traced}
  {pid : Nat} {pr : Process}

/-- The numbers given in a run to a process that is registered at its end. -/
theorem numbers_of_run (h : (run ops).run (.start config device) = .ok answers t)
    (hpr : t.pager.processes[pid]? = some pr) :
    numbersGiven pid (ops.zip answers) = List.range pr.mappings.nextId ∧
      pr.mappings.nextId < 2 ^ 32 := by
  have hstart : (Traced.start config device).pager.Numbers pid (numbersGiven pid []) := by
    intro pr hpr
    rw [Traced.start, ofConfig, Std.ExtTreeMap.getElem?_empty] at hpr
    cases hpr
  exact PagerM.ensures_run_numbers ops hstart answers t h pr hpr

/-- A request that nothing stands in the way of needs a number to go on with. -/
theorem mapFile_panics (hpr : t.pager.processes[pid]? = some pr)
    (hexhausted : pr.mappings.nextId + 1 = 2 ^ 32) {file : Handle} {addr : Nat}
    (hnone : ∀ e : MmapError, ¬ e.Obstructs t.pager pid file addr) :
    ∃ t', (mapFile pid file addr).run t = .error .arithmetic t' := by
  have hmeets := PagerM.meets_mapFile_or_exhausted hpr file addr
  cases hrun : (mapFile pid file addr).run t with
  | error e t' =>
    obtain ⟨rfl, -⟩ := hmeets.of_error hrun
    exact ⟨t', rfl⟩
  | ok result t' =>
    have hdecides := hmeets.ensures result t' hrun
    have hmaps := PagerM.ensures_mapFile_cases pid file addr t result t' hrun
    cases result with
    | error e => exact absurd hdecides.1 (hnone e)
    | ok id => exact absurd (hmaps.nextId_lt hpr) (Nat.not_lt.2 (Nat.le_of_eq hexhausted.symm))

/-- After every run a process has been given the numbers `0, 1, 2, …` since it was registered. A
request to map a file ends, whatever the file and the address, unless the process was given
`2 ^ 32 - 1` numbers and nothing else stands in the way: then it panics. -/
theorem counts_mappings_of_run (h : (run ops).run (.start config device) = .ok answers t)
    (hpr : t.pager.processes[pid]? = some pr) :
    t.CountsMappings pid (numbersGiven pid (ops.zip answers)) := by
  obtain ⟨hgiven, hlt⟩ := numbers_of_run h hpr
  generalize numbersGiven pid (ops.zip answers) = given at hgiven
  have hlength : given.length = pr.mappings.nextId := by rw [hgiven, List.length_range]
  have hmeets := fun file addr => PagerM.meets_mapFile_or_exhausted hpr file addr
  rw [← hlength] at hlt hmeets
  constructor
  case first => rw [hlength, hgiven]
  case length_lt => exact hlt
  case ends =>
    intro file addr hleft
    have hanswers : PagerM.Meets (mapFile pid file addr)
        (fun r _ => PagerM.Decides t.pager pid file addr r) (fun _ _ => False) t := by
      refine (hmeets file addr).mono (fun _ _ hdecides => hdecides) ?_
      rintro _ _ ⟨-, hclear, hexhausted⟩
      rcases hleft with hleft | ⟨e, he⟩
      · exact absurd hleft (Nat.not_lt.2 hexhausted)
      · exact hclear.not_obstructs e he
    obtain ⟨result, t', hrun, hdecides, hmaps⟩ :=
      (hanswers.and_ensures (PagerM.ensures_mapFile_cases pid file addr t)).exists_run
    have hends := hmaps.mapsOrNot hdecides
    refine ⟨result, t', hrun, hends, fun id hid => ?_⟩
    rw [hlength, ((hends.all id hid).recorded pr hpr).1]
  case panics =>
    intro file addr hexhausted hnone
    exact mapFile_panics hpr (by rw [← hlength, hexhausted]) hnone

/-- A mapping is removed after a request was refused on its account. The next mapping, of the same
file in the same place, gets the next number. -/
theorem counts_mappings_refused_and_removed : ∃ ops answers t pr,
    ops = [.register 1, .mapFile 1 ⟨5, 0, .ofBytes #[1, 2, 3]⟩ 0x1000,
      .mapFile 1 ⟨6, 0, .ofBytes #[4]⟩ 0x1000, .unmapFile 1 0,
      .mapFile 1 ⟨5, 0, .ofBytes #[1, 2, 3]⟩ 0x1000] ∧
    (run ops).run (.start { userFrames := 1 } (.attach .swap "swap" (.ram (.blank 8))))
      = .ok answers t ∧
    t.pager.processes[1]? = some pr ∧ numbersGiven 1 (ops.zip answers) = [0, 1] ∧
    t.CountsMappings 1 [0, 1] := by
  generalize hops : [Op.register 1, .mapFile 1 ⟨5, 0, .ofBytes #[1, 2, 3]⟩ 0x1000,
      .mapFile 1 ⟨6, 0, .ofBytes #[4]⟩ 0x1000, .unmapFile 1 0,
      .mapFile 1 ⟨5, 0, .ofBytes #[1, 2, 3]⟩ 0x1000] = ops
  have hrun : ∃ answers t,
      (run ops).run (.start { userFrames := 1 } (.attach .swap "swap" (.ram (.blank 8))))
        = .ok answers t ∧
      t.pager.processes[1]?.isSome ∧ numbersGiven 1 (ops.zip answers) = [0, 1] := by
    subst hops
    decide +kernel
  obtain ⟨answers, t, h, hprocess, hnumbers⟩ := hrun
  obtain ⟨pr, hpr⟩ := Option.isSome_iff_exists.1 hprocess
  exact ⟨ops, answers, t, pr, rfl, h, hpr, hnumbers, hnumbers ▸ counts_mappings_of_run h hpr⟩

/-- A process that maps and removes one page `2 ^ 32 - 1` times stops the pager when it maps the
page once more, although nothing stands in the way. -/
theorem mapFile_panics_after_remapping : ∃ answers t t',
    (run (.register 1 :: Op.remapping 1 ⟨5, 0, .ofBytes #[1, 2, 3]⟩ 0x1000 0 (2 ^ 32 - 1))).run
      (.start { userFrames := 1 } (.attach .swap "swap" (.ram (.blank 8)))) = .ok answers t ∧
    t.pager.processes[1]?.isSome ∧
    (mapFile 1 ⟨5, 0, .ofBytes #[1, 2, 3]⟩ 0x1000).run t = .error .arithmetic t' := by
  -- the run is too long to be carried out, so its length is a variable
  obtain ⟨count, hcount⟩ : ∃ count, count = 2 ^ 32 - 1 := ⟨_, rfl⟩
  rw [← hcount]
  have hrun : ∃ answers t, (run [.register 1]).run
        (.start { userFrames := 1 } (.attach .swap "swap" (.ram (.blank 8)))) = .ok answers t ∧
      (t.pager.processes[1]?.any fun pr => pr.mappings.nextId = 0) ∧
      t.pager.declared ⟨1, 0x1000⟩ = none ∧ 0x1000 + 3 ≤ t.pager.config.physBase := by
    decide +kernel
  obtain ⟨answers, t, h, hprocess, hfree, huser⟩ := hrun
  obtain ⟨pr, hpr, hnext⟩ := (Option.any_eq_true _ _).1 hprocess
  replace hnext : pr.mappings.nextId = 0 := of_decide_eq_true hnext
  have hclear : ∀ e : MmapError, ¬ e.Obstructs t.pager 1 ⟨5, 0, .ofBytes #[1, 2, 3]⟩ 0x1000 := by
    intro e he
    cases e with
    | kernelAddress => exact he ⟨by decide, huser⟩
    | overlap =>
      obtain ⟨page, hpage, hle, hlt, hin⟩ := he
      replace hlt : page < 0x1000 + 3 := hlt
      obtain rfl : page = 0x1000 := by
        simp only [pageOffset, pageSize] at hpage
        omega
      rw [hfree] at hin
      cases hin
    | nullAddress | unaligned | emptyFile | reopen =>
      simp [MmapError.Obstructs, pageOffset, pageSize, File.ofBytes] at he
  obtain ⟨answers', t₁, h₁, hconfig, hdeclared, pr₁, hpr₁, hnext₁⟩ :=
    exists_run_remapping count (inOrder_of_run h) hpr (by omega) hclear
  rw [hnext] at h₁ hnext₁
  obtain ⟨t', hpanic⟩ := mapFile_panics hpr₁ (by omega) fun e => by
    rw [MmapError.obstructs_congr hconfig hdeclared]
    exact hclear e
  exact ⟨answers ++ answers', t₁, t', run_append h h₁, by rw [hpr₁]; rfl, hpanic⟩

end Pager

end DemandPaging
