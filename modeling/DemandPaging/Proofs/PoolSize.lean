import DemandPaging.Pager.Query
import DemandPaging.Proofs.Determined
import Mathlib.Data.List.Nodup

/-!
# The size of the pools is not seen

Two pagers that differ in the number of their frames and slots and in their swap devices, and that
are asked the same, answer the same, as long as neither runs out of room. They move different pages
at different times, and after a while nothing in their frames is alike. But their outlooks are the
same at boot, and no request tells pagers apart that look the same.

What is left to do here is the requests that work on the page map of one process while it is held
in the hand: mapping a file, and taking pages back.

## Main definitions

* `Outlook.mapFile`, `Outlook.unmapFile`, `Outlook.removeProcess` — these requests, seen from
  outside.
* `Pager.Returns` — frames and slots are given back.

## Main results

* `PagerM.determined_perform` — every request is determined.
* `Pager.answers_eq_of_runs` — the size of the pools is not seen.
-/

namespace DemandPaging

namespace Outlook

/-- Declares `count` pages from `page` on as the pages of mapping `id` from its page `i` on, up to
the first one that is in use. -/
def declareMapped (v : Outlook) (pid id : Nat) (file : Handle) (page i : Nat) :
    (count : Nat) → Option Nat × Outlook
  | 0 => (none, v)
  | count + 1 =>
    match v.declare ⟨pid, page⟩ (.mapped id file (i * pageSize)) true with
    | (false, v) => (some page, v)
    | (true, v) => v.declareMapped pid id file (page + pageSize) (i + 1) count

/-- Maps a file at the pages of `m`, whose table of mappings is `table`. -/
def mapAt (v : Outlook) (pid : Nat) (table : MappingTable) (m : Mapping) :
    Option (Except MmapError Nat × Outlook) :=
  match v.declareMapped pid m.id m.file m.pages.first 0 m.pages.count, table.insert m with
  | (some _, _), _ => some (.error .overlap, v)
  | (none, v'), .ok table =>
    some (.ok m.id, { v'.setMappings pid (some table) with nextSerial := v.nextSerial + 1 })
  | (none, _), .error _ => none

/-- Maps all of a file at `addr`. -/
def mapFile (v : Outlook) (pid : Nat) (file : Handle) (addr : Nat) :
    Option (Except MmapError Nat × Outlook) :=
  if addr = 0 then some (.error .nullAddress, v)
  else if pageOffset addr ≠ 0 then some (.error .unaligned, v)
  else if file.file.length = 0 then some (.error .emptyFile, v)
  else if v.layout.isUserRange addr file.file.length then
    if file.file.reopens then
      (v.mappings pid).bind fun table => v.mapAt pid table
        ⟨table.nextId, { file with serial := v.nextSerial }, addr, file.file.length⟩
    else some (.error .reopen, v)
  else some (.error .kernelAddress, v)

/-- The outlook without the pages of a run. -/
def removeRun (v : Outlook) (pid page count : Nat) : Outlook where
  layout := v.layout
  pages o := if o.pid = pid ∧ ∃ i < count, o.page = page + i * pageSize then none else v.pages o
  mappings := v.mappings
  failing := v.failing
  nextSerial := v.nextSerial

/-- Removes mapping `id` and the pages it covers. -/
def unmapFile (v : Outlook) (pid id : Nat) : Option (Unit × Outlook) :=
  (v.mappings pid).bind fun table => (table.live[id]?).map fun m =>
    ((), (v.setMappings pid (some { table with live := table.live.erase id })).removeRun pid
      m.pages.first m.pages.count)

/-- The outlook without a process. -/
def removeProcess (v : Outlook) (pid : Nat) : Outlook where
  layout := v.layout
  pages o := if o.pid = pid then none else v.pages o
  mappings := Function.update v.mappings pid none
  failing := v.failing
  nextSerial := v.nextSerial

end Outlook

namespace Pager

variable {p p₁ p' : Pager} {pid : Nat}

/-- `p'` is `p` after some frames and slots were given back. What frames and slots hold is the
same, and so are the processes. -/
def Returns (p p' : Pager) : Prop :=
  ∃ frames swap, swap.device = p.swap.device ∧ p' = { p with frames, swap }

namespace Returns

theorem refl (p : Pager) : p.Returns p := ⟨p.frames, p.swap, rfl, rfl⟩

theorem trans (h : p.Returns p₁) (h' : p₁.Returns p') : p.Returns p' := by
  obtain ⟨_, _, hdevice, rfl⟩ := h
  obtain ⟨frames, swap, hdevice', rfl⟩ := h'
  exact ⟨frames, swap, hdevice'.trans hdevice, rfl⟩

theorem withProcess (h : p.Returns p') (pid : Nat) (pr : Process) :
    (p.withProcess pid pr).Returns (p'.withProcess pid pr) := by
  obtain ⟨frames, swap, hdevice, rfl⟩ := h
  exact ⟨frames, swap, hdevice, rfl⟩

theorem outlook_eq (h : p.Returns p') : p'.outlook = p.outlook := by
  obtain ⟨frames, swap, hdevice, rfl⟩ := h
  exact Outlook.ext rfl (visible_congr rfl rfl (Swap.contents_congr hdevice)) rfl rfl rfl

end Returns

theorem Releases.returns {page : Nat} {e : PageEntry} {s s' : AddressSpace}
    (h : p.Releases page e s s' p') : p.Returns p' := by
  cases h with
  | resident => exact ⟨_, _, rfl, rfl⟩
  | swapped residency released => exact ⟨_, _, Swap.device_of_release released, rfl⟩
  | notPopulated => exact .refl p

theorem outlook_of_removeRun {pr pr' : Process} {page count : Nat}
    (h : p.processes[pid]? = some pr) (hpage : pageOffset page = 0)
    (hpages : pr'.pages = pr.pages.removeRun page count) :
    (p.withProcess pid pr').outlook
      = (p.outlook.setMappings pid (some pr'.mappings)).removeRun pid page count := by
  refine Outlook.ext rfl ?_ (mappings_withProcess p pid pr') rfl rfl
  funext o
  show Option.map p.pageView ((p.withProcess pid pr').declared o)
    = if _ then none else Option.map p.pageView (p.declared o)
  rw [declared_withProcess, hpages, PageMap.getElem?_removeRun hpage]
  by_cases ho : pid = o.pid
  · subst ho
    rw [if_pos rfl, ← declared_of_getElem? h]
    by_cases hrun : ∃ i < count, o.page = page + i * pageSize
    · rw [if_pos hrun, if_pos ⟨rfl, hrun⟩, Option.map_none]
    · rw [if_neg hrun, if_neg fun h => hrun h.2]
  · rw [if_neg ho, if_neg fun h => ho h.1.symm]

theorem outlook_erase (p : Pager) (pid : Nat) :
    ({ p with processes := p.processes.erase pid } : Pager).outlook
      = p.outlook.removeProcess pid := by
  have herase : ∀ q, (p.processes.erase pid)[q]? = if pid = q then none else p.processes[q]? := by
    intro q
    simp [Std.ExtTreeMap.getElem?_erase]
  refine Outlook.ext rfl ?_ ?_ rfl rfl
  · funext o
    show Option.map p.pageView ((p.processes.erase pid)[o.pid]?.bind _)
      = if _ then none else Option.map p.pageView (p.declared o)
    rw [herase]
    by_cases ho : pid = o.pid
    · rw [if_pos ho, if_pos ho.symm]
      rfl
    · rw [if_neg ho, if_neg (Ne.symm ho)]
      rfl
  · funext q
    show Option.map _ (p.processes.erase pid)[q]? = Function.update p.outlook.mappings pid none q
    rw [herase]
    by_cases hq : pid = q
    · subst hq
      rw [if_pos rfl, Function.update_self, Option.map_none]
    · rw [if_neg hq, Function.update_of_ne (Ne.symm hq)]
      rfl

end Pager

namespace PagerM

open Pager (Change Steps)

variable {t : Traced} {pid : Nat}

/-! ### Mappings -/

theorem outlook_declareMapped {p : Pager} {pr : Process} {id : Nat} {file : Handle}
    {page i count : Nat} {found : Option Nat} {pages : PageMap} (hpr : p.processes[pid]? = some pr)
    (h : pr.pages.declareMapped id file page i count = .ok (found, pages)) :
    p.outlook.declareMapped pid id file page i count
      = (found, (p.withProcess pid { pr with pages }).outlook) := by
  induction count generalizing page i p pr with
  | zero =>
    rw [PageMap.declareMapped] at h
    cases h
    rw [Outlook.declareMapped, Pager.withProcess_self hpr]
  | succ count ih =>
    rw [PageMap.declareMapped] at h
    simp only [except_bind_eq_ok, Prod.exists] at h
    obtain ⟨added, m₁, hdecl, h⟩ := h
    rw [Outlook.declareMapped, outlook_tryDeclare hpr hdecl]
    cases added with
    | false =>
      simp only [Bool.false_eq_true, if_false, except_pure_eq_ok, Prod.mk.injEq] at h
      obtain ⟨rfl, rfl⟩ := h
      rfl
    | true =>
      simp only [if_true] at h
      have hrest := ih (Pager.getElem?_withProcess_self p pid { pr with pages := m₁ }) h
      rwa [Pager.withProcess_withProcess] at hrest

theorem follows_mapFile (pid : Nat) (file : Handle) (addr : Nat) :
    (Pager.mapFile pid file addr).Follows fun v => v.mapFile pid file addr := by
  refine follows_of_steps (ensures_mapFile pid file addr) (fun _ h => h.grows.ne_plan) fun t _ => ?_
  have hrange : t.pager.outlook.layout.isUserRange = t.pager.config.isUserRange := rfl
  rw [Pager.mapFile]
  simp only [ensures_bind, ensures_ite, ensures_pure, ensures_pager, ensures_process,
    ensures_lift, Outlook.mapFile, hrange]
  refine ⟨fun h => if_pos h, fun h₁ => ?_⟩
  rw [if_neg h₁]
  refine ⟨fun h => if_pos h, fun h₂ => ?_⟩
  rw [if_neg h₂]
  refine ⟨fun h => if_pos h, fun h₃ => ?_⟩
  rw [if_neg h₃]
  refine ⟨fun h₄ => ?_, fun h => if_neg h⟩
  rw [if_pos h₄]
  refine ⟨fun h₅ => ?_, fun h => if_neg h⟩
  rw [if_pos h₅]
  rintro pr hpr ⟨found, pages⟩ hdecl
  rw [Pager.mappings_of_getElem? hpr, Option.bind_some]
  have hserial : t.pager.outlook.nextSerial = t.pager.nextSerial := rfl
  simp only [Outlook.mapAt, hserial, outlook_declareMapped hpr hdecl]
  cases found with
  | some q =>
    have haligned : pageOffset addr = 0 := by simpa using h₂
    simp only [ensures_bind, ensures_setProcess, ensures_emit, ensures_pure]
    show _ = some (_, (t.pager.withProcess pid _).outlook)
    rw [PageMap.removeRun_of_overlap haligned (lt_of_isUserRange h₄).1 hdecl,
      Pager.withProcess_self hpr]
  | none =>
    simp only [ensures_bind, ensures_lift, ensures_setProcess, ensures_update, ensures_emit,
      ensures_pure]
    intro mappings hinsert
    have hmapped := Pager.outlook_of_mappings
      (Pager.getElem?_withProcess_self t.pager pid { pr with pages }) mappings
      (t.pager.nextSerial + 1)
    rw [Pager.withProcess_withProcess] at hmapped
    rw [hinsert]
    have hid : (Except.ok pr.mappings.nextId : Except MmapError Nat) = _ := rfl
    exact congrArg some (Prod.ext hid hmapped.symm)

/-! ### Taking pages back

Giving a page back concerns the pool and the table of slots. Which pages are gone is written into
the process that is held in the hand. -/

theorem ensures_unmapPages_returns (m : Mapping) (page count : Nat) (pr : Process) (t : Traced) :
    Ensures (unmapPages m page count pr) (fun pr' t' => t.pager.Returns t'.pager ∧
      pr'.mappings = pr.mappings ∧ pr'.pages = pr.pages.removeRun page count) t := by
  induction count generalizing page pr t with
  | zero =>
    rw [unmapPages]
    exact ensures_pure.2 ⟨.refl _, rfl, rfl⟩
  | succ count ih =>
    rw [unmapPages, PageMap.remove]
    cases pr.pages.lookup page with
    | none => exact ih (page + pageSize) _ t
    | some e =>
      simp only [ensures_bind, ensures_ite, ensures_throw, implies_true, and_true]
      intro _
      refine (ensures_releaseEntry page e pr.space t).mono ?_
      intro space t₁ hreleases
      refine (ih (page + pageSize) _ t₁).mono ?_
      rintro pr' t' ⟨hreturns, hmappings, hpages⟩
      exact ⟨hreleases.returns.trans hreturns, hmappings, hpages⟩

theorem ensures_unmapAll_returns (mappings : List Mapping) (pr : Process) (t : Traced) :
    Ensures (unmapAll mappings pr) (fun _ t' => t.pager.Returns t'.pager) t := by
  induction mappings generalizing pr t with
  | nil =>
    rw [unmapAll]
    exact ensures_pure.2 (.refl _)
  | cons m rest ih =>
    rw [unmapAll]
    simp only [ensures_bind]
    refine (ensures_unmapPages_returns m _ _ pr t).mono ?_
    intro pr₁ t₁ h
    exact (ih pr₁ t₁).mono fun _ _ hrest => h.1.trans hrest

theorem ensures_releaseAll_returns (pages : List (Nat × PageEntry)) (space : AddressSpace)
    (t : Traced) :
    Ensures (releaseAll pages space) (fun _ t' => t.pager.Returns t'.pager) t := by
  induction pages generalizing space t with
  | nil =>
    rw [releaseAll]
    exact ensures_pure.2 (.refl _)
  | cons entry rest ih =>
    rw [releaseAll]
    simp only [ensures_bind]
    refine (ensures_releaseEntry entry.1 entry.2 space t).mono ?_
    intro space₁ t₁ h
    exact (ih space₁ t₁).mono fun _ _ hrest => h.returns.trans hrest

/-- A mapping that is removed is a matter of the outlook. -/
theorem ensures_unmapFile_outlook (pid id : Nat) (t : Traced) :
    Ensures (Pager.unmapFile pid id)
      (fun r t' => t.pager.outlook.unmapFile pid id = some (r, t'.pager.outlook)) t := by
  rw [Pager.unmapFile]
  simp only [ensures_bind, ensures_process]
  intro pr hpr
  rw [MappingTable.remove, Outlook.unmapFile, Pager.mappings_of_getElem? hpr, Option.bind_some]
  cases hm : pr.mappings.live[id]? with
  | none => simp
  | some m =>
    simp only [ensures_bind, ensures_setProcess, ensures_emit, Option.map_some]
    refine (ensures_unmapPages_returns m _ _ _ t).mono ?_
    rintro pr' t' ⟨hreturns, hkept, hpages⟩
    have hseen := Pager.outlook_of_removeRun hpr (pageOffset_pageFloor m.base) hpages
    rw [hkept] at hseen
    have hsame : (t'.pager.withProcess pid pr').outlook = _ :=
      (hreturns.withProcess pid pr').outlook_eq
    exact congrArg some (Prod.ext rfl (hsame.trans hseen).symm)

theorem follows_unmapFile (pid id : Nat) :
    (Pager.unmapFile pid id).Follows fun v => v.unmapFile pid id :=
  follows_of_steps (ensures_unmapFile pid id) (fun _ h => by rintro rfl; cases h)
    fun t _ => ensures_unmapFile_outlook pid id t

/-- A process that is torn down goes, and frames and slots are given back. -/
theorem ensures_destroy_returns (pid : Nat) (t : Traced) :
    Ensures (Pager.destroy pid) (fun _ t' =>
      ({ t.pager with processes := t.pager.processes.erase pid } : Pager).Returns t'.pager) t := by
  rw [Pager.destroy]
  simp only [ensures_bind, ensures_process, ensures_update]
  intro pr _
  rw [MappingTable.takeAll]
  simp only [ensures_discard, ensures_emit]
  refine (ensures_unmapAll_returns _ _ _).mono ?_
  intro pr₁ t₁ hunmapped
  exact (ensures_releaseAll_returns _ _ t₁).mono fun _ _ hreleased => hunmapped.trans hreleased

/-- A process that is torn down is seen to go, and nothing else. -/
theorem ensures_destroy_outlook (pid : Nat) (t : Traced) :
    Ensures (Pager.destroy pid)
      (fun _ t' => t'.pager.outlook = t.pager.outlook.removeProcess pid) t := by
  refine (ensures_destroy_returns pid t).mono ?_
  intro _ t' hreturns
  rw [hreturns.outlook_eq, Pager.outlook_erase]

theorem follows_destroy (pid : Nat) :
    (Pager.destroy pid).Follows fun v => some ((), v.removeProcess pid) :=
  follows_of_steps (ensures_destroy pid) (fun _ h => by rintro rfl; cases h) fun t _ =>
    (ensures_destroy_outlook pid t).mono fun _ _ hseen => by rw [hseen]

/-! ### Requests and runs -/

/-- A request answers from the outlook alone, unless it tells an address space what to refuse. -/
theorem determined_perform {op : Op} (hop : op.plans = false) :
    (Pager.perform op).Determined := by
  cases op with
  | refuse | refuseBy => cases hop
  | register pid => exact (follows_register pid).determined.bind fun _ => determined_pure _
  | destroy pid => exact (follows_destroy pid).determined.bind fun _ => determined_pure _
  | failReads file failing =>
    exact (follows_failReads file failing).determined.bind fun _ => determined_pure _
  | declareZero pid page writable =>
    refine Determined.bind ?_ fun _ => determined_pure _
    refine (follows_tryDeclare pid page .zero writable).determined.bind fun added => ?_
    exact .ite (determined_pure _) (determined_throw _)
  | tryDeclareZero pid page writable =>
    exact (follows_tryDeclare pid page .zero writable).determined.bind fun _ => determined_pure _
  | declareImage pid page file offset read writable =>
    refine Determined.bind ?_ fun _ => determined_pure _
    refine (determined_tryDeclareImage pid page file offset read writable).bind fun added => ?_
    exact .ite (determined_pure _) (determined_throw _)
  | tryDeclareImage pid page file offset read writable =>
    exact (determined_tryDeclareImage pid page file offset read writable).bind
      fun _ => determined_pure _
  | loadElf pid file => exact (determined_loadElf pid file).bind fun _ => determined_pure _
  | pageFault pid addr esp =>
    exact (follows_pageFault pid addr esp).determined.bind fun _ => determined_pure _
  | interrupt pid addr esp code =>
    exact (determined_handlePageFault pid addr esp code).bind fun _ => determined_pure _
  | validAddress pid addr esp forWrite =>
    exact (follows_validAddress pid addr esp forWrite).determined.bind fun _ => determined_pure _
  | pin pid start size esp forWrite =>
    exact (determined_pin pid start size esp forWrite).bind fun _ => determined_pure _
  | unpin pid start size =>
    exact (follows_unpin pid start size).determined.bind fun _ => determined_pure _
  | copyFromUser pid start length esp =>
    exact (determined_copyFromUser pid start length esp).bind fun _ => determined_pure _
  | copyToUser pid start data esp =>
    exact (determined_copyToUser pid start data esp).bind fun _ => determined_pure _
  | mapFile pid file addr =>
    exact (follows_mapFile pid file addr).determined.bind fun _ => determined_pure _
  | unmapFile pid id =>
    exact (follows_unmapFile pid id).determined.bind fun _ => determined_pure _

theorem determined_run {ops : List Op} (hops : ∀ op ∈ ops, op.plans = false) :
    (Pager.run ops).Determined := by
  induction ops with
  | nil => exact determined_pure _
  | cons op rest ih =>
    rw [Pager.run]
    refine (determined_perform (hops op List.mem_cons_self)).bind fun answer => ?_
    exact (ih fun op' hop' => hops op' (List.mem_cons_of_mem op hop')).bind
      fun _ => determined_pure _

/-- A run that ends has passed through the runs of its first requests. -/
theorem run_take {ops : List Op} {answers : List Answer} {t t' : Traced}
    (h : (Pager.run ops).run t = .ok answers t') (n : Nat) :
    ∃ t₁, (Pager.run (ops.take n)).run t = .ok (answers.take n) t₁ := by
  induction ops generalizing n answers t with
  | nil =>
    rw [Pager.run] at h
    cases h
    rw [List.take_nil, List.take_nil]
    exact ⟨_, rfl⟩
  | cons op rest ih =>
    rw [Pager.run] at h
    obtain ⟨answer, t₁, hop, h⟩ := run_bind_eq_ok.1 h
    obtain ⟨later, t₂, hrest, h⟩ := run_bind_eq_ok.1 h
    cases h
    cases n with
    | zero => exact ⟨_, rfl⟩
    | succ n =>
      obtain ⟨t₃, htake⟩ := ih hrest n
      rw [List.take_succ_cons, List.take_succ_cons, Pager.run]
      exact ⟨t₃, run_bind_eq_ok.2 ⟨answer, t₁, hop, run_bind_eq_ok.2 ⟨_, t₃, htake, rfl⟩⟩⟩

end PagerM

namespace Pager

namespace Alike

variable {p q : Pager}

/-- Pagers that look the same have the same processes, with the same mappings. -/
theorem processes (h : p.Alike q) (pid : Nat) :
    (p.processes[pid]? = none ∧ q.processes[pid]? = none) ∨
      ∃ pr pr', p.processes[pid]? = some pr ∧ q.processes[pid]? = some pr' ∧
        pr.mappings = pr'.mappings := by
  have hmappings :
      p.processes[pid]?.map Process.mappings = q.processes[pid]?.map Process.mappings :=
    congrFun (congrArg Outlook.mappings h.outlook_eq) pid
  cases hp : p.processes[pid]? with
  | none =>
    rw [hp, Option.map_none, eq_comm, Option.map_eq_none_iff] at hmappings
    exact .inl ⟨rfl, hmappings⟩
  | some pr =>
    rw [hp, Option.map_some, eq_comm, Option.map_eq_some_iff] at hmappings
    obtain ⟨pr', hq, hsame⟩ := hmappings
    exact .inr ⟨pr, pr', rfl, hq, hsame.symm⟩

theorem liveMappings_eq (h : p.Alike q) (pid : Nat) :
    p.liveMappings pid = q.liveMappings pid := by
  rw [liveMappings, liveMappings, process, process]
  rcases h.processes pid with ⟨hp, hq⟩ | ⟨pr, pr', hp, hq, hsame⟩
  · rw [hp, hq]
  · rw [hp, hq]
    show Except.ok _ = Except.ok _
    rw [hsame]

/-- A process has the same pages declared in both pagers, so it has as many. -/
theorem declaredPages_eq (h : p.Alike q) (pid : Nat) :
    p.declaredPages pid = q.declaredPages pid := by
  rw [declaredPages, declaredPages, process, process]
  rcases h.processes pid with ⟨hp, hq⟩ | ⟨pr, pr', hp, hq, -⟩
  · rw [hp, hq]
  · have hkeys : pr.pages.entries.keys.Perm pr'.pages.entries.keys := by
      refine (List.perm_ext_iff_of_nodup Std.ExtTreeMap.nodup_keys
        Std.ExtTreeMap.nodup_keys).2 fun k => ?_
      have hpage : (p.visible ⟨pid, k⟩).isSome = (q.visible ⟨pid, k⟩).isSome :=
        congrArg Option.isSome (congrFun (congrArg Outlook.pages h.outlook_eq) _)
      rw [visible, visible, Option.isSome_map, Option.isSome_map, declared_of_getElem? hp,
        declared_of_getElem? hq] at hpage
      rw [Std.ExtTreeMap.mem_keys, Std.ExtTreeMap.mem_keys, Std.ExtTreeMap.mem_iff_isSome_getElem?,
        Std.ExtTreeMap.mem_iff_isSome_getElem?, hpage]
    rw [hp, hq]
    show Except.ok _ = Except.ok _
    rw [PageMap.size, PageMap.size, ← Std.ExtTreeMap.length_keys, hkeys.length_eq,
      Std.ExtTreeMap.length_keys]

end Alike

/-- The size of the pools and of the swap device, whose sectors are numbered in 32 bits, is not
seen: two runs of the same requests that do not panic give the same answers, and after every request
each process has as many pages and as many mappings in one as in the other. -/
theorem answers_eq_of_runs {config config' : Config} {device device' : Block} {ops : List Op}
    {answers answers' : List Answer} {t t' : Traced} (hlayout : config.layout = config'.layout)
    (hdevice : device.size ≤ 2 ^ 32) (hdevice' : device'.size ≤ 2 ^ 32)
    (hops : ∀ op ∈ ops, op.plans = false)
    (h : (run ops).run (.start config device) = .ok answers t)
    (h' : (run ops).run (.start config' device') = .ok answers' t') :
    answers = answers' ∧ ∀ n, ∃ u u',
      (run (ops.take n)).run (.start config device) = .ok (answers.take n) u ∧
      (run (ops.take n)).run (.start config' device') = .ok (answers.take n) u' ∧
      ∀ pid, u.pager.declaredPages pid = u'.pager.declaredPages pid ∧
        u.pager.liveMappings pid = u'.pager.liveMappings pid := by
  have hstart : (Traced.start config device).pager.Alike (Traced.start config' device').pager := by
    refine ⟨sound_ofConfig config hdevice, sound_ofConfig config' hdevice', ?_⟩
    show (ofConfig config device).outlook = (ofConfig config' device').outlook
    rw [outlook_ofConfig, outlook_ofConfig, hlayout]
  obtain ⟨rfl, -⟩ := PagerM.determined_run hops _ _ _ _ _ _ hstart h h'
  refine ⟨rfl, fun n => ?_⟩
  obtain ⟨u, hu⟩ := PagerM.run_take h n
  obtain ⟨u', hu'⟩ := PagerM.run_take h' n
  have htake : ∀ op ∈ ops.take n, op.plans = false := fun op hop =>
    hops op (List.mem_of_mem_take hop)
  obtain ⟨-, halike⟩ := PagerM.determined_run htake _ _ _ _ _ _ hstart hu hu'
  exact ⟨u, u', hu, hu', fun pid => ⟨halike.declaredPages_eq pid, halike.liveMappings_eq pid⟩⟩

/-- One frame and no swap do as well as four frames and swap, for two processes that follow each
other. -/
theorem answers_eq_one_frame : ∃ ops answers t t',
    ops = [.register 1, .declareZero 1 0x1000 true, .pageFault 1 0x1234 0, .destroy 1, .register 2,
      .validAddress 2 0x1000 0 true, .pageFault 2 0x1000 0] ∧
    (run ops).run
        (.start { userFrames := 1, swapSlots := 0 } (.attach .swap "swap" (.ram (.blank 8))))
      = .ok answers t ∧
    (run ops).run (.start { userFrames := 4 } (.attach .swap "swap" (.ram (.blank 64))))
      = .ok answers t' ∧
    ∀ n, ∃ u u',
      (run (ops.take n)).run
          (.start { userFrames := 1, swapSlots := 0 } (.attach .swap "swap" (.ram (.blank 8))))
        = .ok (answers.take n) u ∧
      (run (ops.take n)).run
          (.start { userFrames := 4 } (.attach .swap "swap" (.ram (.blank 64))))
        = .ok (answers.take n) u' ∧
      ∀ pid, u.pager.declaredPages pid = u'.pager.declaredPages pid ∧
        u.pager.liveMappings pid = u'.pager.liveMappings pid := by
  have hends : PagerM.Ends (run [.register 1, .declareZero 1 0x1000 true, .pageFault 1 0x1234 0,
      .destroy 1, .register 2, .validAddress 2 0x1000 0 true, .pageFault 2 0x1000 0])
      (.start { userFrames := 1, swapSlots := 0 } (.attach .swap "swap" (.ram (.blank 8)))) := by
    decide +kernel
  have hends' : PagerM.Ends (run [.register 1, .declareZero 1 0x1000 true, .pageFault 1 0x1234 0,
      .destroy 1, .register 2, .validAddress 2 0x1000 0 true, .pageFault 2 0x1000 0])
      (.start { userFrames := 4 } (.attach .swap "swap" (.ram (.blank 64)))) := by
    decide +kernel
  obtain ⟨answers, t, h⟩ := hends
  obtain ⟨answers', t', h'⟩ := hends'
  have hlayout : Config.layout { userFrames := 1, swapSlots := 0 }
      = Config.layout { userFrames := 4 } := rfl
  have hdevice : (Block.attach .swap "swap" (.ram (.blank 8))).size ≤ 2 ^ 32 := by decide
  have hdevice' : (Block.attach .swap "swap" (.ram (.blank 64))).size ≤ 2 ^ 32 := by decide
  have hops : ∀ op ∈ [Op.register 1, .declareZero 1 0x1000 true, .pageFault 1 0x1234 0, .destroy 1,
      .register 2, .validAddress 2 0x1000 0 true, .pageFault 2 0x1000 0], op.plans = false := by
    decide
  obtain ⟨rfl, hsteps⟩ := answers_eq_of_runs hlayout hdevice hdevice' hops h h'
  exact ⟨_, answers, t, t', rfl, h, h', hsteps⟩

end Pager

end DemandPaging
