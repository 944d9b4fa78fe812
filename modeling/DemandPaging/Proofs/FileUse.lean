import DemandPaging.Proofs.OpenHandles

/-!
# A file that the pager opens and closes

A file counts its handles. It gives out a number whenever it is opened and strikes the number out
when the handle is closed. The pager keeps no such count: its handles are those that some mapping
or page still reads through.

The two counts agree. Beside the pager the file is opened and closed here as the requests come in.
A request to map it opens it, and closes it again if a page turns out to be in use. A mapping that
is removed closes the handle that it was made through. After every run the handles to the file are
those of live mappings, one for one, and so it has counted as many as the pager finds.

The numbers are not the same on both sides. The pager numbers the openings of all files together,
and it does not count those of requests that it refused. So beside the file stands which handle of
it an opening is.

## Main definitions

* `FileUse` — a file and the handles behind the pager's openings of it.
* `FileUse.perform`, `Pager.runBeside` — what a request, and a run, comes to for the file.
* `FileUse.Holds` — the handles of the file are those behind certain openings.

## Main results

* `FileUse.Holds.reopen`, `FileUse.Holds.close` — opening and closing.
* `FileUse.Holds.perform` — what every request keeps.
* `Pager.openHandles_of_run` — after every run the file has counted what the pager finds.
-/

namespace DemandPaging

/-! ### Opening and closing -/

/-- A file that the pager uses: `handle` says which handle of the file an opening is. -/
structure FileUse where
  file : OpenFile
  handle : Nat → Nat

namespace FileUse

variable {u : FileUse} {serial : Nat} {serials gone : List Nat}

/-- A file that only its owner has open. -/
def ofFile (file : File) : FileUse := ⟨.ofFile file, fun _ => 0⟩

/-- Opens the file. The opening gets the number `serial`. -/
def reopen (u : FileUse) (serial : Nat) : Except FileError FileUse := do
  let (handle, file) ← u.file.reopen
  return ⟨file, Function.update u.handle serial handle⟩

/-- Closes the handle behind the opening with number `serial`. -/
def close (u : FileUse) (serial : Nat) : FileUse :=
  { u with file := u.file.close (u.handle serial) }

/-- Closes the handles behind several openings. -/
def closeAll (u : FileUse) (gone : List Nat) : FileUse := gone.foldl close u

/-- Besides the handle of the owner, the handles to the file are those behind the openings with
numbers in `serials`. -/
structure Holds (u : FileUse) (serials : List Nat) : Prop where
  perm : u.file.reopened.Perm (serials.map u.handle)
  nodup : u.file.reopened.Nodup
  lt_next : ∀ handle ∈ u.file.reopened, handle < u.file.next

theorem Holds.ofFile (file : File) : (FileUse.ofFile file).Holds [] :=
  ⟨.nil, List.nodup_nil, fun _ h => absurd h List.not_mem_nil⟩

theorem Holds.of_perm (h : u.Holds serials) (hperm : serials.Perm gone) : u.Holds gone :=
  ⟨h.perm.trans (hperm.map _), h.nodup, h.lt_next⟩

/-- The file counts the owner's handle and one for each opening. -/
theorem Holds.openHandles_eq (h : u.Holds serials) : u.file.openHandles = 1 + serials.length := by
  rw [OpenFile.openHandles, h.perm.length_eq, List.length_map]

/-- A file that can be opened again gets a new handle, for an opening with a new number. -/
theorem Holds.reopen (h : u.Holds serials) (hfile : u.file.file.reopens = true)
    (hnew : serial ∉ serials) :
    ∃ u', u.reopen serial = .ok u' ∧ u'.file.file = u.file.file ∧ u'.Holds (serial :: serials) := by
  refine ⟨⟨{ u.file with reopened := u.file.reopened ++ [u.file.next], next := u.file.next + 1 },
    Function.update u.handle serial u.file.next⟩, ?_, rfl, ?_, ?_, ?_⟩
  · rw [FileUse.reopen, OpenFile.reopen, if_pos hfile]
    rfl
  · have hold : serials.map (Function.update u.handle serial u.file.next)
        = serials.map u.handle := by
      refine List.map_congr_left fun s hs => Function.update_of_ne ?_ _ _
      rintro rfl
      exact hnew hs
    show (u.file.reopened ++ [u.file.next]).Perm
      ((serial :: serials).map (Function.update u.handle serial u.file.next))
    rw [List.map_cons, Function.update_self, hold]
    exact (List.perm_append_singleton _ _).trans (h.perm.cons _)
  · refine h.nodup.append (List.nodup_singleton _) fun handle hin hself => ?_
    rw [List.mem_singleton] at hself
    exact absurd (h.lt_next handle hin) (by omega)
  · intro handle hin
    rcases List.mem_append.1 hin with hin | hin
    · exact Nat.lt_succ_of_lt (h.lt_next handle hin)
    · rw [List.mem_singleton.1 hin]
      exact Nat.lt_succ_self _

/-- The handle behind an opening is closed, and it is no other's. -/
theorem Holds.close (h : u.Holds (serial :: serials)) : (u.close serial).Holds serials := by
  have hnodup : (u.handle serial :: serials.map u.handle).Nodup := h.perm.nodup h.nodup
  obtain ⟨hnotin, -⟩ := List.nodup_cons.1 hnodup
  refine ⟨?_, h.nodup.filter _, fun handle hin => h.lt_next handle (List.mem_of_mem_filter hin)⟩
  have hothers : (serials.map u.handle).filter (· ≠ u.handle serial) = serials.map u.handle := by
    refine List.filter_eq_self.2 fun handle hin => decide_eq_true ?_
    rintro rfl
    exact hnotin hin
  have hperm := h.perm.filter (· ≠ u.handle serial)
  rw [List.map_cons, List.filter_cons_of_neg (by simp), hothers] at hperm
  exact hperm

theorem Holds.closeAll (h : u.Holds (gone ++ serials)) : (u.closeAll gone).Holds serials := by
  induction gone generalizing u with
  | nil => exact h
  | cons serial gone ih => exact ih h.close

theorem file_closeAll (u : FileUse) (gone : List Nat) :
    (u.closeAll gone).file.file = u.file.file := by
  induction gone generalizing u with
  | nil => rfl
  | cons serial gone ih => exact ih (u.close serial)

end FileUse

/-! ### What requests come to -/

/-- Whether a request opens file `id`, by its answer. A request to map the file has opened it when
it looks for pages that are in use. -/
def Op.reopens (id : Nat) : Op → Answer → Bool
  | .mapFile _ file _, .mapped result => (result matches .ok _ | .error .overlap) && file.id == id
  | _, _ => false

/-- Whether the handle that a request is given to map file `id` is a handle to `file`. -/
def Op.mapsOnly (id : Nat) (file : File) : Op → Prop
  | .mapFile _ handle _ => handle.id = id → handle.file = file
  | _ => True

namespace Op

variable {op : Op} {answer : Answer} {id : Nat}

/-- A handle that stays open is one for a mapping that was made. -/
theorem eq_of_opens (h : op.opens id answer = 1) : ∃ pid handle addr k,
    op = .mapFile pid handle addr ∧ answer = .mapped (.ok k) ∧ handle.id = id := by
  unfold opens at h
  split at h
  · split at h
    · exact ⟨_, _, _, _, rfl, rfl, ‹_›⟩
    · cases h
  · cases h

theorem id_eq_of_reopens {pid addr : Nat} {handle : Handle}
    (h : (mapFile pid handle addr).reopens id answer = true) : handle.id = id := by
  cases answer with
  | mapped result => exact eq_of_beq (Bool.and_eq_true_iff.1 h).2
  | _ => cases h

theorem unmaps_of_reopens (h : op.reopens id answer = true) (o : Nat × Nat) :
    op.unmaps o = false := by
  cases op with
  | mapFile => rfl
  | _ => cases h

end Op

namespace Pager

/-- The numbers of the openings of file `id` whose mappings a request is meant to remove. -/
def leaving (p : Pager) (op : Op) (id : Nat) : List Nat :=
  (p.allMappings.filter fun x => op.unmaps x.1 && x.2.file.id == id).map fun x => x.2.file.serial

variable {p p' : Pager} {op : Op} {answer : Answer}

theorem leaving_of_unmaps (h : ∀ o, op.unmaps o = false) (p : Pager) (id : Nat) :
    p.leaving op id = [] := by
  simp [leaving, h]

/-- The openings that go and those that are left are all there were, and the new one. -/
theorem Remaps.serialsOf (h : p.Remaps op answer p') (id : Nat) :
    (p.leaving op id ++ p'.serialsOf id).Perm
      (if op.opens id answer = 1 then p.nextSerial :: p.serialsOf id else p.serialsOf id) := by
  have hserials {l l' : List ((Nat × Nat) × Mapping)} (hperm : l.Perm l') :=
    (hperm.filter fun x => x.2.file.id == id).map fun x => x.2.file.serial
  cases h with
  | removes _ hopens hmapping =>
    have hleft := hserials (allMappings_of_removes hmapping)
    rw [if_neg (by simp [hopens]), leaving, ← List.filter_filter]
    refine (hleft.append_left _).trans ?_
    rw [List.filter_comm, ← List.map_append, ← List.filter_append]
    exact hserials (List.filter_append_perm _ _)
  | @adds _ m _ hserial hopens hunmaps hnone hmapping =>
    have hall := hserials (allMappings_of_adds hnone hmapping)
    rw [leaving_of_unmaps hunmaps, List.nil_append, hopens]
    refine hall.trans (.of_eq ?_)
    by_cases hid : m.file.id = id <;> simp [hid, hserial, Pager.serialsOf]

end Pager

namespace FileUse

variable {u : FileUse} {id : Nat} {op : Op} {answer : Answer} {p p' : Pager}

/-- What a request comes to for file `id`, where `p` is the pager before it: the file is opened, or
the handles behind the mappings that are removed are closed. -/
def perform (u : FileUse) (id : Nat) (p : Pager) (op : Op) (answer : Answer) :
    Except FileError FileUse := do
  if op.reopens id answer then
    let u ← u.reopen p.nextSerial
    -- without a mapping nothing refers to the new handle
    return if op.opens id answer = 1 then u else u.close p.nextSerial
  else return u.closeAll (p.leaving op id)

/-- Every request opens and closes the file as it makes and removes mappings of it. -/
theorem Holds.perform (h : u.Holds (p.serialsOf id)) (hnew : p.nextSerial ∉ p.serialsOf id)
    (hremaps : p.Remaps op answer p')
    (hfile : op.reopens id answer = true → u.file.file.reopens = true) :
    ∃ u', u.perform id p op answer = .ok u' ∧ u'.file.file = u.file.file ∧
      u'.Holds (p'.serialsOf id) := by
  have hserials := hremaps.serialsOf id
  cases hop : op.reopens id answer with
  | true =>
    obtain ⟨u₁, hopen, hsame, hholds⟩ := h.reopen (hfile hop) hnew
    rw [Pager.leaving_of_unmaps (Op.unmaps_of_reopens hop), List.nil_append] at hserials
    have hperform : u.perform id p op answer
        = .ok (if op.opens id answer = 1 then u₁ else u₁.close p.nextSerial) := by
      rw [FileUse.perform, if_pos hop, hopen]
      rfl
    rw [hperform]
    split at hserials
    · rename_i hopens
      exact ⟨u₁, by rw [if_pos hopens], hsame, hholds.of_perm hserials.symm⟩
    · rename_i hopens
      exact ⟨u₁.close p.nextSerial, by rw [if_neg hopens], hsame,
        hholds.close.of_perm hserials.symm⟩
  | false =>
    have hopens : op.opens id answer ≠ 1 := by
      intro hopens
      obtain ⟨_, _, _, _, rfl, rfl, hid⟩ := Op.eq_of_opens hopens
      simp [Op.reopens, hid] at hop
    rw [if_neg hopens] at hserials
    refine ⟨u.closeAll (p.leaving op id), ?_, file_closeAll u _, (h.of_perm hserials.symm).closeAll⟩
    rw [FileUse.perform, hop]
    rfl

end FileUse

/-! ### Runs -/

/-- Carries out the requests in turn, and opens and closes file `id` beside them. -/
def Pager.runBeside (id : Nat) : List Op → FileUse → PagerM (Except FileError FileUse)
  | [], u => return .ok u
  | op :: rest, u => do
    let p ← PagerM.pager
    let answer ← perform op
    match u.perform id p op answer with
    | .error e => return .error e
    | .ok u => runBeside id rest u

namespace PagerM

variable {id : Nat} {file : File} {t t' : Traced} {u : FileUse}

/-- A file is opened only if it can be. -/
theorem ensures_mapFile_reopens (id pid : Nat) (handle : Handle) (addr : Nat) (t : Traced) :
    Ensures (Pager.mapFile pid handle addr) (fun r _ =>
      (Op.mapFile pid handle addr).reopens id (.mapped r) = true →
        handle.file.reopens = true) t := by
  rw [Pager.mapFile]
  simp only [ensures_bind, ensures_ite, ensures_pure, ensures_pager]
  have hrefused (h : false = true) : handle.file.reopens = true := absurd h Bool.false_ne_true
  refine ⟨fun _ => hrefused, fun _ => ⟨fun _ => hrefused, fun _ => ⟨fun _ => hrefused, ?_⟩⟩⟩
  refine fun _ => ⟨fun _ => ⟨fun hreopens => ?_, fun _ => hrefused⟩, fun _ => hrefused⟩
  exact ensures_process.2 fun _ _ _ _ _ _ _ _ _ => hreopens

theorem ensures_perform_reopens {op : Op} (hop : op.mapsOnly id file) (t : Traced) :
    Ensures (Pager.perform op)
      (fun answer _ => op.reopens id answer = true → file.reopens = true) t := by
  cases op with
  | mapFile pid handle addr =>
    simp only [Pager.perform, ensures_bind, ensures_pure]
    refine (ensures_mapFile_reopens id pid handle addr t).mono fun r _ hreopens hopened => ?_
    rw [← hop (Op.id_eq_of_reopens hopened)]
    exact hreopens hopened
  | _ => exact fun _ _ _ hopened => absurd hopened Bool.false_ne_true

/-- A run can be made with the file beside it, and the file is opened and closed as it should be. -/
theorem exists_runBeside {outside : List Nat} {ops : List Op} {answers : List Answer}
    (hops : ∀ op ∈ ops, op.sharesOnly outside id = true)
    (hmaps : ∀ op ∈ ops, op.mapsOnly id file) (ht : t.pager.All Process.Coherent)
    (hp : t.pager.HoldsHandles outside id) (hfile : u.file.file = file)
    (hu : u.Holds (t.pager.serialsOf id)) (hrun : (Pager.run ops).run t = .ok answers t') :
    ∃ u', (Pager.runBeside id ops u).run t = .ok (.ok u') t' ∧
      u'.Holds (t'.pager.serialsOf id) := by
  induction ops generalizing t u answers with
  | nil =>
    cases hrun
    exact ⟨u, rfl, hu⟩
  | cons op rest ih =>
    obtain ⟨answer, t₁, hperform, hrest⟩ := run_bind_eq_ok.1 hrun
    obtain ⟨_, t₂, hrest, hanswers⟩ := run_bind_eq_ok.1 hrest
    cases hanswers
    have hop := hops op List.mem_cons_self
    have hnew : t.pager.nextSerial ∉ t.pager.serialsOf id := by
      intro hin
      obtain ⟨o, m, hm, -, hserial⟩ := Pager.mem_serialsOf.1 hin
      exact Nat.ne_of_lt (hp.serial_lt o m hm).2 hserial
    obtain ⟨u₁, hu₁, hsame, hholds⟩ := hu.perform hnew (ensures_perform_remaps op ht _ _ hperform)
      fun hopened => by
        rw [hfile]
        exact ensures_perform_reopens (hmaps op List.mem_cons_self) t _ _ hperform hopened
    obtain ⟨u', hbeside, hu'⟩ := ih (fun op' hop' => hops op' (List.mem_cons_of_mem op hop'))
      (fun op' hop' => hmaps op' (List.mem_cons_of_mem op hop'))
      (coherent_perform op ht _ _ hperform) (holdsHandles_perform hop ht hp _ _ hperform)
      (hsame.trans hfile) hholds hrest
    rw [Pager.runBeside]
    refine ⟨u', run_bind_eq_ok.2 ⟨_, t, rfl, run_bind_eq_ok.2 ⟨answer, t₁, hperform, ?_⟩⟩, hu'⟩
    rw [hu₁]
    exact hbeside

end PagerM

namespace Pager

variable {config : Config} {device : Block} {ops : List Op} {answers : List Answer} {t : Traced}
  {id : Nat} {file : File}

/-- After every run that does not panic, the handles to a file besides the owner's are those of its
live mappings, and the file has counted as many as the pager finds. -/
theorem openHandles_of_run (hops : ∀ op ∈ ops, op.sharesOnly [0] id = true)
    (hmaps : ∀ op ∈ ops, op.mapsOnly id file)
    (h : (run ops).run (.start config device) = .ok answers t) :
    ∃ u, (runBeside id ops (.ofFile file)).run (.start config device) = .ok (.ok u) t ∧
      u.Holds (t.pager.serialsOf id) ∧ u.file.openHandles = t.pager.openHandles id := by
  have hcoherent := (inOrder_ofConfig config device).coherent
  have hnone : (FileUse.ofFile file).Holds ((ofConfig config device).serialsOf id) := by
    have hserials : (ofConfig config device).serialsOf id = [] := by
      simp [serialsOf, allMappings, ofConfig]
    rw [hserials]
    exact .ofFile file
  obtain ⟨u, hbeside, hu⟩ := PagerM.exists_runBeside hops hmaps hcoherent (.ofConfig config device)
    rfl hnone h
  have hholds : t.pager.HoldsHandles [0] id :=
    PagerM.holdsHandles_run hops hcoherent (.ofConfig config device) answers t h
  refine ⟨u, hbeside, hu, ?_⟩
  rw [hu.openHandles_eq, length_serialsOf, openHandles_eq,
    hholds.openHandlesBeside_eq (inOrder_of_run h).coherent (List.nodup_singleton 0) (by simp),
    List.length_singleton]

end Pager

end DemandPaging
