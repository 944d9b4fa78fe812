import DemandPaging.Proofs.Declarations

/-!
# The pages of mappings

A page of a mapping is known by its source, which names the mapping, its opening of the file and
the place in the file. Whether such a page is in a frame, in swap or has never been touched is no
matter of the mapping. So the part of a process that concerns mappings is its table of mappings and,
for every page address, what the source there says of a mapping. This is its *catalogue*.

Only four requests touch the catalogue of a process: those that register and destroy processes and
those that map and unmap files. Faults, pins, copies and declarations of other pages move pages
about and add pages that belong to no mapping, and none of that shows in the catalogue.

## Main definitions

* `PageSource.mapped?`, `PageMap.mapped?` — the mapping that a page says it belongs to.
* `Process.catalogue`, `Pager.catalogue` — what a process and what the pager know of mappings.

## Main results

* `PagerM.ensures_perform_catalogue` — every other request leaves the catalogue as it is.
-/

namespace DemandPaging

/-- The mapping that a page with this source says it belongs to, with the opening of the file and
the place in it. -/
def PageSource.mapped? : PageSource → Option (Nat × Handle × Nat)
  | .mapped id file offset => some (id, file, offset)
  | _ => none

namespace PageMap

variable {m : PageMap} {addr : Nat} {e : PageEntry}

/-- The mapping that the page at `page` says it belongs to. -/
def mapped? (m : PageMap) (page : Nat) : Option (Nat × Handle × Nat) :=
  m.entries[page]?.bind fun e => e.source.mapped?

theorem mapped?_eq_some {page id offset : Nat} {file : Handle} :
    m.mapped? page = some (id, file, offset) ↔
      ∃ e, m.entries[page]? = some e ∧ e.source = .mapped id file offset := by
  rw [mapped?, Option.bind_eq_some_iff]
  refine exists_congr fun e => and_congr_right fun _ => ?_
  cases e.source <;> simp [PageSource.mapped?]

end PageMap

/-- The mappings of a process and its pages that say they belong to one. -/
def Process.catalogue (pr : Process) : MappingTable × (Nat → Option (Nat × Handle × Nat)) :=
  (pr.mappings, pr.pages.mapped?)

namespace Pager

variable {p p' : Pager} {fresh : FrameOwner → PageSource × Bool → Prop} {pid : Nat} {pr : Process}

/-- What the pager knows of the mappings of each process. -/
def catalogue (p : Pager) (pid : Nat) :
    Option (MappingTable × (Nat → Option (Nat × Handle × Nat))) :=
  p.processes[pid]?.map Process.catalogue

/-- What a page says of a mapping is part of its declaration. -/
theorem mapped?_eq_declarations (h : p.processes[pid]? = some pr) (page : Nat) :
    pr.pages.mapped? page = (p.declarations ⟨pid, page⟩).bind fun d => d.1.mapped? := by
  rw [declarations, declared_of_getElem? h, PageMap.mapped?, Option.bind_map]
  rfl

/-- Pages that belong to no mapping are not noticed when they are declared. -/
theorem Extends.catalogue_eq (h : p.Extends fresh p')
    (hfresh : ∀ o d, fresh o d → d.1.mapped? = none) : p'.catalogue = p.catalogue := by
  funext pid
  have hmappings := h.mappings_eq pid
  rw [catalogue, catalogue]
  cases hpr : p.processes[pid]? with
  | none =>
    rw [hpr, Option.map_none, Option.map_eq_none_iff] at hmappings
    rw [hmappings]
  | some pr =>
    rw [hpr, Option.map_some, Option.map_eq_some_iff] at hmappings
    obtain ⟨pr', hpr', hmappings⟩ := hmappings
    have hpages : pr'.pages.mapped? = pr.pages.mapped? := by
      funext page
      rw [mapped?_eq_declarations hpr', mapped?_eq_declarations hpr]
      cases hd : p.declarations ⟨pid, page⟩ with
      | some d => rw [h.kept _ d hd]
      | none =>
        cases hd' : p'.declarations ⟨pid, page⟩ with
        | none => rfl
        | some d' => exact hfresh _ d' (h.allowed _ d' hd hd')
    rw [hpr', Option.map_some, Option.map_some, Process.catalogue, Process.catalogue, hmappings,
      hpages]

end Pager

namespace PagerM

/-- A request that is none of the four leaves what is known of mappings as it is. -/
theorem ensures_perform_catalogue {op : Op} (hop : op.remaps = false) (t : Traced) :
    Ensures (Pager.perform op) (fun _ t' => t'.pager.catalogue = t.pager.catalogue) t := by
  refine (ensures_perform_extends hop t).mono fun _ t' hext => hext.catalogue_eq fun o d hadds => ?_
  rcases hadds.declares with hzero | ⟨file, offset, read, -, himage⟩
  · rw [hzero]
    rfl
  · rw [himage]
    rfl

end PagerM

end DemandPaging
