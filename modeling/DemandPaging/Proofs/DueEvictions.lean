import DemandPaging.Proofs.Capacity
import DemandPaging.Proofs.Stamps

/-!
# Only a page that is due is evicted

A fault takes a page out of its frame only where no frame is free, and then it is the page that is
due: the one in the first frame in the order that has no pins. It goes to swap, and the log says
so. The page that gets the frame goes to the end of the order.

Before the eviction the fault may declare a stack page, but it does nothing to the frames. So the
page was due already where the fault started, and that is how the log is read: each eviction in it
is the work of a fault, and was due where that fault started. This holds also of the log of a fault
that panics.

## Main definitions

* `Pager.Displaces` — the page that is due leaves its frame, and no other.
* `TellsEviction` — the log reports that a page was evicted.
* `Recounts` — a property of each eviction in a log.
* `Traced.Restamps` — the pages that get frames have new stamps, and no others.
* `EvictedAt`, `Traced.Fair` — an eviction by a fault that starts at a moment of a given kind, and a
  log that has no others.
* `PagerM.EvictsInTurn` — an action that keeps up the order of the pages and evicts only such that
  are due.

## Main results

* `Pager.FaultsIn.displaces`, `PagerM.meets_faultIn_of_due` — which page leaves its frame.
* `PagerM.meets_faultIn_due` — a fault keeps up the order and the stamps, and it reports what it
  evicts.
* `PagerM.evictsInTurn_faultIn` — every eviction in the log of a fault was due.
-/

namespace DemandPaging

variable {D D' : List PagerEvent → FrameOwner → Nat → Nat → Prop} {M : Traced → Prop}
  {t t₁ t' : Traced} {o : FrameOwner} {f : Nat}

/-! ### The page that leaves its frame -/

namespace FramePool

variable {p q : FramePool}

theorem queue_of_tryAllocate (h : p.tryAllocate o = .ok (some f, q)) :
    q.order.queue = p.order.queue ++ [f] := by
  rcases tryAllocate_eq_ok h with ⟨hnone, -⟩ | ⟨_, _, hsome, -, -, rfl⟩
  · cases hnone
  · rw [Option.some.inj hsome]

theorem queue_of_reassign (h : p.reassign f o = .ok q) :
    q.order.queue = p.order.queue ++ [f] := by
  simp [reassign, Fifo.assign] at h
  obtain ⟨_, -, -, -, _, ⟨-, rfl⟩, rfl⟩ := h
  rfl

/-- At most one page is due. -/
theorem Due.unique {v w : FrameOwner} {g : Nat} (h : p.Due v f) (h' : p.Due w g) :
    v = w ∧ f = g := by
  obtain ⟨q, hq⟩ := h.victim
  obtain ⟨q', hq'⟩ := h'.victim
  obtain rfl : f = g := by
    rw [hq] at hq'
    exact Option.some.inj (Prod.mk.inj hq').1
  exact ⟨Option.some.inj (h.owner.symm.trans h'.owner), rfl⟩

end FramePool

namespace Pager

variable {p p₁ p' : Pager} {config : Config} {slots pid page addr esp g : Nat} {v : FrameOwner}

/-- A page in a frame stays there unless it is due, and then it goes to swap. -/
structure Displaces (p : Pager) (v : FrameOwner) (f : Nat) (p' : Pager) : Prop where
  stays : ¬ p.frames.Due v f → p'.residency v = some (.resident f)
  goes : p.frames.Due v f → ∃ slot, p'.residency v = some (.swapped slot)

theorem Displaces.congr (h : p.Displaces v g p₁) (hsame : p'.residency v = p₁.residency v) :
    p.Displaces v g p' :=
  ⟨fun hdue => hsame.trans (h.stays hdue), fun hdue => hsame ▸ h.goes hdue⟩

theorem Acquires.displaces (h : p.Acquires o f p₁) (ho : Owned config slots p)
    (hv : p.residency v = some (.resident g)) : p.Displaces v g p₁ := by
  have hcons := ho.frames.consistent
  cases h with
  | free found =>
    refine ⟨fun _ => hv, fun hdue => ?_⟩
    rcases hcons.tryAllocate_cases o with ⟨hlt, -⟩ | ⟨-, hnone⟩
    · exact absurd hdue.full (Nat.ne_of_lt hlt)
    · rw [found] at hnone
      cases hnone
  | @evicting full withdrawn frames w pr e space slot taken swap contents none_free victim owner
      process entry resident unmapped slot_free held stored reassigned =>
    obtain rfl := pages_of_tryAllocate_none none_free
    obtain ⟨hw, hres, hfloor⟩ := ho.declared_of_victim victim owner process entry
    have hw' : p.residency w = some (.resident f) := by
      rw [residency_of_declared hw, hres]
    have hdue : p.frames.Due w f := by
      refine ⟨?_, (ho.frames.owners f w).2 hw', withdrawn, victim⟩
      rcases hcons.tryAllocate_cases o with ⟨-, _, _, hsome⟩ | ⟨hfull, -⟩
      · rw [none_free] at hsome
        cases hsome
      · exact hfull
    by_cases hvw : v = w
    · subst hvw
      obtain rfl : f = g := by
        rw [hw'] at hv
        exact Residency.resident.inj (Option.some.inj hv)
      refine ⟨fun hnot => absurd hdue hnot, fun _ => ⟨slot, ?_⟩⟩
      rw [residency_of_pages_set process rfl rfl hfloor, Function.update_self]
    · refine ⟨fun _ => ?_, fun hdue' => absurd (hdue'.unique hdue).1 hvw⟩
      rw [residency_of_pages_set process rfl rfl hfloor, Function.update_of_ne hvw]
      exact hv

/-- A page that is loaded takes the page that is due out of its frame, and no other. -/
theorem Loads.displaces {result : Except FaultError Nat} (h : p.Loads pid page result p')
    (ho : Owned config slots p) (hmissing : p.Missing ⟨pid, page⟩)
    (hv : p.residency v = some (.resident g)) : p.Displaces v g p' := by
  have hfloor : pageFloor page = page := pageFloor_of_pageOffset hmissing.1
  have hne : v ≠ ⟨pid, page⟩ := by
    rintro rfl
    exact hmissing.residency_ne g hv
  cases h with
  | unreadable acquired => exact (acquired.displaces ho hv).congr rfl
  | refused acquired process =>
    refine (acquired.displaces ho hv).congr (congrFun (residency_congr ?_) v)
    exact declared_of_pages_eq process rfl rfl
  | loaded acquired process =>
    refine (acquired.displaces ho hv).congr ?_
    rw [residency_of_pages_set process rfl rfl hfloor, Function.update_of_ne hne]

theorem Finds.residency_eq {found : Option PageEntry} (h : p.Finds pid addr esp found p')
    (hv : p.residency v = some (.resident g)) : p'.residency v = some (.resident g) := by
  cases h with
  | grown process undeclared =>
    have hne : v ≠ ⟨pid, pageFloor addr⟩ := by
      rintro rfl
      obtain ⟨e, he, -⟩ := residency_eq_some.1 hv
      rw [declared_of_getElem? process, ← PageMap.lookup, undeclared] at he
      cases he
    rw [residency, declared_of_pages_set process rfl rfl, Function.update_of_ne hne]
    exact hv
  | _ => exact hv

/-- A fault loads no page, or it takes the page that is due out of its frame. -/
theorem FaultsIn.displaces {forWrite : Bool} {result : Except FaultError Nat}
    (h : p.FaultsIn pid addr esp forWrite result p') (ho : Owned config slots p)
    (hv : p.residency v = some (.resident g)) :
    p'.residency v = some (.resident g) ∨ p.Displaces v g p' := by
  cases h with
  | kernel => exact .inl hv
  | absent _ finds | readOnly _ finds | resident _ finds => exact .inl (finds.residency_eq hv)
  | load _ finds _ frame loads =>
    have hmissing : Missing _ ⟨pid, pageFloor addr⟩ :=
      ⟨pageOffset_pageFloor addr, _, finds.declared_eq, frame⟩
    have hloads := loads.displaces (finds.steps.owned ho) hmissing (finds.residency_eq hv)
    refine .inr ⟨?_, ?_⟩
    · rw [← finds.frames_eq]
      exact hloads.stays
    · rw [← finds.frames_eq]
      exact hloads.goes

/-- A fault on a page that awaits a frame takes the page that is due out of its frame. -/
theorem FaultsIn.exists_swapped {result : Except FaultError Nat}
    (h : p.FaultsIn pid addr esp false result p') (ho : Owned config slots p) (hp : p.Equipped)
    (hbase : pageOffset p.config.physBase = 0) (hawaits : p.Awaits pid addr esp)
    (hdue : p.frames.Due v g) : ∃ slot, p'.residency v = some (.swapped slot) := by
  obtain ⟨e, q, finds, frame, loads⟩ := h.loads_of_awaits hp hbase hawaits
  have hmissing : q.Missing ⟨pid, pageFloor addr⟩ :=
    ⟨pageOffset_pageFloor addr, e, finds.declared_eq, frame⟩
  have hv := finds.residency_eq ((ho.frames.owners g v).1 hdue.owner)
  exact (loads.displaces (finds.steps.owned ho) hmissing hv).goes (finds.frames_eq.symm ▸ hdue)

end Pager

/-! ### Evictions that were due -/

/-- `D` holds of each eviction in the log: of what was reported before, the page, its frame and its
slot. -/
def Recounts (D : List PagerEvent → FrameOwner → Nat → Nat → Prop) (log : List PagerEvent) : Prop :=
  ∀ past pid page f slot rest, log = past ++ .evicted pid page f slot :: rest →
    D past ⟨pid, page⟩ f slot

section Recounts

variable {log log' : List PagerEvent} {e : PagerEvent}

theorem recounts_nil : Recounts D [] := by
  intro past pid page f slot rest hlog
  cases past <;> cases hlog

theorem recounts_concat : Recounts D (log ++ [e]) ↔ Recounts D log ∧
    ∀ pid page f slot, e = .evicted pid page f slot → D log ⟨pid, page⟩ f slot := by
  constructor
  · intro h
    refine ⟨fun past pid page f slot rest hlog => h past pid page f slot (rest ++ [e]) ?_, ?_⟩
    · rw [hlog, List.append_assoc, List.cons_append]
    · rintro pid page f slot rfl
      exact h log pid page f slot [] rfl
  · rintro ⟨h, hlast⟩ past pid page f slot rest hlog
    rcases List.eq_nil_or_concat rest with rfl | ⟨rest', e', rfl⟩
    · obtain ⟨rfl, he⟩ := List.append_inj' hlog rfl
      exact hlast pid page f slot (List.singleton_inj.1 he)
    · rw [List.concat_eq_append, ← List.cons_append, ← List.append_assoc] at hlog
      exact h past pid page f slot rest' (List.append_inj_left' hlog rfl)

namespace Recounts

theorem mono (h : Recounts D log) (hD : ∀ past o f slot, D past o f slot → D' past o f slot) :
    Recounts D' log := fun past pid page f slot rest hlog =>
  hD past ⟨pid, page⟩ f slot (h past pid page f slot rest hlog)

theorem concat (h : Recounts D log) (he : e.isEvicted = false) : Recounts D (log ++ [e]) := by
  refine recounts_concat.2 ⟨h, ?_⟩
  rintro pid page f slot rfl
  cases he

theorem evicted {slot : Nat} (h : Recounts D log) (hdue : D log o f slot) :
    Recounts D (log ++ [.evicted o.pid o.page f slot]) := by
  refine recounts_concat.2 ⟨h, ?_⟩
  rintro _ _ _ _ ⟨⟩
  exact hdue

theorem quiet (h : Recounts D log) (hquiet : QuietSince log log') : Recounts D log' := by
  obtain ⟨events, rfl, hevents⟩ := hquiet
  induction events generalizing log with
  | nil => rwa [List.append_nil]
  | cons e rest ih =>
    have hnext := ih (h.concat (PagerEvent.isEvicted_of_isQuiet (hevents e List.mem_cons_self)))
      fun e' he' => hevents e' (List.mem_cons_of_mem e he')
    rwa [List.append_assoc, List.singleton_append] at hnext

end Recounts

end Recounts

/-- `D` holds of an eviction that is due at `t` and comes next. -/
def Traced.Admits (t : Traced) (D : List PagerEvent → FrameOwner → Nat → Nat → Prop) : Prop :=
  ∀ past o f slot, QuietSince t.log.toList past → t.Picks o f → D past o f slot

theorem Traced.Admits.idles (h : t.Admits D) (hidle : t.Idles t') : t'.Admits D :=
  fun past o f slot hquiet hpicks => h past o f slot (hidle.log.trans hquiet) (hidle.picks hpicks)

/-! ### Loads -/

/-- Between `log` and `log'` it is reported that page `o` was evicted from frame `f`. -/
def TellsEviction (log : List PagerEvent) (o : FrameOwner) (f : Nat) (log' : List PagerEvent) :
    Prop :=
  ∃ slot events, log' = log ++ events ∧ .evicted o.pid o.page f slot ∈ events

/-- What is reported later is reported since then. -/
theorem TellsEviction.since {log log₁ log' : List PagerEvent} (h : TellsEviction log₁ o f log')
    (hle : log <+: log₁) : TellsEviction log o f log' := by
  obtain ⟨slot, events, rfl, hmem⟩ := h
  obtain ⟨before, rfl⟩ := hle
  exact ⟨slot, before ++ events, List.append_assoc .., List.mem_append_right _ hmem⟩

/-- What was reported stays in the log. -/
theorem TellsEviction.mono {log log₁ log' : List PagerEvent} (h : TellsEviction log o f log₁)
    (hle : log₁ <+: log') : TellsEviction log o f log' := by
  obtain ⟨slot, events, rfl, hmem⟩ := h
  obtain ⟨rest, rfl⟩ := hle
  exact ⟨slot, events ++ rest, List.append_assoc .., List.mem_append_left _ hmem⟩

namespace Traced

/-- From `t` to `t'` frame `f` goes to the end of the order and belongs to page `o`, whose load has
not been reported yet. -/
structure HandsOver (t : Traced) (o : FrameOwner) (f : Nat) (t' : Traced) : Prop where
  queue : t'.pager.frames.order.queue = t.pager.frames.order.queue.erase f ++ [f]
  owners : t'.pager.frames.ownerOf = Function.update t.pager.frames.ownerOf f (some o)
  log : ∃ events, t'.log.toList = t.log.toList ++ events ∧ ∀ e ∈ events, e.assigns = none
  told : ∀ v g, t.pager.frames.Due v g → TellsEviction t.log.toList v g t'.log.toList

/-- From `t` to `t'` page `o` is reported to have got a frame. -/
structure Reports (t : Traced) (o : FrameOwner) (t' : Traced) : Prop where
  frames : t'.pager.frames = t.pager.frames
  log : ∃ e, e.assigns = some o ∧ QuietSince (t.log.toList ++ [e]) t'.log.toList

theorem Reports.grows (h : t.Reports o t') : t.log.toList <+: t'.log.toList := by
  obtain ⟨e, -, hquiet⟩ := h.log
  exact (List.prefix_append _ _).trans hquiet.grows

/-- Only the page that is reported gets a new stamp, which is later than all others. -/
theorem HandsOver.stamp_eq (hands : t.HandsOver o f t₁) (hreports : t₁.Reports o t')
    (o' : FrameOwner) : stamp t'.log.toList o'
      = if o' = o then t₁.log.toList.length + 1 else stamp t.log.toList o' := by
  obtain ⟨events, hlog₁, hevents⟩ := hands.log
  obtain ⟨e, he, hquiet⟩ := hreports.log
  rw [hquiet.stamp_eq, stamp_concat, he, hlog₁,
    stamp_append_of_not_assigns fun e' he' => by simp [hevents e' he']]
  simp [eq_comm]

theorem HandsOver.size_lt_stamp (hands : t.HandsOver o f t₁) (hreports : t₁.Reports o t') :
    t.log.size < stamp t'.log.toList o := by
  obtain ⟨events, hlog₁, -⟩ := hands.log
  rw [hands.stamp_eq hreports, if_pos rfl, hlog₁, List.length_append, Array.length_toList]
  omega

/-- The order is kept by a page that gets a frame and is reported. -/
theorem InTurn.handsOver (h : t.InTurn) (hcons : t.pager.frames.Consistent [])
    (hnew : ∀ g, t.pager.frames.ownerOf g ≠ some o) (hands : t.HandsOver o f t₁)
    (hreports : t₁.Reports o t') : t'.InTurn := by
  have hnodup : t.pager.frames.order.queue.Nodup := by
    simpa using hcons.nodup
  refine h.assign (f := f) hnodup ?_ ?_ hnew (hands.size_lt_stamp hreports) fun o' ho' => ?_
  · rw [hreports.frames, hands.queue]
  · rw [hreports.frames, hands.owners]
  · rw [hands.stamp_eq hreports, if_neg ho']

/-- From `t` to `t'` a page in a frame has kept it and its stamp, or it was in none and its stamp is
new. -/
def Restamps (t t' : Traced) : Prop :=
  ∀ f ∈ t'.pager.frames.order.queue, ∀ o, t'.pager.frames.ownerOf f = some o →
    (t.pager.frames.ownerOf f = some o ∧ stamp t'.log.toList o = stamp t.log.toList o) ∨
      ((∀ g, t.pager.frames.ownerOf g ≠ some o) ∧ t.log.size < stamp t'.log.toList o)

theorem HandsOver.restamps (hands : t.HandsOver o f t₁) (hreports : t₁.Reports o t')
    (hnew : ∀ g, t.pager.frames.ownerOf g ≠ some o) : t.Restamps t' := by
  intro g _ v hv
  rw [hreports.frames, hands.owners] at hv
  by_cases hgf : g = f
  · rw [hgf, Function.update_self] at hv
    obtain rfl := Option.some.inj hv
    exact .inr ⟨hnew, hands.size_lt_stamp hreports⟩
  · rw [Function.update_of_ne hgf] at hv
    have hvo : v ≠ o := by
      rintro rfl
      exact hnew g hv
    exact .inl ⟨hv, by rw [hands.stamp_eq hreports, if_neg hvo]⟩

theorem Restamps.thins (h : t.Restamps t₁) (h' : t₁.Thins t') : t.Restamps t' := by
  intro f hf o ho
  rw [h'.owners f hf] at ho
  rw [h'.log.stamp_eq]
  exact h f (h'.queue.subset hf) o ho

theorem Thins.restamps (h : t.Thins t') : t.Restamps t' :=
  Restamps.thins (fun _ _ _ ho => .inl ⟨ho, rfl⟩) h

/-- What is new since later is new. -/
theorem Restamps.since (h : t₁.Restamps t') (hidle : t.Idles t₁) : t.Restamps t' := by
  intro f hf o ho
  have hle : t.log.size ≤ t₁.log.size := by
    simpa using hidle.log.grows.length_le
  have hprev := h f hf o ho
  rw [hidle.frames, hidle.log.stamp_eq] at hprev
  exact hprev.imp_right fun ⟨hnone, hlt⟩ => ⟨hnone, Nat.lt_of_le_of_lt hle hlt⟩

end Traced

namespace PagerM

open Traced (HandsOver Reports)

/-- A page is evicted from its frame when that is due. -/
theorem meets_evict_due {v : FrameOwner} (h : Recounts D t.log.toList)
    (howner : t.pager.frames.ownerOf f = some v)
    (hdue : ∀ past slot, QuietSince t.log.toList past → D past v f slot) :
    Meets (evict f)
      (fun _ t' => t'.pager.frames = t.pager.frames ∧ Recounts D t'.log.toList ∧
        (∃ events, t'.log.toList = t.log.toList ++ events ∧ ∀ e ∈ events, e.assigns = none) ∧
        TellsEviction t.log.toList v f t'.log.toList)
      (fun _ t' => Recounts D t'.log.toList) t := by
  have hpanic : ∀ (e : Panic) t', t.Idles t' → Recounts D t'.log.toList :=
    fun _ t' ht' => h.quiet ht'.log
  rw [evict]
  refine meets_bind.2 (meets_pager.2 (meets_bind.2 ?_))
  refine (meets_lift_of_ok (FramePool.owner_of_ownerOf howner)).2 ?_
  refine (preserves_process v.pid).meets_bind (.refl t) (fun pr t₁ h₁ => ?_) hpanic
  cases pr.pages.lookup v.page with
  | none => exact hpanic .assertion t₁ h₁
  | some e =>
    refine meets_ite.2 ⟨fun _ => ?_, fun _ => meets_bind.2 (hpanic .assertion t₁ h₁)⟩
    -- nothing before the last report is a report of a page that is evicted
    refine (preserves_lift _).meets_bind h₁ (fun space t₁ h₁ => ?_) hpanic
    refine preserves_pager.meets_bind h₁ (fun p t₁ h₁ => ?_) hpanic
    refine (preserves_lift _).meets_bind h₁ (fun allocated t₁ h₁ => ?_) hpanic
    refine (preserves_lift _).meets_bind h₁ (fun _ t₁ h₁ => ?_) hpanic
    refine (preserves_emit fun _ ht => ht.emit rfl).meets_bind h₁ (fun _ t₁ h₁ => ?_) hpanic
    refine preserves_pager.meets_bind h₁ (fun p t₁ h₁ => ?_) hpanic
    refine (preserves_lift _).meets_bind h₁ (fun contents t₁ h₁ => ?_) hpanic
    refine (preserves_lift _).meets_bind h₁ (fun swap t₁ h₁ => ?_) hpanic
    refine (preserves_update fun _ ht => ht.of_frames rfl).meets_bind h₁ (fun _ t₁ h₁ => ?_) hpanic
    refine (preserves_update fun _ ht => ht.of_frames rfl).meets_bind h₁ (fun _ t₁ h₁ => ?_) hpanic
    have hdue₁ := hdue t₁.log.toList allocated.1 h₁.log
    obtain ⟨events, hlog, hquiet⟩ := h₁.log
    have hevicted : t₁.log.toList ++ [.evicted v.pid v.page f allocated.1]
        = t.log.toList ++ (events ++ [.evicted v.pid v.page f allocated.1]) := by
      rw [hlog, List.append_assoc]
    simp only [meets_emit, Array.toList_push]
    refine ⟨h₁.frames, (hpanic .assertion t₁ h₁).evicted hdue₁, ⟨_, hevicted, fun e he => ?_⟩,
      allocated.1, _, hevicted, List.mem_append_right _ List.mem_cons_self⟩
    rcases List.mem_append.1 he with he | he
    · exact PagerEvent.assigns_of_isQuiet (hquiet e he)
    · rw [List.mem_singleton.1 he]
      rfl

/-- A page that gets a frame gets a free one, or that of the page that is due. -/
theorem meets_acquireFrame_due (hD : t.Admits D) (hin : t.InTurn)
    (hcons : t.pager.frames.Consistent []) (h : Recounts D t.log.toList) (o : FrameOwner) :
    Meets (acquireFrame o) (fun f t' => t.HandsOver o f t' ∧ Recounts D t'.log.toList)
      (fun _ t' => Recounts D t'.log.toList) t := by
  rw [acquireFrame]
  simp only [meets_bind, meets_pager]
  rcases hcons.tryAllocate_cases o with ⟨hlt, f, frames, halloc⟩ | ⟨hfull, halloc⟩
  · simp only [meets_lift_of_ok halloc, meets_setFrames, meets_pure]
    obtain ⟨-, -, hfree, howner⟩ := hcons.tryAllocate halloc
    refine ⟨⟨?_, howner, ⟨[], by simp, by simp⟩,
      fun v g hdue => absurd hdue.full (Nat.ne_of_lt hlt)⟩, h⟩
    rw [FramePool.queue_of_tryAllocate halloc, List.erase_of_not_mem]
    intro hmem
    rw [(hcons.mem_iff f).1 (List.mem_append_left _ hmem)] at hfree
    cases hfree
  · simp only [meets_lift_of_ok halloc, meets_setFrames]
    cases hvictim : t.pager.frames.selectVictim with
    | mk victim withdrawn =>
      cases victim with
      | none => exact h
      | some f =>
        obtain ⟨hwithdrawn, -, howner⟩ := hcons.selectVictim hvictim
        have hused : (withdrawn.ownerOf f).isSome :=
          (hwithdrawn.isSome_ownerOf f).trans ((hwithdrawn.mem_iff f).1 (by simp))
        obtain ⟨v, hv⟩ := Option.isSome_iff_exists.1 hused
        have hdue : t.pager.frames.Due v f := ⟨hfull, howner ▸ hv, withdrawn, hvictim⟩
        have hpicks := hin.picks hcons hdue
        simp only [meets_bind, meets_pager]
        refine (meets_evict_due (t := ⟨{ t.pager with frames := withdrawn }, t.log⟩) h hv
          fun past slot hquiet => hD past v f slot hquiet hpicks).mono ?_ fun _ _ h => h
        rintro _ t₁ ⟨hframes, hrecounts, hlog, htold⟩
        refine meets_lift.2 ⟨fun frames hassign => ?_, fun _ _ => hrecounts⟩
        rw [hframes] at hassign
        obtain ⟨-, -, howner'⟩ := hwithdrawn.reassign hassign
        refine ⟨⟨?_, ?_, hlog, fun w g hw => ?_⟩, hrecounts⟩
        · show frames.order.queue = _
          rw [FramePool.queue_of_reassign hassign, (FramePool.selectVictim_eq_some hvictim).1]
        · rw [← howner]
          exact howner'
        · obtain ⟨rfl, rfl⟩ := hdue.unique hw
          exact htold

/-- What is fetched for a page is reported first. -/
theorem ensures_fetchContents_reports (pid page : Nat) (e : PageEntry) (old : Page) (t : Traced) :
    Ensures (fetchContents pid page e old) (fun _ t' => t.Reports ⟨pid, page⟩ t') t := by
  rw [fetchContents]
  cases e.residency with
  | swapped slot =>
    simp only [ensures_bind, ensures_emit, ensures_pager, ensures_lift, ensures_setSwap,
      ensures_pure]
    rintro _ - ⟨contents, swap⟩ -
    refine ⟨rfl, .returning pid page slot, rfl, ?_⟩
    simp only [Array.toList_push]
    exact (QuietSince.refl _).concat rfl
  | notPopulated =>
    simp only [ensures_bind, ensures_emit, ensures_pager, ensures_pure]
    refine ⟨rfl, .populating pid page e.source.describe, rfl, ?_⟩
    simp only [Array.toList_push]
    exact .refl _
  | resident f => exact ensures_throw.2 trivial

theorem recounts_emit {e : PagerEvent} (he : e.isEvicted = false) :
    Preserves (fun t => Recounts D t.log.toList) (emit e) := by
  refine preserves_emit fun t ht => ?_
  rw [Array.toList_push]
  exact ht.concat he

theorem recounts_fetchContents (pid page : Nat) (e : PageEntry) (old : Page) :
    Preserves (fun t => Recounts D t.log.toList) (fetchContents pid page e old) := by
  rw [fetchContents]
  cases e.residency with
  | swapped slot =>
    refine (recounts_emit rfl).bind fun _ => preserves_pager.bind fun _ =>
      (preserves_lift _).bind fun _ => (recounts_emit rfl).bind fun _ =>
      preserves_pager.bind fun _ => (preserves_lift _).bind fun fetched => ?_
    exact (preserves_update fun _ ht => ht).bind fun _ => preserves_pure _
  | notPopulated =>
    exact (recounts_emit rfl).bind fun _ => preserves_pager.bind fun _ => preserves_pure _
  | resident f => exact preserves_throw _

/-- A page that is loaded goes to the end of the order, and the page that makes room for it, if
there is one, was due and is reported. -/
theorem meets_loadPage_due {config : Config} {slots pid page : Nat} (hD : t.Admits D)
    (ho : Pager.Owned config slots t.pager) (hmissing : t.pager.Missing ⟨pid, page⟩)
    (hin : t.InTurn) (h : Recounts D t.log.toList) :
    Meets (loadPage pid page)
      (fun _ t' => (t'.InTurn ∧ Recounts D t'.log.toList) ∧ t.Restamps t' ∧
        ∀ v g, t.pager.frames.Due v g → TellsEviction t.log.toList v g t'.log.toList)
      (fun _ t' => Recounts D t'.log.toList) t := by
  have hcons := ho.frames.consistent
  have hnew : ∀ g, t.pager.frames.ownerOf g ≠ some ⟨pid, page⟩ := fun g hg =>
    hmissing.residency_ne g ((ho.frames.owners g _).1 hg)
  rw [loadPage]
  refine meets_bind.2 ((meets_acquireFrame_due hD hin hcons h ⟨pid, page⟩).mono ?_
    fun _ _ hrecounts => hrecounts)
  rintro f t₁ ⟨hands, h₁⟩
  -- the process and its page are only looked up
  have hpanic : ∀ (e : Panic) t', t₁ = t' → Recounts D t'.log.toList := by
    rintro _ _ rfl
    exact h₁
  refine (preserves_process pid).meets_bind (P := (t₁ = ·)) rfl ?_ hpanic
  rintro pr _ rfl
  cases pr.pages.lookup page with
  | none => exact h₁
  | some e =>
    refine preserves_pager.meets_bind (P := (t₁ = ·)) rfl ?_ hpanic
    rintro p _ rfl
    refine (preserves_lift _).meets_bind (P := (t₁ = ·)) rfl ?_ hpanic
    rintro old _ rfl
    have hfetch := (preserves_iff.1 (recounts_fetchContents pid page e old) t₁ h₁).and_ensures
      (ensures_fetchContents_reports pid page e old t₁)
    refine meets_bind.2 (hfetch.mono ?_ fun _ _ hrecounts => hrecounts)
    rintro fetched t₂ ⟨h₂, hreports⟩
    have hin₂ := hin.handsOver hcons hnew hands hreports
    -- what is left of the load takes the frame out of the order again at most
    suffices hrest : Preserves t₂.Thins _ from
      (preserves_iff.1 hrest t₂ (.refl t₂)).mono
        (fun _ _ ht' => ⟨⟨ht'.inTurn hin₂, h₂.quiet ht'.log⟩,
          (hands.restamps hreports hnew).thins ht', fun v g hdue =>
          (hands.told v g hdue).mono (hreports.grows.trans ht'.log.grows)⟩)
        fun _ _ ht' => h₂.quiet ht'.log
    cases fetched with
    | error e => exact (thins_releaseFrame f).bind fun _ => preserves_pure _
    | ok contents =>
      refine (thins_setContents f contents).bind fun _ => (preserves_lift _).bind fun _ =>
        (preserves_lift _).bind ?_
      rintro ⟨installed, space⟩
      refine .ite ?_ ?_
      · cases e.slot? with
        | none => exact (thins_setProcess _ _).bind fun _ => preserves_pure _
        | some slot =>
          exact preserves_pager.bind fun _ => (preserves_lift _).bind fun swap =>
            (thins_setSwap swap).bind fun _ => (thins_setProcess _ _).bind fun _ =>
            preserves_pure _
      · exact (thins_setProcess _ _).bind fun _ =>
          (thins_releaseFrame f).bind fun _ => preserves_pure _

/-- A page that a fault takes out of its frame was due and is reported. -/
theorem meets_faultIn_due {config : Config} {slots pid addr esp : Nat} {forWrite : Bool}
    (hD : t.Admits D) (ho : Pager.Owned config slots t.pager) (hin : t.InTurn)
    (h : Recounts D t.log.toList) :
    Meets (faultIn pid addr esp forWrite)
      (fun _ t' => (t'.InTurn ∧ Recounts D t'.log.toList) ∧ t.Restamps t' ∧
        ∀ v g, t.pager.frames.Due v g → t'.pager.residency v ≠ some (.resident g) →
          TellsEviction t.log.toList v g t'.log.toList)
      (fun _ t' => Recounts D t'.log.toList) t := by
  have hfind := (preserves_iff.1 (idles_findOrGrow pid addr esp) t (.refl t)).and_ensures
    (ensures_findOrGrow pid addr esp t)
  rw [faultIn]
  refine preserves_pager.meets_bind (P := (t = ·)) rfl ?_ (by rintro _ _ rfl; exact h)
  rintro p _ rfl
  have hstays : ∀ {t₁ : Traced}, (∀ v g, t.pager.residency v = some (.resident g) →
      t₁.pager.residency v = some (.resident g)) →
      ∀ v g, t.pager.frames.Due v g → t₁.pager.residency v ≠ some (.resident g) →
        TellsEviction t.log.toList v g t₁.log.toList := fun hres v g hdue hne =>
    absurd (hres v g ((ho.frames.owners g v).1 hdue.owner)) hne
  refine meets_ite.2 ⟨fun _ => ?_, fun _ =>
    ⟨⟨hin, h⟩, (Traced.Thins.refl t).restamps, hstays fun _ _ hv => hv⟩⟩
  refine meets_bind.2 (hfind.mono ?_ fun _ _ ht' => h.quiet ht'.log)
  rintro found t₁ ⟨hidle₁, hfinds⟩
  have ho₁ := hfinds.steps.owned ho
  have hin₁ := hidle₁.thins.inTurn hin
  have h₁ := h.quiet hidle₁.log
  have hstamps := hidle₁.thins.restamps
  have hstays₁ := hstays fun _ _ hv => hfinds.residency_eq hv
  cases found with
  | none => exact ⟨⟨hin₁, h₁⟩, hstamps, hstays₁⟩
  | some e =>
    refine meets_ite.2 ⟨fun _ => ⟨⟨hin₁, h₁⟩, hstamps, hstays₁⟩, fun _ => ?_⟩
    cases hframe : e.frame? with
    | some f => exact ⟨⟨hin₁, h₁⟩, hstamps, hstays₁⟩
    | none =>
      have hmissing : t₁.pager.Missing ⟨pid, pageFloor addr⟩ :=
        ⟨pageOffset_pageFloor addr, e, hfinds.declared_eq, hframe⟩
      refine (meets_loadPage_due (hD.idles hidle₁) ho₁ hmissing hin₁ h₁).mono ?_
        fun _ _ hrecounts => hrecounts
      rintro _ t₂ ⟨hkept, hstamps₂, htold⟩
      refine ⟨hkept, hstamps₂.since hidle₁, fun v g hdue _ => ?_⟩
      exact (htold v g (hidle₁.frames.symm ▸ hdue)).since hidle₁.log.grows

/-- A page that awaits a frame gets that of the page that is due, if there is room in swap and the
device can count the transfers. -/
theorem meets_faultIn_of_due {config : Config} {slots pid addr esp g : Nat} {v : FrameOwner}
    {pr : Process} (ho : Pager.Owned config slots t.pager) (hp : t.pager.Equipped)
    (hfits : t.pager.config.Fits) (hbase : pageOffset t.pager.config.physBase = 0)
    (hpr : t.pager.processes[pid]? = some pr) (hawaits : t.pager.Awaits pid addr esp)
    (hdue : t.pager.frames.Due v g) (hroom : t.pager.swap.free ≠ 0)
    (hwrites : t.pager.swap.device.writes + sectorsPerPage < 2 ^ 32)
    (hreads : t.pager.swap.device.reads + sectorsPerPage < 2 ^ 32) :
    Meets (faultIn pid addr esp false)
      (fun _ t' => ∃ slot, t'.pager.residency v = some (.swapped slot)) (fun _ _ => False) t := by
  refine ((meets_faultIn ho hp hfits hpr false).and_ensures
    (ensures_faultIn pid addr esp false t)).mono ?_ ?_
  · rintro _ t' ⟨-, hfault⟩
    exact hfault.exists_swapped ho hp hbase hawaits hdue
  · rintro e t' ⟨-, hstarves | hoverruns⟩
    · obtain ⟨frames, hvictim⟩ := hdue.victim
      have hg := ho.frames.consistent.lt_size_of_ownerOf hdue.owner
      cases hstarves with
      | pinned full pinned =>
        exact Nat.ne_of_gt (pinned g hg) (FramePool.selectVictim_eq_some hvictim).2.1
      | slots full used => exact hroom used
    · cases hoverruns <;> omega

end PagerM

/-! ### The fault that evicts -/

/-- A fault that starts at `t` reports `e`, and `past` is what was reported before. -/
def Traced.FaultReports (t : Traced) (past : List PagerEvent) (e : PagerEvent) : Prop :=
  ∃ pid addr esp forWrite t', (PagerM.faultIn pid addr esp forWrite).Leaves t t' ∧
    t.log.toList <+: past ∧ past ++ [e] <+: t'.log.toList

/-- The eviction of page `o` from frame `f` is made by a fault that starts where `M` holds, and
there it is due. -/
def EvictedAt (M : Traced → Prop) (past : List PagerEvent) (o : FrameOwner) (f slot : Nat) : Prop :=
  ∃ t, M t ∧ t.Picks o f ∧ t.FaultReports past (.evicted o.pid o.page f slot)

/-- The order of the pages is the replacement order, and each eviction in the log was made by a
fault that starts where `M` holds. -/
structure Traced.Fair (M : Traced → Prop) (t : Traced) : Prop where
  inTurn : t.InTurn
  recounts : Recounts (EvictedAt M) t.log.toList

theorem Traced.Fair.thins (h : t.Fair M) (hthins : t.Thins t') : t'.Fair M :=
  ⟨hthins.inTurn h.inTurn, h.recounts.quiet hthins.log⟩

namespace PagerM

/-- Where `x` ends, the order of the pages is the replacement order, and where it stops, each
eviction in the log was made by a fault that starts where `M` holds. -/
def EvictsInTurn {α : Type} (M : Traced → Prop) (x : PagerM α) (t : Traced) : Prop :=
  Meets x (fun _ t' => t'.Fair M) (fun _ t' => Recounts (EvictedAt M) t'.log.toList) t

namespace EvictsInTurn

variable {α β : Type} {x : PagerM α}

/-- What takes frames out of the order at most evicts nothing. -/
theorem of_thins (hx : Preserves t.Thins x) (h : t.Fair M) : EvictsInTurn M x t :=
  (preserves_iff.1 hx t (.refl t)).mono (fun _ _ ht' => h.thins ht')
    fun _ _ ht' => (h.thins ht').recounts

theorem bind {f : α → PagerM β} (hx : EvictsInTurn M x t)
    (hf : ∀ a t', x.run t = .ok a t' → t'.Fair M → EvictsInTurn M (f a) t') :
    EvictsInTurn M (x >>= f) t := by
  have hran : Ensures x (fun a t' => x.run t = .ok a t') t := fun _ _ hrun => hrun
  exact meets_bind.2 ((Meets.and_ensures hx hran).mono
    (fun a t' ⟨hfair, hrun⟩ => hf a t' hrun hfair) fun _ _ h => h)

end EvictsInTurn

theorem evictsInTurn_faultIn {config : Config} {slots pid addr esp : Nat} {forWrite : Bool}
    (hM : M t) (ho : Pager.Owned config slots t.pager) (h : t.Fair M) :
    EvictsInTurn M (faultIn pid addr esp forWrite) t := by
  -- what the log reports of old was so, and what is new is reported by this fault
  let D (past : List PagerEvent) (o : FrameOwner) (f slot : Nat) : Prop :=
    EvictedAt M past o f slot ∨ QuietSince t.log.toList past ∧ t.Picks o f
  have hnew : ∀ t', (faultIn pid addr esp forWrite).Leaves t t' → Recounts D t'.log.toList →
      Recounts (EvictedAt M) t'.log.toList := by
    intro t' hstops hrecounts past pid' page f slot rest hlog
    rcases hrecounts past pid' page f slot rest hlog with hold | ⟨hquiet, hpicks⟩
    · exact hold
    · refine ⟨t, hM, hpicks, pid, addr, esp, forWrite, t', hstops, hquiet.grows, rest, ?_⟩
      rw [hlog, List.append_assoc, List.singleton_append]
  have hmeets : Meets (faultIn pid addr esp forWrite) _ _ t :=
    meets_faultIn_due (D := D) (fun _ _ _ _ hquiet hpicks => .inr ⟨hquiet, hpicks⟩) ho h.inTurn
      (h.recounts.mono fun _ _ _ _ => .inl)
  exact hmeets.and_leaves.mono (fun _ t' ⟨hkept, hstops⟩ => ⟨hkept.1.1, hnew t' hstops hkept.1.2⟩)
    fun _ t' ⟨hrecounts, hstops⟩ => hnew t' hstops hrecounts

end PagerM

end DemandPaging
