import DemandPaging.Proofs.Starvation

/-!
# The order in which pages got their frames

A page that gets a frame is filled at once, from its source or from swap, and that is reported
before any other page gets one. So the log tells when each page last got a frame: the stamp of a
page is the number of events up to the last one that reports it.

The replacement order is the order of the stamps. It is edited in several places, but only ever in
one way: a frame is taken out wherever it stands, because its page is evicted, given back or could
not be loaded; and a frame that gets a page is put at the end, with a stamp that is later than all
others. Pins are recorded elsewhere and change neither the order nor the stamps. So the first frame
in the order that has no pins holds the page with the earliest stamp of all pages without pins.

## Main definitions

* `stamp`, `Traced.stampOf` — when a page, and the page in a frame, last got a frame.
* `Traced.InTurn` — the replacement order is the order of the stamps.
* `Traced.Picks` — the page in a frame is the first of all pages without pins.
* `FramePool.Due` — the page in a frame is the next to be evicted.
* `Traced.Thins` — frames were taken out of the order, and nothing was reported of pages that come
  and go.
* `Traced.Idles` — not even that.

## Main results

* `Traced.InTurn.picks` — a page that is due has the earliest stamp of all pages without pins.
* `Traced.InTurn.assign`, `Traced.Thins.inTurn` — the order is kept by putting a frame at its end,
  and by taking frames out.
* `PagerM.thins_perform` — requests that load no pages take frames out of the order at most.
-/

namespace DemandPaging

/-- Whether a request may load pages. -/
def Op.loads : Op → Bool
  | .pageFault .. | .interrupt .. | .pin .. | .copyFromUser .. | .copyToUser .. => true
  | _ => false

namespace PagerEvent

/-- The page that has just got a frame, by the event that reports it. -/
def assigns : PagerEvent → Option FrameOwner
  | .populating pid page _ | .returning pid page _ => some ⟨pid, page⟩
  | _ => none

/-- Whether an event reports that a page was evicted. -/
def isEvicted : PagerEvent → Bool
  | .evicted .. => true
  | _ => false

/-- An event that is about neither. -/
def isQuiet (e : PagerEvent) : Bool := e.assigns.isNone && !e.isEvicted

theorem assigns_of_isQuiet {e : PagerEvent} (h : e.isQuiet = true) : e.assigns = none := by
  rw [isQuiet, Bool.and_eq_true] at h
  exact Option.isNone_iff_eq_none.1 h.1

theorem isEvicted_of_isQuiet {e : PagerEvent} (h : e.isQuiet = true) : e.isEvicted = false := by
  rw [isQuiet, Bool.and_eq_true] at h
  simpa using h.2

end PagerEvent

/-! ### Stamps -/

/-- When page `o` last got a frame, as the number of events up to the one that reports it; zero if
it never got one. -/
def stamp (log : List PagerEvent) (o : FrameOwner) : Nat :=
  log.length - log.reverse.findIdx fun e => e.assigns = some o

section Stamp

variable {log events : List PagerEvent} {o : FrameOwner} {e : PagerEvent}

theorem stamp_le_length (log : List PagerEvent) (o : FrameOwner) : stamp log o ≤ log.length :=
  Nat.sub_le _ _

theorem stamp_concat (log : List PagerEvent) (e : PagerEvent) (o : FrameOwner) :
    stamp (log ++ [e]) o = if e.assigns = some o then log.length + 1 else stamp log o := by
  rw [stamp, List.reverse_concat, List.findIdx_cons, List.length_append, List.length_singleton]
  by_cases h : e.assigns = some o
  · simp [h]
  · simp [h, stamp]

theorem stamp_append_of_not_assigns (h : ∀ e ∈ events, e.assigns ≠ some o) :
    stamp (log ++ events) o = stamp log o := by
  induction events generalizing log with
  | nil => rw [List.append_nil]
  | cons e rest ih =>
    have hrest : stamp (log ++ [e] ++ rest) o = stamp (log ++ [e]) o :=
      ih fun e' he' => h e' (List.mem_cons_of_mem e he')
    rw [← List.singleton_append, ← List.append_assoc, hrest, stamp_concat,
      if_neg (h e List.mem_cons_self)]

end Stamp

/-- The log goes on from `log` to `log'`, and no page was reported that got a frame or lost one. -/
def QuietSince (log log' : List PagerEvent) : Prop :=
  ∃ events, log' = log ++ events ∧ ∀ e ∈ events, e.isQuiet = true

namespace QuietSince

variable {log log₁ log' : List PagerEvent} {e : PagerEvent}

theorem refl (log : List PagerEvent) : QuietSince log log :=
  ⟨[], (List.append_nil log).symm, fun _ he => absurd he List.not_mem_nil⟩

theorem trans (h : QuietSince log log₁) (h' : QuietSince log₁ log') : QuietSince log log' := by
  obtain ⟨events, rfl, hquiet⟩ := h
  obtain ⟨events', rfl, hquiet'⟩ := h'
  refine ⟨events ++ events', List.append_assoc .., fun e he => ?_⟩
  rcases List.mem_append.1 he with he | he
  · exact hquiet e he
  · exact hquiet' e he

theorem concat (h : QuietSince log log') (he : e.isQuiet = true) : QuietSince log (log' ++ [e]) :=
  h.trans ⟨[e], rfl, by simpa using he⟩

theorem grows (h : QuietSince log log') : log <+: log' := by
  obtain ⟨events, rfl, -⟩ := h
  exact List.prefix_append log events

theorem stamp_eq (h : QuietSince log log') (o : FrameOwner) : stamp log' o = stamp log o := by
  obtain ⟨events, rfl, hquiet⟩ := h
  refine stamp_append_of_not_assigns fun e he => ?_
  rw [PagerEvent.assigns_of_isQuiet (hquiet e he)]
  simp

end QuietSince

namespace Traced

variable {t t' : Traced} {o : FrameOwner} {f : Nat}

/-- When the page in frame `f` got it. -/
def stampOf (t : Traced) (f : Nat) : Nat :=
  (t.pager.frames.ownerOf f).elim 0 (stamp t.log.toList)

/-- The replacement order is the order in which the pages got their frames. -/
structure InTurn (t : Traced) : Prop where
  reported : ∀ f ∈ t.pager.frames.order.queue, 0 < t.stampOf f
  ordered : t.pager.frames.order.queue.Pairwise fun f g => t.stampOf f < t.stampOf g

/-- No frame is free, and of the pages whose frames have no pins the one in `f`, which is `o`, got
its frame first. -/
structure Picks (t : Traced) (o : FrameOwner) (f : Nat) : Prop where
  full : t.pager.frames.allocated = t.pager.frames.size
  owner : t.pager.frames.ownerOf f = some o
  unpinned : t.pager.frames.pinsOf f = 0
  first : ∀ g, t.pager.frames.isAllocated g = true → t.pager.frames.pinsOf g = 0 → g ≠ f →
    t.stampOf f < t.stampOf g

theorem stampOf_le_size (t : Traced) (f : Nat) : t.stampOf f ≤ t.log.size := by
  rw [stampOf]
  cases t.pager.frames.ownerOf f with
  | none => exact Nat.zero_le _
  | some o => exact stamp_le_length t.log.toList o

theorem stampOf_of_owner (h : t.pager.frames.ownerOf f = some o) :
    t.stampOf f = stamp t.log.toList o := by
  rw [stampOf, h, Option.elim_some]

end Traced

theorem FramePool.any_pinned (p : FramePool) (f : Nat) :
    p.coreMap[f]?.any CoreMapEntry.pinned = decide (p.pinsOf f ≠ 0) := by
  rw [pinsOf]
  cases p.coreMap[f]? <;> rfl

/-- The frame that is selected has no pins, and the frames before it in the order have some. -/
theorem FramePool.selectVictim_eq_some {p q : FramePool} {f : Nat}
    (h : p.selectVictim = (some f, q)) :
    q = { p with order := ⟨p.order.queue.erase f⟩ } ∧ p.pinsOf f = 0 ∧
      ∃ skipped rest, p.order.queue = skipped ++ f :: rest ∧ ∀ g ∈ skipped, p.pinsOf g ≠ 0 := by
  simp only [selectVictim, Fifo.selectVictim, any_pinned] at h
  cases hfind : p.order.queue.find? fun g => ! decide (p.pinsOf g ≠ 0) with
  | none =>
    rw [hfind] at h
    cases h
  | some g =>
    rw [hfind] at h
    obtain ⟨hfound, rfl⟩ := Prod.mk.inj h
    obtain rfl : g = f := Option.some.inj hfound
    obtain ⟨hunpinned, skipped, rest, hqueue, hskipped⟩ := List.find?_eq_some_iff_append.1 hfind
    exact ⟨rfl, by simpa using hunpinned, skipped, rest, hqueue, by simpa using hskipped⟩

/-- If no frame is selected, every frame in use has pins. -/
theorem FramePool.Consistent.pinned_of_selectVictim_none {p : FramePool} {q : FramePool}
    (hp : p.Consistent []) (h : p.selectVictim = (none, q)) {f : Nat}
    (hf : p.isAllocated f = true) : p.isPinned f = .ok true := by
  have hmem : f ∈ p.order.queue := by
    have := (hp.mem_iff f).2 hf
    rwa [List.append_nil] at this
  simp only [FramePool.selectVictim, Fifo.selectVictim, any_pinned] at h
  cases hfind : p.order.queue.find? fun g => ! decide (p.pinsOf g ≠ 0) with
  | some g =>
    rw [hfind] at h
    cases h
  | none =>
    have hpinned := List.find?_eq_none.1 hfind f hmem
    refine isPinned_of_pos (Nat.pos_iff_ne_zero.2 ?_)
    simpa using hpinned

/-- No frame is free, and `f` is the first frame in the order that has no pins. Page `o` is in
it. -/
structure FramePool.Due (p : FramePool) (o : FrameOwner) (f : Nat) : Prop where
  full : p.allocated = p.size
  owner : p.ownerOf f = some o
  victim : ∃ q, p.selectVictim = (some f, q)

namespace Traced.InTurn

variable {t t' : Traced} {o : FrameOwner} {f : Nat}

/-- A page that is due has the earliest stamp of all pages without pins. -/
theorem picks (h : t.InTurn) (hcons : t.pager.frames.Consistent [])
    (hdue : t.pager.frames.Due o f) : t.Picks o f := by
  obtain ⟨frames, hvictim⟩ := hdue.victim
  obtain ⟨-, hunpinned, skipped, rest, hqueue, hskipped⟩ :=
    FramePool.selectVictim_eq_some hvictim
  refine ⟨hdue.full, hdue.owner, hunpinned, fun g hg hpins hne => ?_⟩
  have hmem : g ∈ t.pager.frames.order.queue := by
    have := (hcons.mem_iff g).2 hg
    rwa [List.append_nil] at this
  have hordered := h.ordered
  rw [hqueue] at hmem hordered
  rcases List.mem_append.1 hmem with hbefore | hafter
  · exact absurd hpins (hskipped g hbefore)
  · rcases List.mem_cons.1 hafter with heq | hrest
    · exact absurd heq hne
    · exact (List.pairwise_cons.1 (List.pairwise_append.1 hordered).2.1).1 g hrest

/-- The order is kept when a frame goes to the end with a page that has just been reported. -/
theorem assign (h : t.InTurn) (hnodup : t.pager.frames.order.queue.Nodup)
    (hqueue : t'.pager.frames.order.queue = t.pager.frames.order.queue.erase f ++ [f])
    (howner : t'.pager.frames.ownerOf = Function.update t.pager.frames.ownerOf f (some o))
    (hnew : ∀ g, t.pager.frames.ownerOf g ≠ some o)
    (hlate : t.log.size < stamp t'.log.toList o)
    (hsame : ∀ o', o' ≠ o → stamp t'.log.toList o' = stamp t.log.toList o') : t'.InTurn := by
  have hlast : t'.stampOf f = stamp t'.log.toList o := by
    rw [stampOf, howner, Function.update_self, Option.elim_some]
  have hothers : ∀ g ∈ t.pager.frames.order.queue.erase f, t'.stampOf g = t.stampOf g := by
    intro g hg
    have hgf : g ≠ f := (hnodup.mem_erase_iff.1 hg).1
    rw [stampOf, stampOf, howner, Function.update_of_ne hgf]
    cases hgo : t.pager.frames.ownerOf g with
    | none => rfl
    | some o' =>
      refine hsame o' ?_
      rintro rfl
      exact hnew g hgo
  constructor
  · intro g hg
    rw [hqueue] at hg
    rcases List.mem_append.1 hg with hg | hg
    · rw [hothers g hg]
      exact h.reported g (List.mem_of_mem_erase hg)
    · rw [List.mem_singleton.1 hg, hlast]
      exact Nat.lt_of_le_of_lt (Nat.zero_le _) hlate
  · rw [hqueue, List.pairwise_append]
    refine ⟨?_, List.pairwise_singleton _ _, fun g hg g' hg' => ?_⟩
    · refine (h.ordered.sublist List.erase_sublist).imp_of_mem fun hg hg' hlt => ?_
      rwa [hothers _ hg, hothers _ hg']
    · rw [List.mem_singleton.1 hg', hlast, hothers g hg]
      exact Nat.lt_of_le_of_lt (stampOf_le_size t g) hlate

end Traced.InTurn

/-! ### Frames taken out of the order -/

/-- From `t` to `t'`, frames were taken out of the order, and nothing was reported of pages that
get frames or lose them. -/
structure Traced.Thins (t t' : Traced) : Prop where
  log : QuietSince t.log.toList t'.log.toList
  queue : t'.pager.frames.order.queue.Sublist t.pager.frames.order.queue
  owners : ∀ f ∈ t'.pager.frames.order.queue,
    t'.pager.frames.ownerOf f = t.pager.frames.ownerOf f

namespace Traced.Thins

variable {t t₁ t' : Traced} {f : Nat}

theorem refl (t : Traced) : t.Thins t := ⟨.refl _, .refl _, fun _ _ => rfl⟩

theorem trans (h : t.Thins t₁) (h' : t₁.Thins t') : t.Thins t' where
  log := h.log.trans h'.log
  queue := h'.queue.trans h.queue
  owners f hf := by rw [h'.owners f hf, h.owners f (h'.queue.subset hf)]

theorem of_frames {p : Pager} (h : p.frames = t.pager.frames) : t.Thins ⟨p, t.log⟩ :=
  ⟨.refl _, by rw [h], fun _ _ => by rw [h]⟩

theorem emit {e : PagerEvent} (h : e.isQuiet = true) : t.Thins ⟨t.pager, t.log.push e⟩ where
  log := by
    rw [Array.toList_push]
    exact (QuietSince.refl _).concat h
  queue := .refl _
  owners _ _ := rfl

theorem release {frames : FramePool} (h : t.pager.frames.release f = .ok frames) :
    t.Thins ⟨{ t.pager with frames }, t.log⟩ := by
  simp only [FramePool.release, except_bind_eq_ok, except_ite_eq_ok, except_throw_ne_ok,
    except_pure_eq_ok, false_and, exists_false, and_false, or_false] at h
  obtain ⟨e, -, -, allocated, -, rfl⟩ := h
  refine ⟨.refl _, List.filter_sublist, fun g hg => ?_⟩
  have hne : g ≠ f := by
    have := (List.mem_filter.1 hg).2
    simpa using this
  simp [FramePool.ownerOf, FramePool.setOwner, FramePool.setEntry, Ne.symm hne]

theorem pin {frames : FramePool} (h : t.pager.frames.pin f = .ok frames) :
    t.Thins ⟨{ t.pager with frames }, t.log⟩ := by
  simp only [FramePool.pin, except_bind_eq_ok, except_ite_eq_ok, except_throw_ne_ok,
    except_pure_eq_ok, false_and, exists_false, and_false, or_false] at h
  obtain ⟨e, -, -, -, rfl⟩ := h
  exact ⟨.refl _, .refl _, fun _ _ => rfl⟩

theorem unpin {frames : FramePool} (h : t.pager.frames.unpin f = .ok frames) :
    t.Thins ⟨{ t.pager with frames }, t.log⟩ := by
  simp only [FramePool.unpin, except_bind_eq_ok, except_ite_eq_ok, except_throw_ne_ok,
    except_pure_eq_ok, false_and, exists_false, and_false, or_false] at h
  obtain ⟨e, -, -, rfl⟩ := h
  exact ⟨.refl _, .refl _, fun _ _ => rfl⟩

theorem stampOf_eq (h : t.Thins t') (hf : f ∈ t'.pager.frames.order.queue) :
    t'.stampOf f = t.stampOf f := by
  rw [stampOf, stampOf, h.owners f hf]
  cases t.pager.frames.ownerOf f with
  | none => rfl
  | some o => exact h.log.stamp_eq o

/-- The order is kept when frames are taken out of it. -/
theorem inTurn (h : t.Thins t') (ht : t.InTurn) : t'.InTurn where
  reported f hf := by
    rw [h.stampOf_eq hf]
    exact ht.reported f (h.queue.subset hf)
  ordered := by
    refine (ht.ordered.sublist h.queue).imp_of_mem fun hf hg hlt => ?_
    rwa [h.stampOf_eq hf, h.stampOf_eq hg]

end Traced.Thins

/-- From `t` to `t'` nothing happened to the frames, and nothing was reported of pages that get
frames or lose them. -/
structure Traced.Idles (t t' : Traced) : Prop where
  log : QuietSince t.log.toList t'.log.toList
  frames : t'.pager.frames = t.pager.frames

namespace Traced.Idles

variable {t t₁ t' : Traced} {f : Nat}

theorem thins (h : t.Idles t') : t.Thins t' :=
  ⟨h.log, by rw [h.frames], fun _ _ => by rw [h.frames]⟩

theorem refl (t : Traced) : t.Idles t := ⟨.refl _, rfl⟩

theorem of_frames (h : t.Idles t₁) {p : Pager} (hp : p.frames = t₁.pager.frames) :
    t.Idles ⟨p, t₁.log⟩ := ⟨h.log, hp.trans h.frames⟩

theorem emit (h : t.Idles t₁) {e : PagerEvent} (he : e.isQuiet = true) :
    t.Idles ⟨t₁.pager, t₁.log.push e⟩ := ⟨h.log.trans (Traced.Thins.emit he).log, h.frames⟩

theorem stampOf_eq (h : t.Idles t') (f : Nat) : t'.stampOf f = t.stampOf f := by
  rw [stampOf, stampOf, h.frames]
  cases t.pager.frames.ownerOf f with
  | none => rfl
  | some o => exact h.log.stamp_eq o

/-- What is next to be evicted has been so for a while. -/
theorem picks {o : FrameOwner} (h : t.Idles t') (hpicks : t'.Picks o f) : t.Picks o f where
  full := h.frames ▸ hpicks.full
  owner := h.frames ▸ hpicks.owner
  unpinned := h.frames ▸ hpicks.unpinned
  first g hg hpins hne := by
    rw [← h.stampOf_eq, ← h.stampOf_eq]
    exact hpicks.first g (h.frames ▸ hg) (h.frames ▸ hpins) hne

end Traced.Idles

namespace PagerM

variable {u : Traced}

/-- A stack page may be declared. -/
theorem idles_findOrGrow (pid addr esp : Nat) : Preserves u.Idles (findOrGrow pid addr esp) := by
  rw [findOrGrow_eq]
  refine (preserves_process pid).bind fun pr => ?_
  cases pr.pages.lookup addr with
  | some e => exact preserves_pure _
  | none =>
    refine preserves_pager.bind fun _ => (preserves_lift _).bind fun _ => .ite ?_ (preserves_pure _)
    refine (preserves_emit fun _ ht => ht.emit rfl).bind fun _ => ?_
    exact (preserves_update fun _ ht => ht.of_frames rfl).bind fun _ => preserves_pure _

theorem thins_update {g : Pager → Pager} (hg : ∀ p, (g p).frames = p.frames) :
    Preserves u.Thins (update g) := preserves_update fun t ht => ht.trans (.of_frames (hg t.pager))

theorem thins_setProcess (pid : Nat) (pr : Process) : Preserves u.Thins (setProcess pid pr) :=
  thins_update fun _ => rfl

theorem thins_setSwap (swap : Swap) : Preserves u.Thins (setSwap swap) := thins_update fun _ => rfl

theorem thins_emit {e : PagerEvent} (he : e.isQuiet = true) : Preserves u.Thins (emit e) :=
  preserves_emit fun _ ht => ht.trans (.emit he)

theorem thins_setContents (f : Nat) (page : Page) : Preserves u.Thins (setContents f page) :=
  preserves_pager.bind fun _ => (preserves_lift _).bind fun _ => thins_update fun _ => rfl

/-- A change of the frames that is checked. -/
theorem thins_frames {g : FramePool → Except Panic FramePool}
    (hg : ∀ (t : Traced) frames, g t.pager.frames = .ok frames →
      t.Thins ⟨{ t.pager with frames }, t.log⟩) :
    Preserves u.Thins (do setFrames (← g (← pager).frames)) := by
  refine preserves_iff.2 fun t ht => ?_
  simp only [meets_bind, meets_pager]
  cases hchange : g t.pager.frames with
  | error e => exact (meets_lift_of_error rfl).2 ht
  | ok frames => exact (meets_lift_of_ok rfl).2 (ht.trans (hg t frames hchange))

theorem thins_releaseFrame (f : Nat) : Preserves u.Thins (releaseFrame f) :=
  thins_frames (g := (·.release f)) fun _ _ => .release

theorem thins_pinFrame (f : Nat) : Preserves u.Thins (pinFrame f) :=
  thins_frames (g := (·.pin f)) fun _ _ => .pin

theorem thins_unpinFrame (f : Nat) : Preserves u.Thins (unpinFrame f) :=
  thins_frames (g := (·.unpin f)) fun _ _ => .unpin

theorem thins_unpinFrames (frames : List Nat) : Preserves u.Thins (unpinFrames frames) := by
  induction frames with
  | nil => exact preserves_pure _
  | cons f rest ih => exact (thins_unpinFrame f).bind fun _ => ih

theorem thins_unpinPages (pages : PageMap) (page count : Nat) :
    Preserves u.Thins (unpinPages pages page count) := by
  induction count generalizing page with
  | zero => exact preserves_pure _
  | succ count ih =>
    rw [unpinPages]
    cases (pages.lookup page).bind PageEntry.frame? with
    | none => exact ih _
    | some f => exact (thins_unpinFrame f).bind fun _ => ih _

theorem thins_unpin (pid start size : Nat) : Preserves u.Thins (Pager.unpin pid start size) := by
  rw [Pager.unpin]
  refine .ite (preserves_pure _) (preserves_pager.bind fun p => ?_)
  cases p.processes[pid]? with
  | none => exact preserves_pure _
  | some pr => exact thins_unpinPages _ _ _

theorem thins_findOrGrow (pid addr esp : Nat) : Preserves u.Thins (findOrGrow pid addr esp) :=
  fun t t' ht hstops => ht.trans (idles_findOrGrow pid addr esp t t' (.refl t) hstops).thins

theorem thins_validAddress (pid addr esp : Nat) (forWrite : Bool) :
    Preserves u.Thins (Pager.validAddress pid addr esp forWrite) := by
  rw [Pager.validAddress]
  refine preserves_pager.bind fun _ => .ite (preserves_pure _) ?_
  refine (thins_findOrGrow pid addr esp).bind fun found => ?_
  cases found <;> exact preserves_pure _

theorem thins_register (pid : Nat) : Preserves u.Thins (Pager.register pid) :=
  preserves_pager.bind fun _ => .ite ((preserves_throw _).bind fun _ => thins_setProcess _ _)
    (thins_setProcess _ _)

theorem thins_tryDeclare (pid page : Nat) (source : PageSource) (writable : Bool) :
    Preserves u.Thins (tryDeclare pid page source writable) := by
  rw [tryDeclare]
  refine preserves_pager.bind fun _ => .ite ?declare ((preserves_throw _).bind fun _ => ?declare)
  exact (preserves_process pid).bind fun _ => (preserves_lift _).bind fun _ =>
    (thins_setProcess _ _).bind fun _ => preserves_pure _

theorem thins_tryDeclareImage (pid page : Nat) (file : Handle) (offset read : Nat)
    (writable : Bool) :
    Preserves u.Thins (Pager.tryDeclareImage pid page file offset read writable) :=
  preserves_pager.bind fun _ => thins_tryDeclare _ _ _ _

theorem thins_declareSegment (pid : Nat) (file : Handle) (writable : Bool)
    (page offset read zeros : Nat) :
    Preserves u.Thins (declareSegment pid file writable page offset read zeros) := by
  rw [declareSegment]
  split
  · rename_i hleft
    refine (thins_tryDeclareImage pid page file offset _ writable).bind fun declared => ?_
    refine .ite ?_ (preserves_pure _)
    split
    · rename_i hfits
      have := left_after_page_lt hleft hfits
      exact thins_declareSegment pid file writable _ _ _ _
    · exact preserves_throw _
  · exact preserves_pure _
  termination_by read + zeros

theorem thins_loadSegments (pid : Nat) (file : Handle) (segments : List ProgramHeader) :
    Preserves u.Thins (loadSegments pid file segments) := by
  induction segments with
  | nil => exact preserves_pure _
  | cons h rest ih =>
    rw [loadSegments]
    cases h.kind with
    | load =>
      refine preserves_pager.bind fun p => ?_
      cases h.validate file.file.length p.config.physBase with
      | error e => exact preserves_pure _
      | ok _ =>
        have hsegment : Preserves u.Thins (loadSegment pid file h) :=
          (preserves_lift _).bind fun _ => (preserves_lift _).bind fun _ =>
            (preserves_lift _).bind fun _ => thins_declareSegment pid file _ _ _ _ _
        refine hsegment.bind fun r => ?_
        cases r with
        | error e => exact preserves_pure _
        | ok _ => exact (thins_emit rfl).bind fun _ => ih
    | dynamic | interpret | shlib => exact preserves_pure _
    | _ => exact ih

theorem thins_loadElf (pid : Nat) (file : Handle) : Preserves u.Thins (Pager.loadElf pid file) := by
  rw [Pager.loadElf]
  refine preserves_pager.bind fun p => ?_
  cases ElfImage.ofFile (p.view file) with
  | error e => exact preserves_pure _
  | ok image =>
    refine (thins_loadSegments pid file image.segments).bind fun r => ?_
    cases r with
    | error e => exact preserves_pure _
    | ok _ =>
      refine preserves_pager.bind fun _ => (preserves_lift _).bind fun _ =>
        (thins_tryDeclare _ _ _ _).bind fun declared => ?_
      exact .ite (preserves_pure _) (preserves_pure _)

theorem thins_releaseEntry (page : Nat) (e : PageEntry) (space : AddressSpace) :
    Preserves u.Thins (releaseEntry page e space) := by
  rw [releaseEntry]
  cases e.residency with
  | resident f =>
    exact (preserves_lift _).bind fun _ => (thins_releaseFrame f).bind fun _ => preserves_pure _
  | swapped slot =>
    exact preserves_pager.bind fun _ => (preserves_lift _).bind fun _ =>
      (thins_setSwap _).bind fun _ => preserves_pure _
  | notPopulated => exact preserves_pure space

theorem thins_unmapPages (m : Mapping) (page count : Nat) (pr : Process) :
    Preserves u.Thins (unmapPages m page count pr) := by
  induction count generalizing page pr with
  | zero => exact preserves_pure pr
  | succ count ih =>
    rw [unmapPages]
    cases pr.pages.remove page with
    | mk found pages =>
      cases found with
      | none => exact ih _ _
      | some e =>
        have hrelease := (thins_releaseEntry (u := u) page e pr.space).bind fun space =>
          ih (page + pageSize) { pr with pages, space }
        exact .ite hrelease ((preserves_throw _).bind fun _ => hrelease)

theorem thins_unmapAll (mappings : List Mapping) (pr : Process) :
    Preserves u.Thins (unmapAll mappings pr) := by
  induction mappings generalizing pr with
  | nil => exact preserves_pure pr
  | cons m rest ih => exact (thins_unmapPages m _ _ pr).bind fun pr => ih pr

theorem thins_releaseAll (pages : List (Nat × PageEntry)) (space : AddressSpace) :
    Preserves u.Thins (releaseAll pages space) := by
  induction pages generalizing space with
  | nil => exact preserves_pure space
  | cons entry rest ih => exact (thins_releaseEntry _ _ space).bind fun space => ih space

theorem thins_destroy (pid : Nat) : Preserves u.Thins (Pager.destroy pid) := by
  rw [Pager.destroy]
  refine (preserves_process pid).bind fun pr => Preserves.bind (thins_update ?_) fun _ => ?_
  · exact fun _ => rfl
  · refine (thins_unmapAll _ _).bind fun pr => ?_
    exact (thins_releaseAll _ _).discard.bind fun _ => thins_emit rfl

theorem thins_unmapFile (pid id : Nat) : Preserves u.Thins (Pager.unmapFile pid id) := by
  rw [Pager.unmapFile]
  refine (preserves_process pid).bind fun pr => ?_
  cases pr.mappings.remove id with
  | mk found mappings =>
    cases found with
    | none => exact preserves_throw _
    | some m =>
      exact (thins_unmapPages m _ _ _).bind fun _ => (thins_setProcess _ _).bind fun _ =>
        thins_emit rfl

theorem thins_mapFile (pid : Nat) (file : Handle) (addr : Nat) :
    Preserves u.Thins (Pager.mapFile pid file addr) := by
  rw [Pager.mapFile]
  refine .ite (preserves_pure _) (.ite (preserves_pure _) (.ite (preserves_pure _) ?_))
  refine preserves_pager.bind fun _ => .ite (.ite ?_ (preserves_pure _)) (preserves_pure _)
  refine preserves_pager.bind fun _ => (preserves_process pid).bind fun pr =>
    (preserves_lift _).bind fun declared => ?_
  obtain ⟨found, pages⟩ := declared
  cases found with
  | some page =>
    exact (thins_setProcess _ _).bind fun _ => (thins_emit rfl).bind fun _ => preserves_pure _
  | none =>
    refine (preserves_lift _).bind fun _ => (thins_setProcess _ _).bind fun _ => ?_
    refine Preserves.bind (thins_update ?_) fun _ => (thins_emit rfl).bind fun _ => preserves_pure _
    exact fun _ => rfl

theorem thins_refuseBy (pid : Nat) (refuses : Nat → Bool) :
    Preserves u.Thins (Pager.refuseBy pid refuses) := thins_update fun _ => rfl

/-- A request that loads no pages takes frames out of the order at most. -/
theorem thins_perform {op : Op} (hop : op.loads = false) :
    Preserves u.Thins (Pager.perform op) := by
  cases op with
  | pageFault | interrupt | pin | copyFromUser | copyToUser => cases hop
  | register pid => exact (thins_register pid).bind fun _ => preserves_pure _
  | destroy pid => exact (thins_destroy pid).bind fun _ => preserves_pure _
  | refuse pid refusing => exact (thins_refuseBy pid _).bind fun _ => preserves_pure _
  | refuseBy pid refuses => exact (thins_refuseBy pid refuses).bind fun _ => preserves_pure _
  | failReads file failing =>
    exact Preserves.bind (thins_update fun _ => rfl) fun _ => preserves_pure _
  | declareZero pid page writable =>
    exact Preserves.bind ((thins_tryDeclare pid page .zero writable).bind fun _ =>
      .ite (preserves_pure _) (preserves_throw _)) fun _ => preserves_pure _
  | tryDeclareZero pid page writable =>
    exact (thins_tryDeclare pid page .zero writable).bind fun _ => preserves_pure _
  | declareImage pid page file offset read writable =>
    exact Preserves.bind ((thins_tryDeclareImage pid page file offset read writable).bind fun _ =>
      .ite (preserves_pure _) (preserves_throw _)) fun _ => preserves_pure _
  | tryDeclareImage pid page file offset read writable =>
    exact (thins_tryDeclareImage pid page file offset read writable).bind fun _ => preserves_pure _
  | loadElf pid file => exact (thins_loadElf pid file).bind fun _ => preserves_pure _
  | validAddress pid addr esp forWrite =>
    exact (thins_validAddress pid addr esp forWrite).bind fun _ => preserves_pure _
  | unpin pid start size => exact (thins_unpin pid start size).bind fun _ => preserves_pure _
  | mapFile pid file addr => exact (thins_mapFile pid file addr).bind fun _ => preserves_pure _
  | unmapFile pid id => exact (thins_unmapFile pid id).bind fun _ => preserves_pure _

end PagerM

end DemandPaging
