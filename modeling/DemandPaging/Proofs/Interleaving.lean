import DemandPaging.Proofs.ThreadAnswers

/-!
# Threads that share a pager

Threads that work on processes of their own are interleaved step by step. When one of them needs a
frame, each of the others holds one pin at most, so with a frame for every thread some frame is not
pinned. With fewer pages declared than there are frames and slots, and the page that is loaded not
among those in a frame, a slot is free as well. So no step panics. A pin keeps its page in its
frame until the thread takes it off, so the bytes of a piece are moved in the frame that was pinned
for them; and as no thread sees the pages of another, each is answered as if it were by itself.

## Main definitions

* `PagerThreads.pins` — the pins that the threads hold.
* `PagerThreads.Bounded` — a schedule along which the pages fit and the transfers can be counted.
* `PagerThreads.SharedBy` — what the steps of the threads keep.
* `PagerThreads.Undisturbed` — what a thread comes to among the others.

## Main results

* `PagerThreads.SharedBy.meets_step` — no step panics as long as the pages fit.
* `PagerThreads.SharedBy.ends_run` — nor does a schedule, whatever order it has.
* `PagerThreads.undisturbed_of_run` — a schedule ends, every piece is moved in a frame of its page,
  and the answers are those of requests made alone.
-/

namespace DemandPaging

namespace FramePool

variable {p : FramePool} {pins : List PagePin}

/-- With fewer pins than frames some frame is not pinned. -/
theorem PinnedBy.exists_unpinned (h : p.PinnedBy pins) (hlt : pins.length < p.size) :
    ∃ f < p.size, p.pinsOf f = 0 := by
  by_contra hall
  have hsub : List.range p.size ⊆ pins.map PagePin.frame := by
    intro f hf
    have hpos : 0 < p.pinsOf f := by
      by_contra hzero
      exact hall ⟨f, List.mem_range.1 hf, Nat.eq_zero_of_not_pos hzero⟩
    rw [h.pinsOf_eq, List.countP_pos_iff] at hpos
    obtain ⟨a, ha, hframe⟩ := hpos
    exact List.mem_map.2 ⟨a, ha, of_decide_eq_true hframe⟩
  have hle := List.nodup_range.length_le_of_subset hsub
  rw [List.length_range, List.length_map] at hle
  exact Nat.not_le_of_lt hlt hle

end FramePool

/-- Fewer than 2³² sectors were to be transferred each way so far. -/
def Traced.Countable (t : Traced) : Prop :=
  t.slotsWritten * sectorsPerPage < 2 ^ 32 ∧ t.slotsRead * sectorsPerPage < 2 ^ 32

instance (t : Traced) : Decidable t.Countable := inferInstanceAs (Decidable (_ ∧ _))

theorem PagerThread.pid_of_pin? {th : PagerThread} {a : PagePin} (h : a ∈ th.pin?) :
    a.owner.pid = th.pid := by
  cases hphase : th.phase with
  | between | pinning => simp [pin?, hphase] at h
  | moving | unpinning =>
    simp only [pin?, hphase, Option.mem_def, Option.some.injEq] at h
    rw [← h]

namespace PagerThreads

open Pager (Owned Equipped)

variable {threads : Nat} {ts ts' : PagerThreads threads} {t t' : Traced} {config : Config}
  {slots : Nat} {i j : Fin threads} {th : PagerThread} {a : PagePin}

/-! ### The pins of the threads -/

/-- The pins that the threads hold. -/
def pins (ts : PagerThreads threads) : List PagePin :=
  (List.finRange threads).filterMap fun i => (ts i).pin?

/-- The pins that the threads other than `i` hold. -/
def pinsBut (ts : PagerThreads threads) (i : Fin threads) : List PagePin :=
  ((List.finRange threads).erase i).filterMap fun j => (ts j).pin?

/-- The threads with another state of thread `i`. -/
def set (ts : PagerThreads threads) (i : Fin threads) (th : PagerThread) : PagerThreads threads :=
  fun j => if j = i then th else ts j

@[simp] theorem set_self (ts : PagerThreads threads) (i : Fin threads) (th : PagerThread) :
    ts.set i th i = th := if_pos rfl

theorem set_of_ne (ts : PagerThreads threads) (th : PagerThread) (h : j ≠ i) :
    ts.set i th j = ts j := if_neg h

theorem mem_pins_of_pin? (h : a ∈ (ts i).pin?) : a ∈ ts.pins :=
  List.mem_filterMap.2 ⟨i, List.mem_finRange i, h⟩

theorem pins_perm (ts : PagerThreads threads) (i : Fin threads) :
    ts.pins.Perm ((ts i).pin?.toList ++ ts.pinsBut i) := by
  have hperm := (List.perm_cons_erase (List.mem_finRange i)).filterMap fun j => (ts j).pin?
  rw [List.filterMap_cons] at hperm
  cases hpin : (ts i).pin? with
  | none => simpa [hpin, pins, pinsBut] using hperm
  | some a => simpa [hpin, pins, pinsBut] using hperm

theorem length_pinsBut_lt (ts : PagerThreads threads) (i : Fin threads) :
    (ts.pinsBut i).length < threads := by
  have hle := List.length_filterMap_le (fun j => (ts j).pin?) ((List.finRange threads).erase i)
  rw [List.length_erase_of_mem (List.mem_finRange i), List.length_finRange] at hle
  have hpos := i.pos
  rw [pinsBut]
  omega

theorem pinsBut_set (ts : PagerThreads threads) (i : Fin threads) (th : PagerThread) :
    (ts.set i th).pinsBut i = ts.pinsBut i := by
  refine List.filterMap_congr fun j hj => ?_
  rw [set_of_ne]
  rintro rfl
  exact List.Nodup.not_mem_erase (List.nodup_finRange threads) hj

/-- The other threads hold pins for other processes. -/
theorem pid_of_mem_pinsBut (hdistinct : ∀ i j, (ts i).pid = (ts j).pid → i = j)
    (ha : a ∈ ts.pinsBut i) : a.owner.pid ≠ (ts i).pid := by
  obtain ⟨j, hj, hpin⟩ := List.mem_filterMap.1 ha
  rw [PagerThread.pid_of_pin? hpin]
  intro hpid
  rw [hdistinct j i hpid] at hj
  exact List.Nodup.not_mem_erase (List.nodup_finRange threads) hj

/-! ### What the steps keep -/

/-- The pager is as its threads expect it: its books are in order, the pins in them are those that
the threads hold, and every thread can go on. -/
structure SharedBy (config : Config) (slots : Nat) (ts : PagerThreads threads) (t : Traced) :
    Prop where
  owned : Owned config slots t.pager
  sound : t.pager.Sound
  equipped : t.pager.Equipped
  tallied : t.Tallied
  pinned : t.pager.frames.PinnedBy ts.pins
  ready : ∀ i, (ts i).Ready t.pager
  distinct : ∀ i j, (ts i).pid = (ts j).pid → i = j

/-- What thread `i` will have been answered in the end, as long as its process is left alone. -/
def outcome (ts : PagerThreads threads) (t : Traced) (i : Fin threads) : List Answer :=
  (ts i).answers ++ (ts i).expects (t.pager.outlook.alone (ts i).pid)

theorem SharedBy.holds (h : SharedBy config slots ts t) (i : Fin threads) :
    (ts i).Holds t.pager :=
  fun a ha => h.owned.residency_eq (h.pinned.ownerOf_eq a (mem_pins_of_pin? ha))

/-- A thread that holds no pin finds a frame, as long as the pages fit. -/
theorem SharedBy.not_starves (h : SharedBy config slots ts t)
    (hthreads : threads ≤ config.userFrames)
    (hpages : t.pager.allPages.length < config.userFrames + slots) (hnone : (ts i).pin? = none)
    {o : FrameOwner} {e : Panic} : ¬ Starves t.pager.frames t.pager.swap o e := by
  intro hstarves
  cases hstarves with
  | pinned full pinned =>
    have hothers := h.pinned.perm (ts.pins_perm i)
    rw [hnone, Option.toList_none, List.nil_append] at hothers
    have hlt : (ts.pinsBut i).length < t.pager.frames.size := by
      rw [h.owned.size_frames]
      exact Nat.lt_of_lt_of_le (ts.length_pinsBut_lt i) hthreads
    obtain ⟨f, hf, hzero⟩ := hothers.exists_unpinned hlt
    exact Nat.ne_of_gt (pinned f hf) hzero
  | slots full used =>
    have hpopulated := h.owned.populatedPages_of_full (h.owned.freeFrames_eq_zero.2 full) used
    have hle : t.pager.populatedPages ≤ t.pager.allPages.length := List.countP_le_length
    omega

theorem pid_set (hpid : th.pid = (ts i).pid) (j : Fin threads) :
    (ts.set i th j).pid = (ts j).pid := by
  by_cases hj : j = i
  · rw [hj, set_self, hpid]
  · rw [set_of_ne ts th hj]

/-- A step of one thread keeps the pager as all of them expect it. -/
theorem SharedBy.step (h : SharedBy config slots ts t) (htakes : (ts i).Takes t.pager th t'.pager)
    (htallied : t'.Tallied) : SharedBy config slots (ts.set i th) t' where
  owned := htakes.steps.owned h.owned
  sound := htakes.steps.sound (fun _ h => h) h.sound
  equipped := htakes.steps.equipped h.owned h.equipped
  tallied := htallied
  pinned := by
    have hpins := htakes.pinnedBy h.owned (h.pinned.perm (ts.pins_perm i))
      fun a ha => pid_of_mem_pinsBut h.distinct ha
    refine hpins.perm ?_
    have hperm := (ts.set i th).pins_perm i
    rw [set_self, pinsBut_set] at hperm
    exact hperm.symm
  ready j := by
    by_cases hj : j = i
    · subst hj
      rw [set_self]
      exact htakes.ready h.sound (h.ready j) (h.holds j)
    · rw [set_of_ne ts th hj]
      refine (h.ready j).congr (htakes.config_eq h.sound) ?_
      exact htakes.alone_eq h.sound (h.ready i) (h.holds i) fun hpid => hj (h.distinct i j hpid).symm
  distinct j k hpid := by
    rw [pid_set htakes.pid_eq, pid_set htakes.pid_eq] at hpid
    exact h.distinct j k hpid

/-- No step changes what a thread will have been answered. -/
theorem SharedBy.outcome_step (h : SharedBy config slots ts t)
    (htakes : (ts i).Takes t.pager th t'.pager) (j : Fin threads) :
    (ts.set i th).outcome t' j = ts.outcome t j := by
  by_cases hj : j = i
  · subst hj
    rw [outcome, set_self, htakes.pid_eq]
    exact htakes.answers_append h.sound (h.ready j) (h.holds j)
  · rw [outcome, set_of_ne ts th hj, htakes.alone_eq h.sound (h.ready i) (h.holds i)
      fun hpid => hj (h.distinct i j hpid).symm]
    rfl

/-! ### Schedules -/

/-- Wherever the schedule has got to, fewer pages are declared than there are frames and slots,
and wherever it stops, the transfers so far can be counted. -/
structure Bounded (config : Config) (ts : PagerThreads threads) (schedule : List (Fin threads))
    (t : Traced) : Prop where
  pages : ∀ n ≤ schedule.length, PagerM.Ensures (ts.run (schedule.take n))
    (fun _ u => u.pager.allPages.length < config.userFrames + u.pager.swap.slots) t
  transfers : ∀ n ≤ schedule.length, PagerM.Meets (ts.run (schedule.take n))
    (fun _ u => u.Countable) (fun _ u => u.Countable) t

theorem Bounded.head {schedule : List (Fin threads)} (h : Bounded config ts schedule t) :
    t.pager.allPages.length < config.userFrames + t.pager.swap.slots := by
  have hnow := h.pages 0 (Nat.zero_le _)
  rw [List.take_zero, run] at hnow
  exact PagerM.ensures_pure.1 hnow

theorem Bounded.countable {schedule : List (Fin threads)} {e : Panic}
    (h : Bounded config ts (i :: schedule) t) (hrun : (ts.step i).run t = .error e t') :
    t'.Countable := by
  have hnext := h.transfers 1 (by simp)
  rw [List.take_succ_cons, List.take_zero, run] at hnext
  exact (PagerM.meets_bind.1 hnext).of_error hrun

theorem Bounded.tail {schedule : List (Fin threads)} (h : Bounded config ts (i :: schedule) t)
    (hrun : (ts.step i).run t = .ok ts' t') : Bounded config ts' schedule t' where
  pages n hn := by
    have hnext := h.pages (n + 1) (Nat.succ_le_succ hn)
    rw [List.take_succ_cons, run, PagerM.ensures_bind] at hnext
    exact hnext ts' t' hrun
  transfers n hn := by
    have hnext := h.transfers (n + 1) (Nat.succ_le_succ hn)
    rw [List.take_succ_cons, run, PagerM.meets_bind] at hnext
    exact hnext.ensures ts' t' hrun

/-- No step panics, as long as the pages fit and the device can count. -/
theorem SharedBy.meets_step (h : SharedBy config slots ts t) (hfits : config.Fits)
    (hthreads : threads ≤ config.userFrames)
    (hpages : t.pager.allPages.length < config.userFrames + slots) (i : Fin threads) :
    PagerM.Meets (ts.step i)
      (fun ts' t' => SharedBy config slots ts' t' ∧
        ∀ j, (ts' j).pid = (ts j).pid ∧ ts'.outcome t' j = ts.outcome t j)
      (fun _ t' => Overruns t t') t := by
  rw [PagerThreads.step]
  simp only [PagerM.meets_bind, PagerM.meets_pure]
  have hstep := PagerThread.meets_step h.owned h.equipped (h.owned.config_eq ▸ hfits) (h.ready i)
    (h.pinned.perm (ts.pins_perm i)) fun a ha => pid_of_mem_pinsBut h.distinct ha
  refine (hstep.and_ensures ((PagerThread.ensures_step (ts i) t h.sound).and
    (PagerThread.tallied_step (ts i) t h.tallied))).mono ?_ ?_
  · rintro th t' ⟨-, htakes, htallied⟩
    exact ⟨h.step htakes htallied, fun j => ⟨pid_set htakes.pid_eq j, h.outcome_step htakes j⟩⟩
  · rintro e t' ⟨hnone, page, hstarves | hoverruns⟩
    · exact absurd hstarves (h.not_starves hthreads hpages hnone)
    · exact hoverruns

/-- A schedule along which the pages fit and the device can count comes to its end. -/
theorem SharedBy.ends_run (schedule : List (Fin threads)) (h : SharedBy config slots ts t)
    (hfits : config.Fits) (hthreads : threads ≤ config.userFrames)
    (hbounded : Bounded config ts schedule t) :
    ∃ ts' t', (ts.run schedule).run t = .ok ts' t' ∧ SharedBy config slots ts' t' ∧
      ∀ j, (ts' j).pid = (ts j).pid ∧ ts'.outcome t' j = ts.outcome t j := by
  induction schedule generalizing ts t with
  | nil => exact ⟨ts, t, rfl, h, fun _ => ⟨rfl, rfl⟩⟩
  | cons i rest ih =>
    have hstep := h.meets_step hfits hthreads (h.owned.size_slots ▸ hbounded.head) i
    cases hrun : (ts.step i).run t with
    | error e t₁ =>
      obtain ⟨hwritten, hread⟩ := hbounded.countable hrun
      exact absurd (hstep.of_error hrun) (h.tallied.not_overruns hwritten hread)
    | ok ts₁ t₁ =>
      obtain ⟨h₁, hsame₁⟩ := hstep.ensures ts₁ t₁ hrun
      obtain ⟨ts', t', hrest, h', hsame'⟩ := ih h₁ (hbounded.tail hrun)
      refine ⟨ts', t', ?_, h', fun j => ?_⟩
      · rw [run]
        exact PagerM.run_bind_eq_ok.2 ⟨ts₁, t₁, hrun, hrest⟩
      · exact ⟨(hsame' j).1.trans (hsame₁ j).1, (hsame' j).2.trans (hsame₁ j).2⟩

end PagerThreads

/-! ### Registered processes -/

/-- What is seen where nothing but process `pid` was registered. -/
def Outlook.ofProcess (layout : Config) (pid : Nat) : Outlook where
  layout := layout
  pages _ := none
  mappings := Function.update (fun _ => none) pid (some .empty)
  failing _ := false
  nextSerial := 1

namespace PagerM

variable {t : Traced} {pid : Nat}

theorem ensures_register_frames (pid : Nat) (t : Traced) :
    Ensures (Pager.register pid) (fun _ t' => t'.pager.frames = t.pager.frames) t := by
  refine (ensures_register_fresh pid t).mono ?_
  rintro _ t' ⟨-, hpager⟩
  rw [hpager]
  rfl

/-- Registering processes gives each of them an empty table of mappings, and nothing else is seen
to change. -/
theorem ensures_run_register (pids : List Nat) (t : Traced) (ht : t.pager.Sound)
    (htallied : t.Tallied) :
    Ensures (Pager.run (pids.map .register)) (fun _ t' => t'.pager.frames = t.pager.frames ∧
      t'.Tallied ∧ ∃ mappings, t'.pager.outlook = { t.pager.outlook with mappings } ∧
        ∀ q, mappings q = if q ∈ pids then some .empty else t.pager.outlook.mappings q) t := by
  induction pids generalizing t with
  | nil => exact ensures_pure.2 ⟨rfl, htallied, _, rfl, fun q => (if_neg List.not_mem_nil).symm⟩
  | cons pid rest ih =>
    rw [List.map_cons, Pager.run]
    simp only [Pager.perform, ensures_bind, ensures_pure]
    refine (((ensures_register_frames pid t).and (tallied_register pid t htallied)).and
      (follows_register pid t ht)).mono ?_
    rintro _ t₁ ⟨⟨hframes, htallied₁⟩, hseen, ht₁⟩
    refine (ih t₁ ht₁ htallied₁).mono ?_
    rintro _ t' ⟨hframes', htallied', mappings, hseen', hmappings⟩
    have hregistered := (Prod.mk.inj (Option.some.inj hseen)).2
    refine ⟨hframes'.trans hframes, htallied', mappings, ?_, fun q => ?_⟩
    · rw [hseen', ← hregistered]
      rfl
    · rw [hmappings, ← hregistered]
      by_cases hq : q = pid
      · subst hq
        simp [Outlook.setMappings]
      · simp [Outlook.setMappings, hq]

/-- What a process is answered that is registered first and then left alone. -/
theorem ensures_run_alone {config : Config} {device : Block} (hdevice : device.size ≤ 2 ^ 32)
    (pid : Nat) (requests : List ThreadRequest) :
    Ensures (Pager.run (.register pid :: requests.map (ThreadRequest.op pid)))
      (fun answers _ => answers.tail = (Outlook.ofProcess config.layout pid).answers pid requests)
      (.start config device) := by
  rw [Pager.run]
  simp only [Pager.perform, ensures_bind, ensures_pure]
  refine (follows_register pid _ (Pager.sound_ofConfig config hdevice)).mono ?_
  rintro _ t₁ ⟨hseen, ht₁⟩
  refine (ensures_run_answers pid requests t₁ ht₁).mono ?_
  rintro answers t' rfl
  rw [List.tail_cons, ← (Prod.mk.inj (Option.some.inj hseen)).2]
  show Outlook.answers (Outlook.setMappings (Pager.ofConfig config device).outlook _ _) _ _ = _
  rw [Pager.outlook_ofConfig]
  rfl

/-- A process that is registered has an empty table of mappings, and that is all there is to see
of it. -/
theorem ensures_run_register_alone {config : Config} {name : String} {disk : RamDisk}
    (hdisk : disk.sectors ≤ 2 ^ 32) {pids : List Nat} (hpid : pid ∈ pids) :
    Ensures (Pager.run (pids.map .register))
      (fun _ t => t.pager.outlook.alone pid = Outlook.ofProcess config.layout pid)
      (.start config (.attach .swap name (.ram disk))) := by
  refine (ensures_run_register pids _ (Pager.sound_ofConfig config hdisk)
    (.start config rfl rfl)).mono ?_
  rintro _ t ⟨-, -, mappings, hseen, hmappings⟩
  have hstart := Pager.outlook_ofConfig config (.attach .swap name (.ram disk))
  rw [hseen]
  refine Outlook.ext rfl (funext fun o => ite_self _) (funext fun q => ?_) rfl rfl
  show (if q = pid then mappings q else none) = Function.update (fun _ => none) pid _ q
  rw [Function.update_apply]
  by_cases hq : q = pid
  · rw [if_pos hq, if_pos hq, hmappings, hq, if_pos hpid]
  · rw [if_neg hq, if_neg hq]

end PagerM

namespace PagerThreads

variable {threads : Nat} {config : Config} {name : String} {disk : RamDisk}
  {registered : List Nat} {registrations : List Answer} {t u : Traced} {pid : Fin threads → Nat}
  {requests : Fin threads → List ThreadRequest} {schedule : List (Fin threads)}

/-- Threads that have yet to start. -/
def starting (pid : Fin threads → Nat) (requests : Fin threads → List ThreadRequest) :
    PagerThreads threads :=
  fun i => .starting (pid i) (requests i)

theorem pins_starting (pid : Fin threads → Nat) (requests : Fin threads → List ThreadRequest) :
    (starting pid requests).pins = [] := by
  rw [pins, List.filterMap_eq_nil_iff]
  exact fun i _ => rfl

/-- With their processes registered, threads are ready to start. -/
theorem sharedBy_starting (hdisk : disk.sectors ≤ 2 ^ 32) (hpids : Function.Injective pid)
    (hregister : (Pager.run (registered.map .register)).run
      (.start config (.attach .swap name (.ram disk))) = .ok registrations t)
    (hmem : ∀ i, pid i ∈ registered)
    (horderly : ∀ i, ThreadRequest.Orderly config (requests i)) :
    SharedBy config (Pager.ofConfig config (.attach .swap name (.ram disk))).swap.slots
      (starting pid requests) t := by
  have hsound : (Pager.ofConfig config (.attach .swap name (.ram disk))).Sound :=
    Pager.sound_ofConfig config hdisk
  have howned := Pager.owned_ofConfig config (.attach .swap name (.ram disk))
  have hsteps := PagerM.ensures_run _ _ _ _ hregister
  obtain ⟨hframes, htallied, mappings, hseen, hmappings⟩ := PagerM.ensures_run_register registered
    (.start config (.attach .swap name (.ram disk))) hsound (.start config rfl rfl) _ _ hregister
  constructor
  case owned => exact hsteps.owned howned
  case sound =>
    refine hsteps.sound ?_ hsound
    rintro change ⟨op, hop, hchanges⟩
    obtain ⟨q, -, rfl⟩ := List.mem_map.1 hop
    have hplans : (Op.register q).plans = false := rfl
    exact Op.ne_plan hplans hchanges
  case equipped =>
    have hhealthy := Block.Healthy.attach name hdisk
    exact hsteps.equipped howned (Pager.equipped_ofConfig config hhealthy)
  case tallied => exact htallied
  case pinned =>
    rw [hframes, pins_starting]
    exact .ofSize _
  case ready =>
    intro i
    refine ⟨?_, .inr ?_, fun c hphase => ?_⟩
    · rw [(hsteps.owned howned).config_eq]
      exact horderly i
    · rw [hseen]
      exact (hmappings _).trans (if_pos (hmem i))
    · cases hphase
  case distinct => exact fun i j hpid => hpids hpid

/-- What the thread of a process comes to while it shares the pager with others. -/
structure Undisturbed (config : Config) (pid : Nat) (requests : List ThreadRequest)
    (th : PagerThread) (t : Traced) : Prop where
  /-- The frame in which a piece is moved is still owned by the page that it was pinned for. -/
  moves : ∀ c f, th.phase = .moving c f →
    t.pager.frames.owner f = .ok (some ⟨pid, pageFloor c.piece.addr⟩)
  /-- The frame that is unpinned after that is pinned. -/
  unpins : ∀ f, th.phase.pinned = some f → t.pager.frames.isPinned f = .ok true
  /-- The answers so far are those of the requests of a process by itself. -/
  answered : th.answers <+: (Outlook.ofProcess config.layout pid).answers pid requests
  /-- At the end of the requests they are all there. -/
  ended : th.phase = .between → th.requests = [] →
    th.answers = (Outlook.ofProcess config.layout pid).answers pid requests
  /-- They are the answers too where no other process is there at all. -/
  alone : ∀ (config' : Config) (name' : String) (disk' : RamDisk) (first : Answer)
    (answers : List Answer) (t' : Traced), config'.layout = config.layout →
      disk'.sectors ≤ 2 ^ 32 →
      (Pager.run (.register pid :: requests.map (ThreadRequest.op pid))).run
        (.start config' (.attach .swap name' (.ram disk'))) = .ok (first :: answers) t' →
      answers = (Outlook.ofProcess config.layout pid).answers pid requests

/-- Threads of one process each can share the pager, as long as there is a frame for every thread
and fewer pages are declared than there are frames and slots. Whatever order their steps are taken
in, and wherever the schedule stops, none of them panics and no thread is disturbed by another. -/
theorem undisturbed_of_run (hbase : config.physBase ≤ 2 ^ 32)
    (hstack : config.maxStack ≤ config.physBase)
    (hframes : poolBase + config.userFrames * pageSize ≤ 2 ^ 32) (hdisk : disk.sectors ≤ 2 ^ 32)
    (hthreads : threads ≤ config.userFrames) (hpids : Function.Injective pid)
    (hregister : (Pager.run (registered.map .register)).run
      (.start config (.attach .swap name (.ram disk))) = .ok registrations t)
    (hmem : ∀ i, pid i ∈ registered)
    (horderly : ∀ i, ThreadRequest.Orderly config (requests i))
    (hbounded : Bounded config (starting pid requests) schedule t) :
    ∃ ts u, ((starting pid requests).run schedule).run t = .ok ts u ∧
      ∀ i, Undisturbed config (pid i) (requests i) (ts i) u := by
  have hstart := sharedBy_starting hdisk hpids hregister hmem horderly
  obtain ⟨ts, u, hrun, hshared, hsame⟩ :=
    hstart.ends_run schedule ⟨hbase, hstack, hframes⟩ hthreads hbounded
  refine ⟨ts, u, hrun, fun i => ?_⟩
  have hpid : (ts i).pid = pid i := (hsame i).1
  have houtcome : ts.outcome u i = (Outlook.ofProcess config.layout (pid i)).answers (pid i)
      (requests i) := by
    have halone := PagerM.ensures_run_register_alone hdisk (hmem i) _ _ hregister
    rw [(hsame i).2, outcome]
    exact congrArg (fun v => Outlook.answers v (pid i) (requests i)) halone
  have howner : ∀ a ∈ (ts i).pin?, u.pager.frames.ownerOf a.frame = some a.owner :=
    fun a ha => hshared.pinned.ownerOf_eq a (mem_pins_of_pin? ha)
  refine ⟨fun c f hphase => ?_, fun f hpinned => ?_, ?_, fun hphase hrequests => ?_, ?_⟩
  · refine FramePool.owner_of_ownerOf (howner ⟨f, ⟨pid i, pageFloor c.piece.addr⟩⟩ ?_)
    rw [← hpid]
    exact PagerThread.pin?_of_moving hphase
  · obtain ⟨a, ha, rfl⟩ := PagerThread.exists_pin_of_pinned hpinned
    exact FramePool.isPinned_of_pos (hshared.pinned.pinsOf_pos (mem_pins_of_pin? ha))
  · rw [← houtcome]
    exact List.prefix_append _ _
  · rw [← houtcome, outcome, PagerThread.expects_of_between hphase, hrequests]
    exact (List.append_nil _).symm
  · intro config' name' disk' first answers t' hlayout hdisk' halone
    rw [← hlayout]
    exact PagerM.ensures_run_alone hdisk' (pid i) (requests i) _ _ halone

/-- Two threads write to the same address of their processes. One of them has torn its process
down, and the other one is about to move the bytes that it writes. -/
theorem undisturbed_of_run_two : ∃ (requests : Fin 2 → List ThreadRequest)
    (registrations : List Answer) (t : Traced) (ts : PagerThreads 2) (u : Traced),
    requests = (fun i => [.declare 0x1000 true, .write 0x1ffe #[7, .ofNat i] 0, .destroy]) ∧
    (Pager.run ([1, 2].map .register)).run (.start { userFrames := 2, swapSlots := 4 }
      (.attach .swap "swap" (.ram (.blank 64)))) = .ok registrations t ∧
    ((starting (fun i => i.val + 1) requests).run [0, 1, 0, 1, 0, 1, 0, 0, 0]).run t
      = .ok ts u ∧
    (ts 0).answers.length = 3 ∧ (ts 1).phase.pinned = some 1 ∧
    ∀ i, Undisturbed { userFrames := 2, swapSlots := 4 } (i.val + 1) (requests i) (ts i) u := by
  have hruns : ∃ registrations t,
      (Pager.run ([1, 2].map .register)).run (.start { userFrames := 2, swapSlots := 4 }
        (.attach .swap "swap" (.ram (.blank 64)))) = .ok registrations t ∧
      (∀ n ≤ 9, PagerM.Meets ((starting (fun i : Fin 2 => i.val + 1) fun i =>
          [.declare 0x1000 true, .write 0x1ffe #[7, .ofNat i] 0, .destroy]).run
            ([0, 1, 0, 1, 0, 1, 0, 0, 0].take n))
        (fun _ u => u.pager.allPages.length < 2 + u.pager.swap.slots ∧ u.Countable)
        (fun _ u => u.Countable) t) ∧
      PagerM.Meets ((starting (fun i : Fin 2 => i.val + 1) fun i =>
          [.declare 0x1000 true, .write 0x1ffe #[7, .ofNat i] 0, .destroy]).run
            [0, 1, 0, 1, 0, 1, 0, 0, 0])
        (fun ts _ => (ts 0).answers.length = 3 ∧ (ts 1).phase.pinned = some 1)
        (fun _ _ => True) t := by
    decide +kernel
  obtain ⟨registrations, t, h, hsteps, hlast⟩ := hruns
  have horderly : ∀ i : Fin 2, ThreadRequest.Orderly { userFrames := 2, swapSlots := 4 }
      [.declare 0x1000 true, .write 0x1ffe #[7, .ofNat i] 0, .destroy] :=
    fun i => ⟨by decide, by decide, rfl⟩
  have hbounded : Bounded { userFrames := 2, swapSlots := 4 } (starting (fun i => i.val + 1)
      fun i => [.declare 0x1000 true, .write 0x1ffe #[7, .ofNat i] 0, .destroy])
      [0, 1, 0, 1, 0, 1, 0, 0, 0] t :=
    ⟨fun n hn => (hsteps n hn).ensures.mono fun _ _ hfits => hfits.1,
      fun n hn => (hsteps n hn).mono (fun _ _ hfits => hfits.2) fun _ _ hcount => hcount⟩
  obtain ⟨ts, u, hrun, hundisturbed⟩ := undisturbed_of_run (by decide) (by decide) (by decide)
    (by decide) (by decide) (fun i j hij => Fin.ext (Nat.succ.inj hij)) h (by decide) horderly
    hbounded
  obtain ⟨hanswers, hpinned⟩ := hlast.ensures ts u hrun
  exact ⟨_, registrations, t, ts, u, rfl, h, hrun, hanswers, hpinned, hundisturbed⟩

end PagerThreads

end DemandPaging
