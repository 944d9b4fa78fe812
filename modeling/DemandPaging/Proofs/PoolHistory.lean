import DemandPaging.Frame.Run
import DemandPaging.Proofs.Availability
import DemandPaging.Proofs.Histories
import Mathlib.Data.List.DropRight

/-!
# The frame pool and its history

The frame pool keeps its books in five places: the core map, the table of owners, the number of
frames in use, the replacement order and the cursor of the search. Its six calls may come in any
order. What the books have to say after a run can be told from the *history* of the run alone: which
frames were picked as victims and are still to be handed on, how many pins a frame got and lost
since it was handed out, and which frame was handed out last.

`FramePool.Follows` ties the books to the history. Each call that does not panic keeps it, so it
holds after every run, and the promises in `FramePool.Bookkeeping` are read off it.

A frame that is given back loses the pins that are still on it. So the pins that it got since it was
handed out are the pins on it only as long as it is in use.

## Main definitions

* `FramePool.isWithdrawn`, `FramePool.requestsSince`, `FramePool.searchStart` — what the history
  says.
* `FramePool.FirstFree` — the answer of a search from a given frame on.
* `FramePool.Follows` — the books are as the history says.
* `FramePool.Bookkeeping` — everything a caller may rely on after a run.

## Main results

* `FramePool.Follows.step`, `FramePool.Follows.run` — every call and every run follows the history.
* `FramePool.bookkeeping_of_run` — the books of a pool of any size are right after every run.
* `FramePool.pins_dropped_by_release` — a frame that is given back with a pin on it.
-/

namespace DemandPaging

namespace FramePool

variable {p q : FramePool} {o : FrameOwner} {f g : Nat} {withdrawn : List Nat}
  {history before : List Event} {e : Event} {request : Request}

/-! ### What a history says -/

/-- The frame that a call took. -/
def Event.taken? (e : Event) : Option Nat :=
  match e.request, e.answer with
  | .allocate _, .frame found => found
  | _, _ => none

/-- Whether a call took `frame` out of the replacement order as a victim, or is done with it. -/
def Event.withdrawal? (e : Event) (frame : Nat) : Option Bool :=
  match e.request, e.answer with
  | .victim, .frame found => if found = some frame then some true else none
  | .reassign i _, _ | .release i, _ => if i = frame then some false else none
  | _, _ => none

/-- Whether a frame was picked as a victim and has been neither handed on nor given back since. -/
def isWithdrawn (history : List Event) (frame : Nat) : Bool :=
  (History.last? (·.withdrawal? frame) history).getD false

/-- The calls that followed when `frame` was taken last. -/
def sinceTaken (history : List Event) (frame : Nat) : List Event :=
  history.rtakeWhile fun e => e.taken? ≠ some frame

/-- How often `request` was made since `frame` was taken last. -/
def requestsSince (history : List Event) (frame : Nat) (request : Request) : Nat :=
  (sinceTaken history frame).countP fun e => e.request = request

/-- Where the next search starts: behind the frame that was taken last. -/
def searchStart (history : List Event) : Nat :=
  (History.last? Event.taken? history).elim 0 (· + 1)

theorem isWithdrawn_concat (history : List Event) (e : Event) (f : Nat) :
    isWithdrawn (history ++ [e]) f = (e.withdrawal? f).getD (isWithdrawn history f) := by
  rw [isWithdrawn, History.last?_concat]
  cases e.withdrawal? f <;> rfl

theorem searchStart_concat (history : List Event) (e : Event) :
    searchStart (history ++ [e]) = e.taken?.elim (searchStart history) (· + 1) := by
  rw [searchStart, History.last?_concat]
  cases e.taken? <;> rfl

theorem requestsSince_concat (history : List Event) (e : Event) (f : Nat) (request : Request) :
    requestsSince (history ++ [e]) f request = if e.taken? = some f then 0
      else requestsSince history f request + if e.request = request then 1 else 0 := by
  by_cases htaken : e.taken? = some f
  · simp [requestsSince, sinceTaken, htaken]
  · simp [requestsSince, sinceTaken, htaken, List.countP_append, List.countP_singleton]

/-! ### The search -/

/-- `found` is the first free frame from `start` on, when frame 0 follows the last one; it is none
if no frame is free. -/
structure FirstFree (p : FramePool) (start : Nat) (found : Option Nat) : Prop where
  eq_none_iff : found = none ↔ ∀ f < p.size, p.isAllocated f = true
  of_eq_some : ∀ f, found = some f → p.isAllocated f = false ∧ ∃ i < p.size,
    f = (start + i) % p.size ∧ ∀ j < i, p.isAllocated ((start + j) % p.size) = true

theorem Consistent.firstFree (hp : p.Consistent withdrawn) {start : Nat}
    (hcursor : p.cursor = start % p.size) : p.FirstFree start p.nextFree? := by
  have hplace : ∀ i, (p.cursor + i) % p.size = (start + i) % p.size := fun i => by
    rw [hcursor, Nat.mod_add_mod]
  rw [nextFree?]
  by_cases hfull : p.allocated = p.size
  · rw [if_pos hfull]
    exact ⟨⟨fun _ => hp.allocated_eq_size_iff.1 hfull, fun _ => rfl⟩, fun f h => by cases h⟩
  rw [if_neg hfull]
  constructor
  case eq_none_iff =>
    constructor
    · intro hnone f hf
      simpa using List.find?_eq_none.1 hnone f (mem_searchOrder hf)
    · exact fun hall => absurd (hp.allocated_eq_size_iff.2 hall) hfull
  case of_eq_some =>
    intro f hfind
    obtain ⟨hfree, i, hi, hget, hbefore⟩ := List.find?_eq_some_iff_getElem.1 hfind
    have hlt : i < p.size := by simpa [searchOrder] using hi
    simp only [searchOrder, List.getElem_map, List.getElem_range, hplace,
      Bool.not_not] at hget hbefore
    exact ⟨by simpa using hfree, i, hlt, hget.symm, hbefore⟩

/-- The answer to an allocation is what the search finds. -/
theorem found_of_tryAllocate {found : Option Nat} (h : p.tryAllocate o = .ok (found, q)) :
    found = p.nextFree? := by
  rw [tryAllocate] at h
  cases hn : p.nextFree? with
  | none =>
    rw [hn] at h
    cases h
    rfl
  | some f =>
    simp only [hn, except_bind_eq_ok, except_pure_eq_ok, Prod.mk.injEq] at h
    obtain ⟨-, -, -, -, rfl, -⟩ := h
    rfl

/-! ### What the calls leave alone -/

theorem selectVictim_eq_none (h : p.selectVictim = (none, q)) : q = p := by
  simp only [selectVictim, Fifo.selectVictim] at h
  split at h
  next => exact (Prod.mk.inj h).2.symm
  next => cases (Prod.mk.inj h).1

theorem cursor_selectVictim {found : Option Nat} (h : p.selectVictim = (found, q)) :
    q.cursor = p.cursor := by
  obtain rfl : p.selectVictim.2 = q := congrArg Prod.snd h
  rfl

theorem cursor_reassign (h : p.reassign f o = .ok q) : q.cursor = p.cursor := by
  simp only [reassign, except_bind_eq_ok, except_ite_eq_ok, except_throw_ne_ok, except_pure_eq_ok,
    false_and, exists_false, and_false, or_false, false_or] at h
  obtain ⟨e, -, -, -, -, order, -, rfl⟩ := h
  rfl

theorem cursor_release (h : p.release f = .ok q) : q.cursor = p.cursor := by
  simp only [release, except_bind_eq_ok, except_ite_eq_ok, except_throw_ne_ok, except_pure_eq_ok,
    false_and, exists_false, and_false, or_false] at h
  obtain ⟨e, -, -, allocated, -, rfl⟩ := h
  rfl

theorem cursor_pin (h : p.pin f = .ok q) : q.cursor = p.cursor := by
  simp only [pin, except_bind_eq_ok, except_ite_eq_ok, except_throw_ne_ok, except_pure_eq_ok,
    false_and, exists_false, and_false, or_false] at h
  obtain ⟨e, -, -, -, rfl⟩ := h
  rfl

theorem cursor_unpin (h : p.unpin f = .ok q) : q.cursor = p.cursor := by
  simp only [unpin, except_bind_eq_ok, except_ite_eq_ok, except_throw_ne_ok, except_pure_eq_ok,
    false_and, exists_false, and_false, or_false] at h
  obtain ⟨e, -, -, rfl⟩ := h
  rfl

/-! ### Frames that are handed on or given back -/

namespace Consistent

/-- A frame is in use exactly if its last owner is still recorded. -/
theorem isAllocated_of_update (hp : p.Consistent withdrawn) {others : List Nat}
    (hq : q.Consistent others) {v : Option FrameOwner}
    (howner : q.ownerOf = Function.update p.ownerOf f v) (g : Nat) :
    q.isAllocated g = if g = f then v.isSome else p.isAllocated g := by
  rw [← hq.isSome_ownerOf, howner, Function.update_apply]
  split
  · rfl
  · exact hp.isSome_ownerOf g

theorem isAllocated_of_ownerOf_eq (hp : p.Consistent withdrawn) {others : List Nat}
    (hq : q.Consistent others) (howner : q.ownerOf = p.ownerOf) (g : Nat) :
    q.isAllocated g = p.isAllocated g := by
  rw [← hq.isSome_ownerOf, howner, hp.isSome_ownerOf]

theorem nodup_withdrawn (hp : p.Consistent withdrawn) : withdrawn.Nodup :=
  (List.nodup_append.1 hp.nodup).2.1

/-- Only a withdrawn frame can be handed on. -/
theorem mem_withdrawn_of_reassign (hp : p.Consistent withdrawn) (h : p.reassign f o = .ok q) :
    f ∈ withdrawn := by
  simp only [FramePool.reassign, Fifo.assign, except_bind_eq_ok, entry_eq_ok, except_ite_eq_ok,
    except_throw_ne_ok, except_pure_eq_ok, reduceCtorEq, false_and, exists_false, and_false,
    or_false, false_or] at h
  obtain ⟨e, he, halloc, -, order, ⟨hqueue, -⟩, -⟩ := h
  have hmem := (hp.mem_iff f).2 ((isAllocated_of_getElem? he).trans halloc)
  exact (List.mem_append.1 hmem).resolve_left (by simpa using hqueue)

/-- A withdrawn frame is given back as if it had been put into the replacement order before. -/
theorem release_erase (hp : p.Consistent withdrawn) (h : p.release f = .ok q) :
    q.Consistent (withdrawn.erase f) ∧ q.size = p.size ∧
      q.ownerOf = Function.update p.ownerOf f none := by
  by_cases hf : f ∈ withdrawn
  · have hqueued := (hp.perm (List.perm_cons_erase hf)).requeue
    have hsame : FramePool.release { p with order := ⟨p.order.queue ++ [f]⟩ } f = .ok q := by
      rw [← h]
      simp [FramePool.release, Fifo.release, entry, setEntry, setOwner]
    obtain ⟨hq, hsize, -, howner⟩ := hqueued.release hp.nodup_withdrawn.not_mem_erase hsame
    exact ⟨hq, hsize, howner⟩
  · obtain ⟨hq, hsize, -, howner⟩ := hp.release hf h
    rw [List.erase_of_not_mem hf]
    exact ⟨hq, hsize, howner⟩

end Consistent

/-! ### Calls follow the history -/

/-- The books are as the history says. The frames in `withdrawn` were picked as victims and are
still to be handed on. -/
structure Follows (p : FramePool) (history : List Event) (withdrawn : List Nat) : Prop where
  consistent : p.Consistent withdrawn
  mem_withdrawn : ∀ f, f ∈ withdrawn ↔ isWithdrawn history f = true
  pins_add : ∀ f, p.isAllocated f = true →
    p.pinsOf f + requestsSince history f (.unpin f) = requestsSince history f (.pin f)
  pins_free : ∀ f, p.isAllocated f = false → p.pinsOf f = 0
  cursor_eq : p.cursor = searchStart history % p.size

namespace Follows

variable {others : List Nat}

/-- The books follow one more call, from what the call did to the pool. -/
theorem concat (h : p.Follows history withdrawn) (e : Event) (hcons : q.Consistent others)
    (hsize : q.size = p.size)
    (hothers : ∀ f, f ∈ others ↔
      e.withdrawal? f = some true ∨ e.withdrawal? f = none ∧ f ∈ withdrawn)
    (htaken : ∀ f, e.taken? = some f → q.pinsOf f = 0)
    (hkept : ∀ f, q.isAllocated f = true → e.taken? ≠ some f → p.isAllocated f = true ∧
      (q.pinsOf f + if e.request = .unpin f then 1 else 0) =
        p.pinsOf f + if e.request = .pin f then 1 else 0)
    (hfree : ∀ f, q.isAllocated f = false → q.pinsOf f = 0)
    (hcursor : q.cursor = e.taken?.elim p.cursor fun f => (f + 1) % p.size) :
    q.Follows (history ++ [e]) others where
  consistent := hcons
  mem_withdrawn f := by
    rw [hothers, isWithdrawn_concat, h.mem_withdrawn]
    cases e.withdrawal? f <;> simp
  pins_add f hf := by
    rw [requestsSince_concat, requestsSince_concat]
    by_cases hnew : e.taken? = some f
    -- the count of a frame that was just taken begins anew, so it must be free of pins
    · rw [if_pos hnew, if_pos hnew, htaken f hnew]
    · obtain ⟨hused, hcount⟩ := hkept f hf hnew
      have hbefore := h.pins_add f hused
      rw [if_neg hnew, if_neg hnew]
      omega
  pins_free := hfree
  cursor_eq := by
    rw [hcursor, searchStart_concat, hsize]
    cases e.taken? with
    | none => exact h.cursor_eq
    | some f => rfl

/-- A call that finds nothing changes nothing. -/
theorem idle (h : p.Follows history withdrawn) (htaken : e.taken? = none)
    (hwithdrawal : ∀ f, e.withdrawal? f = none) (hpin : ∀ f, e.request ≠ .pin f)
    (hunpin : ∀ f, e.request ≠ .unpin f) : p.Follows (history ++ [e]) withdrawn := by
  refine h.concat e h.consistent rfl (fun f => by simp [hwithdrawal]) (fun f hf => ?_)
    (fun f hf _ => ⟨hf, by rw [if_neg (hpin f), if_neg (hunpin f)]⟩) h.pins_free ?_
  · rw [htaken] at hf
    cases hf
  · rw [htaken]
    rfl

theorem allocate (h : p.Follows history withdrawn) {found : Option Nat}
    (hcall : p.tryAllocate o = .ok (found, q)) :
    q.Follows (history ++ [⟨.allocate o, .frame found⟩]) withdrawn ∧ q.size = p.size := by
  obtain ⟨hq, hsize, hfound⟩ := h.consistent.tryAllocate hcall
  have hpins := pinsOf_tryAllocate hcall
  cases found with
  | none =>
    obtain rfl : q = p := hfound
    exact ⟨h.idle rfl (fun _ => rfl) (by simp) (by simp), rfl⟩
  | some f =>
    obtain ⟨hfree, howner⟩ := hfound
    have hused := h.consistent.isAllocated_of_update hq howner
    refine ⟨h.concat _ hq hsize (by simp [Event.withdrawal?]) (fun g hg => ?_) (fun g hg hne => ?_)
      (fun g hg => ?_) ?_, hsize⟩
    · obtain rfl : f = g := Option.some.inj hg
      rw [hpins, h.pins_free f hfree]
    · have hgf : g ≠ f := fun heq => hne (congrArg some heq.symm)
      rw [hused, if_neg hgf] at hg
      exact ⟨hg, by simp [hpins]⟩
    · by_cases hgf : g = f
      · rw [hused, if_pos hgf] at hg
        cases hg
      · rw [hused, if_neg hgf] at hg
        rw [hpins, h.pins_free g hg]
    · rcases tryAllocate_eq_ok hcall with ⟨hnone, -⟩ | ⟨f', e, hsome, -, -, rfl⟩
      · cases hnone
      · cases hsome
        rfl

theorem victim (h : p.Follows history withdrawn) {found : Option Nat}
    (hcall : p.selectVictim = (found, q)) :
    (∃ others, q.Follows (history ++ [⟨.victim, .frame found⟩]) others) ∧ q.size = p.size := by
  cases found with
  | none =>
    obtain rfl := selectVictim_eq_none hcall
    exact ⟨⟨withdrawn, h.idle rfl (fun _ => rfl) (by simp) (by simp)⟩, rfl⟩
  | some f =>
    obtain ⟨hq, hsize, howner⟩ := h.consistent.selectVictim hcall
    have hpins := (pinsOf_selectVictim hcall).1
    have hused := h.consistent.isAllocated_of_ownerOf_eq hq howner
    refine ⟨⟨_, h.concat _ hq hsize (fun g => ?_) (fun g hg => by cases hg) (fun g hg _ => ?_)
      (fun g hg => ?_) (cursor_selectVictim hcall)⟩, hsize⟩
    · by_cases hgf : f = g
      · simp [Event.withdrawal?, hgf]
      · simp [Event.withdrawal?, hgf, Ne.symm hgf]
    · exact ⟨hused g ▸ hg, by simp [hpins]⟩
    · rw [hpins, h.pins_free g (hused g ▸ hg)]

/-- After a call that is done with `f`, the other withdrawn frames are left. -/
theorem mem_erase (h : p.Follows history withdrawn)
    (hdone : ∀ g, e.withdrawal? g = if f = g then some false else none) (g : Nat) :
    g ∈ withdrawn.erase f ↔
      e.withdrawal? g = some true ∨ e.withdrawal? g = none ∧ g ∈ withdrawn := by
  rw [h.consistent.nodup_withdrawn.mem_erase_iff, hdone]
  by_cases hgf : f = g
  · simp [hgf]
  · simp [hgf, Ne.symm hgf]

theorem reassign (h : p.Follows history withdrawn) (hcall : p.reassign f o = .ok q) :
    q.Follows (history ++ [⟨.reassign f o, .done⟩]) (withdrawn.erase f) ∧ q.size = p.size := by
  have hmem := h.consistent.mem_withdrawn_of_reassign hcall
  obtain ⟨hq, hsize, howner⟩ :=
    (h.consistent.perm (List.perm_cons_erase hmem)).reassign hcall
  have hpins := pinsOf_reassign hcall
  have hin : p.isAllocated f = true :=
    (h.consistent.mem_iff f).1 (List.mem_append_right _ hmem)
  have hused : ∀ g, q.isAllocated g = p.isAllocated g := by
    intro g
    rw [h.consistent.isAllocated_of_update hq howner]
    split
    · rw [‹g = f›, hin, Option.isSome_some]
    · rfl
  refine ⟨h.concat _ hq hsize (h.mem_erase fun _ => rfl) (fun g hg => by cases hg)
    (fun g hg _ => ?_) (fun g hg => ?_) (cursor_reassign hcall), hsize⟩
  · exact ⟨hused g ▸ hg, by simp [hpins]⟩
  · rw [hpins, h.pins_free g (hused g ▸ hg)]

/-- A frame that is given back loses its pins. -/
theorem release (h : p.Follows history withdrawn) (hcall : p.release f = .ok q) :
    q.Follows (history ++ [⟨.release f, .done⟩]) (withdrawn.erase f) ∧ q.size = p.size := by
  obtain ⟨hq, hsize, howner⟩ := h.consistent.release_erase hcall
  have hpins := pinsOf_release hcall
  have hused := h.consistent.isAllocated_of_update hq howner
  refine ⟨h.concat _ hq hsize (h.mem_erase fun _ => rfl) (fun g hg => by cases hg)
    (fun g hg _ => ?_) (fun g hg => ?_) (cursor_release hcall), hsize⟩
  · have hgf : g ≠ f := by
      rintro rfl
      rw [hused, if_pos rfl] at hg
      cases hg
    rw [hused, if_neg hgf] at hg
    exact ⟨hg, by simp [hpins, hgf]⟩
  · rw [hpins]
    by_cases hgf : g = f
    · rw [hgf, Function.update_self]
    · rw [hused, if_neg hgf] at hg
      rw [Function.update_of_ne hgf, h.pins_free g hg]

theorem pin (h : p.Follows history withdrawn) (hcall : p.pin f = .ok q) :
    q.Follows (history ++ [⟨.pin f, .done⟩]) withdrawn ∧ q.size = p.size := by
  obtain ⟨hq, hsize, howner⟩ := h.consistent.pin hcall
  have hpins := pinsOf_pin hcall
  have hused := h.consistent.isAllocated_of_ownerOf_eq hq howner
  refine ⟨h.concat _ hq hsize (by simp [Event.withdrawal?]) (fun g hg => by cases hg)
    (fun g hg _ => ⟨hused g ▸ hg, ?_⟩) (fun g hg => ?_) (cursor_pin hcall), hsize⟩
  · rw [hpins]
    by_cases hgf : f = g
    · simp [hgf]
    · simp [hgf, Ne.symm hgf]
  · rw [hused] at hg
    have hgf : g ≠ f := by
      rintro rfl
      rw [isAllocated_of_pin hcall] at hg
      cases hg
    rw [hpins, Function.update_of_ne hgf, h.pins_free g hg]

theorem unpin (h : p.Follows history withdrawn) (hcall : p.unpin f = .ok q) :
    q.Follows (history ++ [⟨.unpin f, .done⟩]) withdrawn ∧ q.size = p.size := by
  obtain ⟨hq, hsize, howner⟩ := h.consistent.unpin hcall
  obtain ⟨hpos, hpins⟩ := pinsOf_unpin hcall
  have hused := h.consistent.isAllocated_of_ownerOf_eq hq howner
  refine ⟨h.concat _ hq hsize (by simp [Event.withdrawal?]) (fun g hg => by cases hg)
    (fun g hg _ => ⟨hused g ▸ hg, ?_⟩) (fun g hg => ?_) (cursor_unpin hcall), hsize⟩
  · rw [hpins]
    by_cases hgf : f = g
    · subst hgf
      simp
      omega
    · simp [hgf, Ne.symm hgf]
  · rw [hused] at hg
    have hgf : g ≠ f := by
      rintro rfl
      rw [h.pins_free g hg] at hpos
      cases hpos
    rw [hpins, Function.update_of_ne hgf, h.pins_free g hg]

/-- Every call follows the history. -/
theorem step (h : p.Follows history withdrawn) {answer : Answer}
    (hcall : p.serve request = .ok (answer, q)) :
    (∃ others, q.Follows (history ++ [⟨request, answer⟩]) others) ∧ q.size = p.size := by
  cases request with
  | allocate owner =>
    simp only [serve, except_bind_eq_ok, except_pure_eq_ok, Prod.exists, Prod.mk.injEq] at hcall
    obtain ⟨found, _, hcall, rfl, rfl⟩ := hcall
    exact (h.allocate hcall).imp_left (Exists.intro _)
  | victim =>
    simp only [serve, except_pure_eq_ok, Prod.mk.injEq] at hcall
    obtain ⟨rfl, rfl⟩ := hcall
    exact h.victim rfl
  | reassign frame owner =>
    simp only [serve, except_bind_eq_ok, except_pure_eq_ok, Prod.mk.injEq] at hcall
    obtain ⟨_, hcall, rfl, rfl⟩ := hcall
    exact (h.reassign hcall).imp_left (Exists.intro _)
  | release frame =>
    simp only [serve, except_bind_eq_ok, except_pure_eq_ok, Prod.mk.injEq] at hcall
    obtain ⟨_, hcall, rfl, rfl⟩ := hcall
    exact (h.release hcall).imp_left (Exists.intro _)
  | pin frame =>
    simp only [serve, except_bind_eq_ok, except_pure_eq_ok, Prod.mk.injEq] at hcall
    obtain ⟨_, hcall, rfl, rfl⟩ := hcall
    exact (h.pin hcall).imp_left (Exists.intro _)
  | unpin frame =>
    simp only [serve, except_bind_eq_ok, except_pure_eq_ok, Prod.mk.injEq] at hcall
    obtain ⟨_, hcall, rfl, rfl⟩ := hcall
    exact (h.unpin hcall).imp_left (Exists.intro _)

/-- Every run follows the history, from wherever it starts. -/
theorem run (h : p.Follows before withdrawn) {requests : List Request}
    (hrun : FramePool.run requests p = .ok (history, q)) :
    (∃ others, q.Follows (before ++ history) others) ∧ q.size = p.size ∧
      history.map Event.request = requests := by
  induction requests generalizing p before withdrawn history with
  | nil =>
    cases hrun
    rw [List.append_nil]
    exact ⟨⟨_, h⟩, rfl, rfl⟩
  | cons request rest ih =>
    simp only [FramePool.run, except_bind_eq_ok, except_pure_eq_ok, Prod.exists,
      Prod.mk.injEq] at hrun
    obtain ⟨answer, p₁, hcall, later, _, hrest, rfl, rfl⟩ := hrun
    obtain ⟨⟨_, h₁⟩, hsize₁⟩ := h.step hcall
    obtain ⟨⟨_, h₂⟩, hsize₂, hrequests⟩ := ih h₁ hrest
    rw [List.append_assoc] at h₂
    exact ⟨⟨_, h₂⟩, hsize₂.trans hsize₁, by rw [List.map_cons, hrequests]⟩

theorem ofSize (frames : Nat) : (ofSize frames).Follows [] [] where
  consistent := .ofSize frames
  mem_withdrawn f := by simp [isWithdrawn, History.last?]
  pins_add f hf := by
    rw [isAllocated_ofSize] at hf
    cases hf
  pins_free f _ := pinsOf_ofSize frames f
  cursor_eq := (Nat.zero_mod _).symm

end Follows

/-! ### What a caller may rely on -/

/-- What a caller may rely on after a run of calls on a pool of `frames` frames. -/
structure Bookkeeping (frames : Nat) (history : List Event) (p : FramePool) : Prop where
  size_eq : p.size = frames
  /-- The frames in use are counted right. -/
  allocated_eq : p.allocated = (List.range frames).countP p.isAllocated
  /-- The frames in use are those with an owner. -/
  owner : ∀ f < frames, ∃ v, p.owner f = .ok v ∧ v.isSome = p.isAllocated f
  isAllocated_of_pins : ∀ f, p.pinsOf f ≠ 0 → p.isAllocated f = true
  /-- A frame in use has the pins that it got and did not lose since it was taken. -/
  pins_eq : ∀ f, p.isAllocated f = true →
    (p.pinsOf f : Int) = requestsSince history f (.pin f) - requestsSince history f (.unpin f)
  nodup_queue : p.order.queue.Nodup
  /-- The frames in use wait in the replacement order, except for the withdrawn ones. -/
  mem_queue : ∀ f, f ∈ p.order.queue ↔ p.isAllocated f = true ∧ isWithdrawn history f = false
  isAllocated_of_withdrawn : ∀ f, isWithdrawn history f = true → p.isAllocated f = true
  /-- An allocation does not panic, and it takes the first free frame behind the one that was taken
  last. -/
  allocation : ∀ o, ∃ found q,
    p.tryAllocate o = .ok (found, q) ∧ p.FirstFree (searchStart history) found

theorem Consistent.allocated_eq_countP (hp : p.Consistent withdrawn) :
    p.allocated = (List.range p.size).countP p.isAllocated := by
  have hperm : ((List.range p.size).filter p.isAllocated).Perm (p.order.queue ++ withdrawn) := by
    refine (List.perm_ext_iff_of_nodup (List.nodup_range.filter _) hp.nodup).2 fun f => ?_
    rw [hp.mem_iff, List.mem_filter, List.mem_range]
    exact and_iff_right_of_imp lt_size_of_isAllocated
  rw [List.countP_eq_length_filter, hperm.length_eq, hp.allocated_eq]

theorem owner_of_lt (hf : f < p.owners.size) : p.owner f = .ok (p.ownerOf f) := by
  simp [owner, ownerOf, hf]

/-- The books of a pool of any size are right after every run that does not panic. -/
theorem bookkeeping_of_run (frames : Nat) {requests : List Request}
    (h : run requests (ofSize frames) = .ok (history, p)) :
    history.map Event.request = requests ∧ Bookkeeping frames history p := by
  obtain ⟨⟨withdrawn, hp⟩, hsize, hrequests⟩ := (Follows.ofSize frames).run h
  rw [List.nil_append] at hp
  replace hsize : p.size = frames := hsize.trans Array.size_replicate
  have hcons := hp.consistent
  refine ⟨hrequests, ?_⟩
  constructor
  case size_eq => exact hsize
  case allocated_eq => rw [← hsize, hcons.allocated_eq_countP]
  case owner =>
    intro f hf
    rw [← hsize, size, ← hcons.size_owners] at hf
    exact ⟨_, owner_of_lt hf, hcons.isSome_ownerOf f⟩
  case isAllocated_of_pins =>
    intro f hf
    by_contra hfree
    exact hf (hp.pins_free f (Bool.not_eq_true _ ▸ hfree))
  case pins_eq =>
    intro f hf
    have := hp.pins_add f hf
    omega
  case nodup_queue => exact (List.nodup_append.1 hcons.nodup).1
  case mem_queue =>
    intro f
    rw [← hcons.mem_iff, List.mem_append, ← Bool.not_eq_true, ← hp.mem_withdrawn]
    constructor
    · exact fun hf => ⟨.inl hf, fun hw => (List.nodup_append.1 hcons.nodup).2.2 f hf f hw rfl⟩
    · exact fun hf => hf.1.resolve_right hf.2
  case isAllocated_of_withdrawn =>
    intro f hf
    exact (hcons.mem_iff f).1 (List.mem_append_right _ ((hp.mem_withdrawn f).2 hf))
  case allocation =>
    intro o
    have hfirst := hcons.firstFree hp.cursor_eq
    rcases hcons.tryAllocate_cases o with ⟨-, f, q, hcall⟩ | ⟨-, hcall⟩
    · exact ⟨_, q, hcall, found_of_tryAllocate hcall ▸ hfirst⟩
    · exact ⟨_, p, hcall, found_of_tryAllocate hcall ▸ hfirst⟩

/-- Three frames are taken. The oldest of them is pinned, so the second one is picked as a victim
and handed on; the third one is picked and given back instead. The pinned one is given back with its
pin and taken again. -/
def turnover : List Request :=
  [.allocate ⟨1, 0x1000⟩, .allocate ⟨1, 0x2000⟩, .allocate ⟨2, 0x1000⟩, .pin 0, .victim,
    .reassign 1 ⟨2, 0x2000⟩, .victim, .release 2, .release 0, .allocate ⟨3, 0x1000⟩, .pin 0,
    .victim]

theorem bookkeeping_turnover :
    ∃ history p, run turnover (ofSize 3) = .ok (history, p) ∧
      history.filterMap Event.taken? = [0, 1, 2, 0] ∧
      (List.range 3).map (isWithdrawn history) = [false, true, false] ∧
      (List.range 3).map p.pinsOf = [1, 0, 0] ∧
      history.map Event.request = turnover ∧ Bookkeeping 3 history p :=
  ⟨_, _, rfl, by decide, by decide, by decide, bookkeeping_of_run 3 rfl⟩

/-- A frame that is given back is free, and the pin on it is gone. -/
theorem pins_dropped_by_release :
    ∃ history p, run [.allocate ⟨1, 0x1000⟩, .pin 0, .release 0] (ofSize 1) = .ok (history, p) ∧
      requestsSince history 0 (.pin 0) = 1 ∧ requestsSince history 0 (.unpin 0) = 0 ∧
      p.pinsOf 0 = 0 ∧ p.isPinned 0 = .ok false ∧
      (p.pinsOf 0 : Int) ≠
        requestsSince history 0 (.pin 0) - requestsSince history 0 (.unpin 0) :=
  ⟨_, _, rfl, by decide, by decide, by decide, by decide, by decide⟩

end FramePool

end DemandPaging
