import DemandPaging.Lock.Threads
import Mathlib.Algebra.BigOperators.Fin
import Mathlib.Algebra.BigOperators.Group.Finset.Piecewise

/-!
# No increment is lost under a lock

Threads add one to a number under a lock, and their steps are interleaved in any order. Nothing is
lost if at most one thread at a time is between taking the lock and giving it back: what it has
read is then still there when it stores the successor. With the increments that are yet to be
stored the number always makes the same total, so that it is the total when nothing is left to do.

This part of the argument does not depend on the lock and is done once. It sees of a thread only its
`Share`, and asks of the lock that a thread gets it while no other has it. The spin lock has this
from its flag. The ticket lock has it from a queue that its counters describe without storing it:
the threads that have drawn a ticket stand in the order of their tickets, from the one that is
served to the last that was drawn, and only the head of the queue can have the lock. The counters
wrap around, but as there are fewer than `2 ^ 32` threads no two places in the queue have the same
ticket.

## Main definitions

* `Share`, `Counted` — what a thread has to do with the number, and the invariant of the count.
* `TicketThreads.Lined` — the queue at a ticket lock.
* `CountsExactly` — what holds in every state that a schedule leads to.

## Main results

* `TicketThreads.Sound.step`, `SpinThreads.Sound.step` — every step of a thread keeps the invariant.
* `no_increment_lost` — both locks exclude and count, whatever the schedule.
-/

namespace DemandPaging

/-! ### Counting -/

/-- What a thread has to do with the number. -/
structure Share where
  /-- Whether it has the lock. -/
  holds : Bool
  /-- The number that it read and has not used yet. -/
  seen? : Option Nat
  /-- The increments that it has not stored yet. -/
  owed : Nat

variable {threads total : Nat}

/-- One thread at most has the lock, it has read what is still there, and with the increments to
come the number makes `total`. -/
structure Counted (total value : Nat) (shares : Fin threads → Share) : Prop where
  exclusive : ∀ i j, (shares i).holds = true → (shares j).holds = true → i = j
  seen : ∀ i v, (shares i).seen? = some v → (shares i).holds = true ∧ v = value
  sum_eq : value + ∑ i, (shares i).owed = total

theorem sum_update_add (f : Fin threads → Nat) (i : Fin threads) (b : Nat) :
    ∑ j, Function.update f i b j + f i = ∑ j, f j + b := by
  rw [Finset.sum_update_of_mem (Finset.mem_univ i), ← Finset.erase_eq,
    ← Finset.add_sum_erase _ f (Finset.mem_univ i)]
  omega

namespace Counted

variable {value : Nat} {shares : Fin threads → Share}

theorem others_free (h : Counted total value shares) {i : Fin threads}
    (hi : (shares i).holds = true) (j : Fin threads) (hj : j ≠ i) : (shares j).holds = false := by
  by_contra hheld
  exact hj (h.exclusive j i (by simpa using hheld) hi)

/-- A step of one thread. The number changes only under the lock, and by as much as the thread then
owes less. -/
theorem update (h : Counted total value shares) (i : Fin threads) (new : Share) {value' : Nat}
    (hothers : new.holds = true → ∀ j, j ≠ i → (shares j).holds = false)
    (hseen : ∀ v, new.seen? = some v → new.holds = true ∧ v = value')
    (hvalue : value' = value ∨ (shares i).holds = true)
    (howed : value' + new.owed = value + (shares i).owed) :
    Counted total value' (Function.update shares i new) where
  exclusive j k hj hk := by
    by_cases hji : j = i <;> by_cases hki : k = i
    · rw [hji, hki]
    · subst hji
      rw [Function.update_self] at hj
      rw [Function.update_of_ne hki, hothers hj k hki] at hk
      cases hk
    · subst hki
      rw [Function.update_self] at hk
      rw [Function.update_of_ne hji, hothers hk j hji] at hj
      cases hj
    · rw [Function.update_of_ne hji] at hj
      rw [Function.update_of_ne hki] at hk
      exact h.exclusive j k hj hk
  seen j v hj := by
    by_cases hji : j = i
    · subst hji
      rw [Function.update_self] at hj ⊢
      exact hseen v hj
    · rw [Function.update_of_ne hji] at hj ⊢
      obtain ⟨hholds, hv⟩ := h.seen j v hj
      refine ⟨hholds, ?_⟩
      rcases hvalue with rfl | hi
      · exact hv
      · rw [h.others_free hi j hji] at hholds
        cases hholds
  sum_eq := by
    have hsum := sum_update_add (fun j => (shares j).owed) i new.owed
    have hcongr : ∀ j, (Function.update shares i new j).owed
        = Function.update (fun j => (shares j).owed) i new.owed j := fun j =>
      Function.apply_update (fun _ s => Share.owed s) shares i new j
    simp only [hcongr]
    have := h.sum_eq
    omega

/-- Nobody has the lock and nobody has begun. -/
theorem start (value : Nat) (rounds : Nat) :
    Counted (value + threads * rounds) value fun _ : Fin threads => ⟨false, none, rounds⟩ where
  exclusive i j hi := by cases hi
  seen i v hi := by cases hi
  sum_eq := by simp

theorem le_total (h : Counted total value shares) : value ≤ total := by
  have := h.sum_eq
  omega

theorem eq_total (h : Counted total value shares) (hdone : ∀ i, (shares i).owed = 0) :
    value = total := by
  simpa [hdone] using h.sum_eq

end Counted

/-! ### The ticket lock -/

/-- A thread at the ticket lock, as far as the number goes. -/
def TicketPhase.share : TicketPhase → Share
  | outside rounds => ⟨false, none, rounds⟩
  | waiting _ rounds => ⟨false, none, rounds + 1⟩
  | reading rounds => ⟨true, none, rounds + 1⟩
  | storing seen rounds => ⟨true, some seen, rounds + 1⟩
  | leaving rounds => ⟨true, none, rounds⟩

theorem TicketPhase.share_holds (p : TicketPhase) : p.share.holds = p.holds := by
  cases p <;> rfl

/-- Whether a thread stands in the queue: it has drawn a ticket and not yet served the next one. -/
def TicketPhase.queues : TicketPhase → Bool
  | outside _ => false
  | _ => true

theorem TicketPhase.queues_of_holds (p : TicketPhase) (h : p.holds = true) : p.queues = true := by
  cases p with
  | outside => cases h
  | _ => rfl

namespace TicketThreads

variable {s : TicketThreads threads} {queue : List (Fin threads)} {i : Fin threads}

/-- The threads, as far as the number goes. -/
def shares (s : TicketThreads threads) (i : Fin threads) : Share := (s.phase i).share

/-- The threads that have drawn a ticket, in the order of their tickets. -/
structure Lined (s : TicketThreads threads) (queue : List (Fin threads)) : Prop where
  nodup : queue.Nodup
  mem_iff : ∀ i, i ∈ queue ↔ (s.phase i).queues = true
  nextTicket_eq : s.lock.nextTicket = s.lock.nowServing + UInt32.ofNat queue.length
  ticket_eq : ∀ place i ticket rounds, queue[place]? = some i →
    s.phase i = .waiting ticket rounds → ticket = s.lock.nowServing + UInt32.ofNat place
  head_eq : ∀ i, (s.phase i).holds = true → queue.head? = some i

/-- The invariant of the threads at a ticket lock. -/
structure Sound (total : Nat) (s : TicketThreads threads) : Prop where
  counted : Counted total s.lock.value s.shares
  lined : ∃ queue, Lined s queue

@[simp] theorem move_lock (s : TicketThreads threads) (i : Fin threads) (lock : TicketLock Nat)
    (phase : TicketPhase) : (s.move i lock phase).lock = lock := rfl

@[simp] theorem move_phase (s : TicketThreads threads) (i : Fin threads) (lock : TicketLock Nat)
    (phase : TicketPhase) : (s.move i lock phase).phase = Function.update s.phase i phase := by
  funext j
  simp [move, Function.update_apply]

theorem shares_move (s : TicketThreads threads) (i : Fin threads) (lock : TicketLock Nat)
    (phase : TicketPhase) :
    (s.move i lock phase).shares = Function.update s.shares i phase.share := by
  funext j
  rw [shares, move_phase, Function.apply_update (fun _ => TicketPhase.share)]
  rfl

namespace Lined

/-- A thread comes to the end of the queue. -/
theorem draw (h : Lined s queue) {rounds : Nat} (hi : s.phase i = .outside (rounds + 1)) :
    Lined (s.move i { s.lock with nextTicket := s.lock.nextTicket + 1 }
      (.waiting s.lock.nextTicket rounds)) (queue ++ [i]) := by
  have hout : i ∉ queue := by simp [h.mem_iff, hi, TicketPhase.queues]
  refine ⟨?_, fun j => ?_, ?_, fun place j ticket left hplace hphase => ?_, fun j hholds => ?_⟩
  · simpa [List.nodup_append, h.nodup] using fun j hj => (ne_of_mem_of_not_mem hj hout)
  · by_cases hj : j = i
    · subst hj
      simp [TicketPhase.queues]
    · simp [hj, h.mem_iff]
  · show s.lock.nextTicket + 1 = s.lock.nowServing + UInt32.ofNat (queue ++ [i]).length
    rw [h.nextTicket_eq, List.length_append, UInt32.ofNat_add, UInt32.add_assoc]
    rfl
  · by_cases hlast : place < queue.length
    · rw [List.getElem?_append_left hlast] at hplace
      have hj : j ≠ i := ne_of_mem_of_not_mem (List.mem_of_getElem? hplace) hout
      rw [move_phase, Function.update_of_ne hj] at hphase
      exact h.ticket_eq place j ticket left hplace hphase
    · obtain ⟨hbound, hget⟩ := List.getElem?_eq_some_iff.1 hplace
      have hend : place = queue.length := by
        simp only [List.length_append, List.length_singleton] at hbound
        omega
      subst hend
      obtain rfl : j = i := by simpa using hget.symm
      rw [move_phase, Function.update_self] at hphase
      cases hphase
      exact h.nextTicket_eq
  · have hj : j ≠ i := by
      rintro rfl
      simp [TicketPhase.holds] at hholds
    rw [move_phase, Function.update_of_ne hj] at hholds
    rw [List.head?_append, h.head_eq j hholds]
    rfl

/-- The thread whose ticket is served is the head of the queue. There are not enough threads for a
second one with this ticket. -/
theorem head_of_served (h : Lined s queue) (hthreads : threads < 2 ^ 32) {rounds : Nat}
    (hi : s.phase i = .waiting s.lock.nowServing rounds) : queue.head? = some i := by
  have hmem : i ∈ queue := by simp [h.mem_iff, hi, TicketPhase.queues]
  obtain ⟨place, hplace⟩ := List.mem_iff_getElem?.1 hmem
  have hbound : queue.length ≤ threads := by simpa using h.nodup.length_le_card
  obtain ⟨hlt, -⟩ := List.getElem?_eq_some_iff.1 hplace
  have hzero : UInt32.ofNat place = 0 := by simpa using (h.ticket_eq place i _ _ hplace hi).symm
  have hfirst : place = 0 := by
    have := congrArg UInt32.toNat hzero
    rwa [UInt32.toNat_ofNat_of_lt' (by show place < 2 ^ 32; omega)] at this
  rwa [hfirst, ← List.head?_eq_getElem?] at hplace

/-- Only the head of the queue can have the lock. -/
theorem others_free (h : Lined s queue) (hhead : queue.head? = some i) (j : Fin threads)
    (hj : j ≠ i) : (s.phase j).holds = false := by
  by_contra hheld
  have hother := h.head_eq j (by simpa using hheld)
  exact hj (Option.some.inj (hother.symm.trans hhead))

/-- The thread at the head of the queue moves on, without leaving the queue. -/
theorem advance (h : Lined s queue) (hhead : queue.head? = some i) (lock : TicketLock Nat)
    (hnext : lock.nextTicket = s.lock.nextTicket) (hserving : lock.nowServing = s.lock.nowServing)
    {phase : TicketPhase} (hphase : phase.holds = true) : Lined (s.move i lock phase) queue := by
  refine ⟨h.nodup, fun j => ?_, ?_, fun place j ticket left hplace hj => ?_, fun j hholds => ?_⟩
  · by_cases hj : j = i
    · subst hj
      rw [move_phase, Function.update_self]
      exact iff_of_true (List.mem_of_head? hhead) (phase.queues_of_holds hphase)
    · rw [move_phase, Function.update_of_ne hj, h.mem_iff]
  · rw [move_lock, hnext, hserving, h.nextTicket_eq]
  · rw [move_lock, hserving]
    by_cases hji : j = i
    · subst hji
      rw [move_phase, Function.update_self] at hj
      rw [hj] at hphase
      cases hphase
    · rw [move_phase, Function.update_of_ne hji] at hj
      exact h.ticket_eq place j ticket left hplace hj
  · by_cases hji : j = i
    · rw [hji, hhead]
    · rw [move_phase, Function.update_of_ne hji] at hholds
      exact h.head_eq j hholds

/-- The head of the queue leaves. -/
theorem leave {rest : List (Fin threads)} (h : Lined s (i :: rest)) (rounds : Nat) :
    Lined (s.move i { s.lock with nowServing := s.lock.nowServing + 1 } (.outside rounds)) rest := by
  have hout : i ∉ rest := (List.nodup_cons.1 h.nodup).1
  refine ⟨(List.nodup_cons.1 h.nodup).2, fun j => ?_, ?_, fun place j ticket left hplace hj => ?_,
    fun j hholds => ?_⟩
  · by_cases hj : j = i
    · subst hj
      rw [move_phase, Function.update_self]
      exact iff_of_false hout (by simp [TicketPhase.queues])
    · rw [move_phase, Function.update_of_ne hj, ← h.mem_iff, List.mem_cons]
      exact (or_iff_right hj).symm
  · show s.lock.nextTicket = s.lock.nowServing + 1 + UInt32.ofNat rest.length
    rw [h.nextTicket_eq, List.length_cons, UInt32.ofNat_add, UInt32.add_assoc,
      UInt32.add_comm 1]
    rfl
  · have hji : j ≠ i := ne_of_mem_of_not_mem (List.mem_of_getElem? hplace) hout
    rw [move_phase, Function.update_of_ne hji] at hj
    have hticket := h.ticket_eq (place + 1) j ticket left hplace hj
    rw [hticket, UInt32.ofNat_add, UInt32.add_comm (UInt32.ofNat place), ← UInt32.add_assoc]
    rfl
  · have hji : j ≠ i := by
      rintro rfl
      simp [TicketPhase.holds] at hholds
    rw [move_phase, Function.update_of_ne hji] at hholds
    exact absurd (Option.some.inj (h.head_eq j hholds)).symm hji

end Lined

namespace Sound

theorem initial (ticket : UInt32) (value rounds : Nat) :
    Sound (value + threads * rounds)
      (TicketThreads.initial ticket value rounds : TicketThreads threads) where
  counted := Counted.start value rounds
  lined := ⟨[], List.nodup_nil, fun i => by simp [TicketThreads.initial, TicketPhase.queues],
    (UInt32.add_zero ticket).symm, by simp, fun i hi => by cases hi⟩

/-- A thread that does not have the lock and does not take it. -/
theorem wait (h : Sound total s) (i : Fin threads) {lock : TicketLock Nat} {phase : TicketPhase}
    (hlined : ∃ queue, Lined (s.move i lock phase) queue) (hvalue : lock.value = s.lock.value)
    (hshare : phase.share = ⟨false, none, (s.phase i).share.owed⟩) :
    Sound total (s.move i lock phase) where
  counted := by
    rw [shares_move, hshare, move_lock, hvalue]
    exact h.counted.update i _ (fun h => by cases h) (fun _ h => by cases h) (.inl rfl) rfl
  lined := hlined

/-- The head of the queue takes the lock, or goes on under it. -/
theorem advance (h : Sound total s) {queue : List (Fin threads)} (hlined : Lined s queue)
    (hhead : queue.head? = some i) {value : Nat} {phase : TicketPhase}
    (hphase : phase.holds = true)
    (hseen : ∀ v, phase.share.seen? = some v → v = value)
    (hvalue : value = s.lock.value ∨ (s.phase i).holds = true)
    (howed : value + phase.share.owed = s.lock.value + (s.phase i).share.owed) :
    Sound total (s.move i { s.lock with value } phase) where
  counted := by
    rw [shares_move]
    refine h.counted.update i _ (fun _ j hj => ?_) (fun v hv => ⟨?_, hseen v hv⟩) ?_ howed
    · rw [shares, TicketPhase.share_holds]
      exact hlined.others_free hhead j hj
    · rw [TicketPhase.share_holds, hphase]
    · rwa [shares, TicketPhase.share_holds]
  lined := ⟨queue, hlined.advance hhead { s.lock with value } rfl rfl hphase⟩

/-- Every step of a thread keeps the invariant. -/
theorem step (hthreads : threads < 2 ^ 32) (h : Sound total s) (i : Fin threads) :
    Sound total (s.step i) := by
  obtain ⟨queue, hlined⟩ := h.lined
  rw [TicketThreads.step]
  cases hi : s.phase i with
  | outside rounds =>
    cases rounds with
    | zero => exact h
    | succ rounds => exact h.wait i ⟨_, hlined.draw hi⟩ rfl (by rw [hi]; rfl)
  | waiting ticket rounds =>
    simp only
    split
    case isTrue hserved =>
      subst hserved
      exact h.advance hlined (hlined.head_of_served hthreads hi) rfl (fun _ h => by cases h)
        (.inl rfl) (by rw [hi]; rfl)
    case isFalse => exact h
  | reading rounds =>
    have hholds : (s.phase i).holds = true := by rw [hi]; rfl
    exact h.advance hlined (hlined.head_eq i hholds) rfl (fun v hv => (Option.some.inj hv).symm)
      (.inl rfl) (by rw [hi]; rfl)
  | storing seen rounds =>
    have hholds : (s.phase i).holds = true := by rw [hi]; rfl
    have hseen : seen = s.lock.value := (h.counted.seen i seen (by rw [shares, hi]; rfl)).2
    exact h.advance hlined (hlined.head_eq i hholds) rfl (fun _ h => by cases h) (.inr hholds)
      (by rw [hi, hseen]; simp only [TicketPhase.share]; omega)
  | leaving rounds =>
    have hholds : (s.phase i).holds = true := by rw [hi]; rfl
    obtain ⟨rest, rfl⟩ := List.head?_eq_some_iff.1 (hlined.head_eq i hholds)
    exact h.wait i ⟨rest, hlined.leave rounds⟩ rfl (by rw [hi]; rfl)

/-- Every schedule keeps the invariant. -/
theorem run (hthreads : threads < 2 ^ 32) (h : Sound total s) (schedule : List (Fin threads)) :
    Sound total (s.run schedule) := by
  induction schedule generalizing s with
  | nil => exact h
  | cons i rest ih => exact ih (h.step hthreads i)

end Sound

end TicketThreads

/-! ### The spin lock -/

/-- A thread at the spin lock, as far as the number goes. -/
def SpinPhase.share : SpinPhase → Share
  | outside rounds => ⟨false, none, rounds⟩
  | trying rounds | spinning rounds => ⟨false, none, rounds + 1⟩
  | reading rounds => ⟨true, none, rounds + 1⟩
  | storing seen rounds => ⟨true, some seen, rounds + 1⟩
  | leaving rounds => ⟨true, none, rounds⟩

theorem SpinPhase.share_holds (p : SpinPhase) : p.share.holds = p.holds := by
  cases p <;> rfl

namespace SpinThreads

variable {s : SpinThreads threads} {i : Fin threads}

/-- The threads, as far as the number goes. -/
def shares (s : SpinThreads threads) (i : Fin threads) : Share := (s.phase i).share

/-- The invariant of the threads at a spin lock: the flag is set while a thread has the lock. -/
structure Sound (total : Nat) (s : SpinThreads threads) : Prop where
  counted : Counted total s.lock.value s.shares
  locked_iff : s.lock.locked = true ↔ ∃ i, (s.shares i).holds = true

@[simp] theorem move_lock (s : SpinThreads threads) (i : Fin threads) (lock : SpinLock Nat)
    (phase : SpinPhase) : (s.move i lock phase).lock = lock := rfl

theorem shares_move (s : SpinThreads threads) (i : Fin threads) (lock : SpinLock Nat)
    (phase : SpinPhase) :
    (s.move i lock phase).shares = Function.update s.shares i phase.share := by
  funext j
  by_cases hj : j = i <;> simp [shares, move, hj]

namespace Sound

theorem initial (value rounds : Nat) :
    Sound (value + threads * rounds)
      (SpinThreads.initial value rounds : SpinThreads threads) where
  counted := Counted.start value rounds
  locked_iff := by simp [SpinThreads.initial, shares, SpinPhase.share]

/-- A thread moves on in the lock's code, without taking the lock. -/
theorem wait (h : Sound total s) (i : Fin threads) {phase : SpinPhase}
    (hshare : phase.share = s.shares i) : Sound total (s.move i s.lock phase) := by
  constructor <;> rw [shares_move, hshare, Function.update_eq_self]
  · exact h.counted
  · exact h.locked_iff

/-- A thread takes the lock or goes on under it. -/
theorem advance (h : Sound total s) (i : Fin threads) (lock : SpinLock Nat) {phase : SpinPhase}
    (hlocked : lock.locked = true) (hphase : phase.share.holds = true)
    (hothers : ∀ j, j ≠ i → (s.shares j).holds = false)
    (hseen : ∀ v, phase.share.seen? = some v → v = lock.value)
    (hvalue : lock.value = s.lock.value ∨ (s.shares i).holds = true)
    (howed : lock.value + phase.share.owed = s.lock.value + (s.shares i).owed) :
    Sound total (s.move i lock phase) where
  counted := by
    rw [shares_move]
    exact h.counted.update i _ (fun _ => hothers) (fun v hv => ⟨hphase, hseen v hv⟩) hvalue howed
  locked_iff := by
    rw [shares_move]
    exact iff_of_true hlocked ⟨i, by rw [Function.update_self, hphase]⟩

/-- The thread that has the lock gives it back. -/
theorem leave (h : Sound total s) {rounds : Nat} (hi : s.phase i = .leaving rounds) :
    Sound total (s.move i { s.lock with locked := false } (.outside rounds)) where
  counted := by
    rw [shares_move]
    exact h.counted.update i _ (fun h => by cases h) (fun _ h => by cases h) (.inl rfl)
      (by rw [shares, hi]; rfl)
  locked_iff := by
    rw [shares_move]
    refine iff_of_false (by simp) ?_
    rintro ⟨j, hj⟩
    by_cases hji : j = i
    · subst hji
      rw [Function.update_self] at hj
      cases hj
    · rw [Function.update_of_ne hji, h.counted.others_free (by rw [shares, hi]; rfl) j hji] at hj
      cases hj

/-- Every step of a thread keeps the invariant. -/
theorem step (h : Sound total s) (i : Fin threads) (spurious : Bool) :
    Sound total (s.step i spurious) := by
  rw [SpinThreads.step]
  cases hi : s.phase i with
  | outside rounds =>
    cases rounds with
    | zero => exact h
    | succ rounds => exact h.wait i (by rw [shares, hi]; rfl)
  | trying rounds =>
    simp only
    split
    case isTrue => exact h.wait i (by rw [shares, hi]; rfl)
    case isFalse hfree =>
      have hunlocked : ¬ s.lock.locked = true := by
        rw [Bool.or_eq_true, not_or] at hfree
        exact hfree.1
      refine h.advance i { s.lock with locked := true } rfl rfl (fun j _ => ?_)
        (fun _ h => by cases h) (.inl rfl) (by rw [shares, hi]; rfl)
      rw [h.locked_iff, not_exists] at hunlocked
      simpa using hunlocked j
  | spinning rounds =>
    simp only
    split
    case isTrue => exact h
    case isFalse => exact h.wait i (by rw [shares, hi]; rfl)
  | reading rounds =>
    have hholds : (s.shares i).holds = true := by rw [shares, hi]; rfl
    exact h.advance i s.lock (h.locked_iff.2 ⟨i, hholds⟩) rfl (h.counted.others_free hholds)
      (fun v hv => (Option.some.inj hv).symm) (.inl rfl) (by rw [shares, hi]; rfl)
  | storing seen rounds =>
    have hholds : (s.shares i).holds = true := by rw [shares, hi]; rfl
    have hseen : seen = s.lock.value := (h.counted.seen i seen (by rw [shares, hi]; rfl)).2
    refine h.advance i { s.lock with value := seen + 1 } (h.locked_iff.2 ⟨i, hholds⟩) rfl
      (h.counted.others_free hholds) (fun _ h => by cases h) (.inr hholds) ?_
    rw [shares, hi, hseen]
    simp only [SpinPhase.share]
    omega
  | leaving rounds => exact h.leave hi

/-- Every schedule keeps the invariant. -/
theorem run (h : Sound total s) (schedule : List (Fin threads × Bool)) :
    Sound total (s.run schedule) := by
  induction schedule generalizing s with
  | nil => exact h
  | cons move rest ih => exact ih (h.step move.1 move.2)

end Sound

end SpinThreads

/-! ### Both locks -/

/-- What holds in every state. At most one thread has the lock. The number has not passed what all
increments together make it, so that no sum leaves a word in which that fits. Once all threads have
finished the number is exactly that, and the lock is free. -/
structure CountsExactly (total value : Nat) (held : Bool) (holds finished : Fin threads → Bool) :
    Prop where
  exclusive : ∀ i j, holds i = true → holds j = true → i = j
  value_le : value ≤ total
  complete : (∀ i, finished i = true) → value = total ∧ held = false

theorem TicketPhase.eq_of_finished {p : TicketPhase} (h : p.finished = true) : p = .outside 0 := by
  cases p with
  | outside rounds => cases rounds with
    | zero => rfl
    | succ => cases h
  | _ => cases h

theorem SpinPhase.eq_of_finished {p : SpinPhase} (h : p.finished = true) : p = .outside 0 := by
  cases p with
  | outside rounds => cases rounds with
    | zero => rfl
    | succ => cases h
  | _ => cases h

theorem TicketThreads.Sound.countsExactly {s : TicketThreads threads} (h : s.Sound total) :
    CountsExactly total s.lock.value (Lock.isHeld s.lock) (fun i => (s.phase i).holds)
      fun i => (s.phase i).finished where
  exclusive i j hi hj := h.counted.exclusive i j (by rwa [shares, TicketPhase.share_holds])
    (by rwa [shares, TicketPhase.share_holds])
  value_le := h.counted.le_total
  complete hdone := by
    have hphase i := TicketPhase.eq_of_finished (hdone i)
    obtain ⟨queue, hlined⟩ := h.lined
    have hempty : queue = [] := List.eq_nil_iff_forall_not_mem.2 fun i hi => by
      rw [hlined.mem_iff, hphase] at hi
      cases hi
    refine ⟨h.counted.eq_total fun i => by rw [shares, hphase]; rfl, ?_⟩
    have hnext := hlined.nextTicket_eq
    rw [hempty] at hnext
    show (s.lock.nextTicket != s.lock.nowServing) = false
    simpa using hnext

theorem SpinThreads.Sound.countsExactly {s : SpinThreads threads} (h : s.Sound total) :
    CountsExactly total s.lock.value (Lock.isHeld s.lock) (fun i => (s.phase i).holds)
      fun i => (s.phase i).finished where
  exclusive i j hi hj := h.counted.exclusive i j (by rwa [shares, SpinPhase.share_holds])
    (by rwa [shares, SpinPhase.share_holds])
  value_le := h.counted.le_total
  complete hdone := by
    have hphase i := SpinPhase.eq_of_finished (hdone i)
    refine ⟨h.counted.eq_total fun i => by rw [shares, hphase]; rfl, ?_⟩
    show s.lock.locked = false
    rw [← Bool.not_eq_true, h.locked_iff, not_exists]
    intro i hi
    rw [shares, hphase] at hi
    cases hi

/-- Threads that each add one to a number some times under a ticket lock or a spin lock never have
the lock at the same time and lose no increment, whatever their schedule and whatever ticket the
lock starts from. -/
theorem no_increment_lost (hthreads : threads < 2 ^ 32) (ticket : UInt32) (start rounds : Nat) :
    (∀ schedule : List (Fin threads),
      let s := (TicketThreads.initial ticket start rounds).run schedule
      CountsExactly (start + threads * rounds) s.lock.value (Lock.isHeld s.lock)
        (fun i => (s.phase i).holds) fun i => (s.phase i).finished) ∧
    ∀ schedule : List (Fin threads × Bool),
      let s := (SpinThreads.initial start rounds).run schedule
      CountsExactly (start + threads * rounds) s.lock.value (Lock.isHeld s.lock)
        (fun i => (s.phase i).holds) fun i => (s.phase i).finished :=
  ⟨fun schedule => ((TicketThreads.Sound.initial ticket start rounds).run hthreads
      schedule).countsExactly,
    fun schedule => ((SpinThreads.Sound.initial start rounds).run schedule).countsExactly⟩

/-- Two threads of which the second draws the ticket after the last one and waits, and the same two
at a spin lock, where the second finds the flag set and then fails once for no reason. -/
theorem no_increment_lost_around : 2 < 2 ^ 32 ∧
    (∃ s, s = (TicketThreads.initial 4294967295 5 1 : TicketThreads 2).run
        [0, 1, 1, 0, 0, 0, 0, 1, 1, 1, 1] ∧
      s.lock.value = 7 ∧ Lock.isHeld s.lock = false) ∧
    ∃ s, s = (SpinThreads.initial 5 1 : SpinThreads 2).run
        [(0, false), (1, false), (0, false), (1, false), (0, false), (0, false), (0, false),
          (1, false), (1, true), (1, false), (1, false), (1, false), (1, false), (1, false)] ∧
      s.lock.value = 7 ∧ Lock.isHeld s.lock = false := by
  have hthreads : 2 < 2 ^ 32 := by decide
  obtain ⟨hticket, hspin⟩ := no_increment_lost hthreads 4294967295 5 1
  exact ⟨hthreads, ⟨_, rfl, (hticket _).complete (by decide)⟩,
    ⟨_, rfl, (hspin _).complete (by decide)⟩⟩

end DemandPaging
