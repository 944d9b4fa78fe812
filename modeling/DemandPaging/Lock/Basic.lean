import DemandPaging.Panic

/-!
# Locks

A lock protects a value. Three locks are offered: a ticket lock, which serves waiters in the order
in which they came; a spin lock, which does not; and the mutex that every operation of the pager
runs under, which is a ticket lock under another name.

What the three have in common is the class `Lock`. It speaks of one thread: taking a lock that is
held would wait forever, so it has no result.

## Main definitions

* `Lock` — what every lock can do.
* `TicketLock`, `SpinLock`, `Mutex` — the three locks.
-/

namespace DemandPaging

/-- A lock that protects a value, as a single thread sees it. -/
class Lock (L : Type → Type) where
  /-- A free lock that protects `a`. -/
  ofValue {α : Type} (a : α) : L α
  /-- Takes the lock; without a result if that would wait. -/
  acquire? {α : Type} (l : L α) : Option (L α)
  /-- Takes the lock if that needs no waiting. -/
  tryAcquire? {α : Type} (l : L α) : Option (L α)
  /-- Gives the lock back. -/
  release {α : Type} (l : L α) : L α
  /-- Whether somebody holds the lock or waits for it. -/
  isHeld {α : Type} (l : L α) : Bool
  /-- The protected value. -/
  value {α : Type} (l : L α) : α
  /-- Stores a protected value. -/
  setValue {α : Type} (l : L α) (a : α) : L α

/-! ### The ticket lock -/

/-- A lock whose waiters draw tickets and are served in turn. Both counters wrap around. -/
structure TicketLock (α : Type) where
  /-- The ticket that the next arrival draws. -/
  nextTicket : UInt32
  /-- The ticket that may hold the lock. -/
  nowServing : UInt32
  value : α
  deriving DecidableEq, Repr

instance : Lock TicketLock where
  ofValue a := ⟨0, 0, a⟩
  acquire? l :=
    if l.nowServing = l.nextTicket then some { l with nextTicket := l.nextTicket + 1 } else none
  tryAcquire? l :=
    if l.nextTicket = l.nowServing then some { l with nextTicket := l.nowServing + 1 } else none
  release l := { l with nowServing := l.nowServing + 1 }
  isHeld l := l.nextTicket != l.nowServing
  value l := l.value
  setValue l a := { l with value := a }

/-! ### The spin lock -/

/-- A lock that is one flag. Waiters are served in any order. -/
structure SpinLock (α : Type) where
  locked : Bool
  value : α
  deriving DecidableEq, Repr

instance : Lock SpinLock where
  ofValue a := ⟨false, a⟩
  acquire? l := if l.locked then none else some { l with locked := true }
  tryAcquire? l := if l.locked then none else some { l with locked := true }
  release l := { l with locked := false }
  isHeld l := l.locked
  value l := l.value
  setValue l a := { l with value := a }

/-! ### The mutex -/

/-- The lock that every operation of the pager runs under. -/
structure Mutex (α : Type) where
  inner : TicketLock α
  deriving DecidableEq, Repr

instance : Lock Mutex where
  ofValue a := ⟨Lock.ofValue a⟩
  acquire? l := (Lock.acquire? l.inner).map Mutex.mk
  tryAcquire? l := (Lock.tryAcquire? l.inner).map Mutex.mk
  release l := ⟨Lock.release l.inner⟩
  isHeld l := Lock.isHeld l.inner
  value l := l.inner.value
  setValue l a := ⟨Lock.setValue l.inner a⟩

end DemandPaging
