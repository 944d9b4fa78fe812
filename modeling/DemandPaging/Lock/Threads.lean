import DemandPaging.Lock.Basic

/-!
# Threads that count under a lock

Some threads add one to a number under a lock, each a given number of times. Their steps are
interleaved in any order: every access to the lock's words and to the number is one step. A
schedule is the list of the threads that step; a thread that has to wait steps in place.

The lock's code is spelled out here step by step, apart from the operations of `Lock`, which take
a lock in one go.

## Main definitions

* `TicketPhase`, `TicketThreads.step` — threads at a ticket lock.
* `SpinPhase`, `SpinThreads.step` — threads at a spin lock.
-/

namespace DemandPaging

/-! ### The ticket lock -/

/-- Where a thread is in its rounds at a ticket lock. -/
inductive TicketPhase
  /-- Not in the lock's code; `rounds` are left. -/
  | outside (rounds : Nat)
  /-- A ticket is drawn and not served yet. -/
  | waiting (ticket : UInt32) (rounds : Nat)
  /-- The lock is held and the number is read next. -/
  | reading (rounds : Nat)
  /-- The number was read and its successor is stored next. -/
  | storing (seen : Nat) (rounds : Nat)
  /-- The successor is stored and the next ticket is served next. -/
  | leaving (rounds : Nat)
  deriving DecidableEq, Repr

namespace TicketPhase

/-- Whether the thread has the lock. -/
def holds : TicketPhase → Bool
  | reading _ | storing _ _ | leaving _ => true
  | _ => false

/-- Whether the thread has done all its rounds. -/
def finished : TicketPhase → Bool
  | outside 0 => true
  | _ => false

end TicketPhase

/-- A ticket lock and the threads that use it. -/
structure TicketThreads (threads : Nat) where
  lock : TicketLock Nat
  phase : Fin threads → TicketPhase

namespace TicketThreads

variable {threads : Nat}

/-- The system after thread `i` has moved on. -/
def move (s : TicketThreads threads) (i : Fin threads) (lock : TicketLock Nat)
    (phase : TicketPhase) : TicketThreads threads where
  lock := lock
  phase j := if j = i then phase else s.phase j

/-- One step of thread `i`. -/
def step (s : TicketThreads threads) (i : Fin threads) : TicketThreads threads :=
  match s.phase i with
  | .outside 0 => s
  | .outside (rounds + 1) =>
    s.move i { s.lock with nextTicket := s.lock.nextTicket + 1 }
      (.waiting s.lock.nextTicket rounds)
  | .waiting ticket rounds =>
    if s.lock.nowServing = ticket then s.move i s.lock (.reading rounds) else s
  | .reading rounds => s.move i s.lock (.storing s.lock.value rounds)
  | .storing seen rounds => s.move i { s.lock with value := seen + 1 } (.leaving rounds)
  | .leaving rounds =>
    s.move i { s.lock with nowServing := s.lock.nowServing + 1 } (.outside rounds)

/-- The system after the steps of a schedule. -/
def run (s : TicketThreads threads) (schedule : List (Fin threads)) : TicketThreads threads :=
  schedule.foldl step s

/-- Threads that have yet to start, at a free lock whose counters both stand at `ticket`. -/
def initial (ticket : UInt32) (value rounds : Nat) : TicketThreads threads where
  lock := ⟨ticket, ticket, value⟩
  phase _ := .outside rounds

end TicketThreads

/-! ### The spin lock -/

/-- Where a thread is in its rounds at a spin lock. -/
inductive SpinPhase
  /-- Not in the lock's code; `rounds` are left. -/
  | outside (rounds : Nat)
  /-- The flag is exchanged next. -/
  | trying (rounds : Nat)
  /-- The exchange failed; the flag is looked at until it is clear. -/
  | spinning (rounds : Nat)
  /-- The lock is held and the number is read next. -/
  | reading (rounds : Nat)
  /-- The number was read and its successor is stored next. -/
  | storing (seen : Nat) (rounds : Nat)
  /-- The successor is stored and the flag is cleared next. -/
  | leaving (rounds : Nat)
  deriving DecidableEq, Repr

namespace SpinPhase

/-- Whether the thread has the lock. -/
def holds : SpinPhase → Bool
  | reading _ | storing _ _ | leaving _ => true
  | _ => false

/-- Whether the thread has done all its rounds. -/
def finished : SpinPhase → Bool
  | outside 0 => true
  | _ => false

end SpinPhase

/-- A spin lock and the threads that use it. -/
structure SpinThreads (threads : Nat) where
  lock : SpinLock Nat
  phase : Fin threads → SpinPhase

namespace SpinThreads

variable {threads : Nat}

/-- The system after thread `i` has moved on. -/
def move (s : SpinThreads threads) (i : Fin threads) (lock : SpinLock Nat) (phase : SpinPhase) :
    SpinThreads threads where
  lock := lock
  phase j := if j = i then phase else s.phase j

/-- One step of thread `i`. The exchange may fail for no reason, which `spurious` says. -/
def step (s : SpinThreads threads) (i : Fin threads) (spurious : Bool) : SpinThreads threads :=
  match s.phase i with
  | .outside 0 => s
  | .outside (rounds + 1) => s.move i s.lock (.trying rounds)
  | .trying rounds =>
    if s.lock.locked || spurious then s.move i s.lock (.spinning rounds)
    else s.move i { s.lock with locked := true } (.reading rounds)
  | .spinning rounds => if s.lock.locked then s else s.move i s.lock (.trying rounds)
  | .reading rounds => s.move i s.lock (.storing s.lock.value rounds)
  | .storing seen rounds => s.move i { s.lock with value := seen + 1 } (.leaving rounds)
  | .leaving rounds => s.move i { s.lock with locked := false } (.outside rounds)

/-- The system after the steps of a schedule. -/
def run (s : SpinThreads threads) (schedule : List (Fin threads × Bool)) : SpinThreads threads :=
  schedule.foldl (fun s move => s.step move.1 move.2) s

/-- Threads that have yet to start, at a free lock. -/
def initial (value rounds : Nat) : SpinThreads threads where
  lock := ⟨false, value⟩
  phase _ := .outside rounds

end SpinThreads

end DemandPaging
