import DemandPaging.Pager.Copy
import DemandPaging.Pager.Process
import DemandPaging.Pager.Run

/-!
# Threads that share the pager

The operations of the pager run under one lock, but the bytes of a copy move outside it: a copy
takes the lock to pin the page of a piece, moves the bytes, and takes the lock again for the unpin.
Between these steps other threads may fault, evict and tear down.

Here every thread works on a process of its own and the steps are interleaved in any order. One
holding of the lock is one step, and moving the bytes of one piece is one step. Checking the range
of a copy touches nothing that changes, so it is the step in which a copy starts.

## Main definitions

* `ThreadRequest`, `UserCopy`, `CopyPhase` — what a thread asks for and how far it is.
* `PagerThread.step` — one step of one thread.
* `PagerThreads.run` — the steps of a schedule.
-/

namespace DemandPaging

/-- What a thread asks of the pager, for its own process. -/
inductive ThreadRequest
  | declare (page : Nat) (writable : Bool)
  | fault (addr esp : Nat)
  | read (start length esp : Nat)
  | write (start : Nat) (data : Bytes) (esp : Nat)
  | destroy

/-- Which way the bytes of a copy go. -/
inductive CopyDirection
  /-- From user memory; `found` are the bytes so far. -/
  | fromUser (found : Bytes)
  /-- To user memory. -/
  | toUser (data : Bytes)

/-- A copy that has started, and how much of it is done. -/
structure UserCopy where
  direction : CopyDirection
  start : Nat
  length : Nat
  esp : Nat
  done : Nat

/-- Where a thread is in its request. -/
inductive CopyPhase
  /-- Between two requests. -/
  | between
  /-- The page of the next piece is pinned next. -/
  | pinning (copy : UserCopy)
  /-- The page is pinned in `frame` and the bytes are moved next. -/
  | moving (copy : UserCopy) (frame : Nat)
  /-- The bytes are moved and `frame` is unpinned next. -/
  | unpinning (copy : UserCopy) (frame : Nat)

namespace CopyPhase

/-- The frame that the thread has pinned. -/
def pinned : CopyPhase → Option Nat
  | moving _ frame | unpinning _ frame => some frame
  | _ => none

end CopyPhase

namespace UserCopy

/-- The piece that comes next. -/
def piece (c : UserCopy) : Piece := Piece.next c.start c.length c.done

/-- Whether the copy writes to user memory. -/
def writes (c : UserCopy) : Bool :=
  match c.direction with
  | .fromUser _ => false
  | .toUser _ => true

/-- The answer of a copy that has come to its end. -/
def answer (c : UserCopy) : Answer :=
  match c.direction with
  | .fromUser found => .bytes (.ok found)
  | .toUser _ => .resolved (.ok ())

/-- The answer of a copy that fails. -/
def failure (c : UserCopy) (e : FaultError) : Answer :=
  match c.direction with
  | .fromUser _ => .bytes (.error e)
  | .toUser _ => .resolved (.error e)

/-- Moves the bytes of the next piece, whose page is in `frame`. -/
def move (c : UserCopy) (frame : Nat) : PagerM UserCopy := do
  match c.direction with
  | .fromUser found =>
    return { c with direction := .fromUser (found ++ (← PagerM.copyOut frame c.piece)) }
  | .toUser data =>
    PagerM.copyIn frame c.piece data
    return c

end UserCopy

/-- A thread that works on one process. -/
structure PagerThread where
  pid : Nat
  phase : CopyPhase
  /-- What the thread has yet to ask for. -/
  requests : List ThreadRequest
  /-- The answers so far, oldest first. -/
  answers : List Answer

namespace PagerThread

/-- A thread that has yet to start. -/
def starting (pid : Nat) (requests : List ThreadRequest) : PagerThread :=
  ⟨pid, .between, requests, []⟩

/-- The thread after a request was answered. -/
def answered (t : PagerThread) (a : Answer) : PagerThread :=
  { t with phase := .between, answers := t.answers ++ [a] }

/-- The thread with the rest of a copy before it. -/
def continuing (t : PagerThread) (c : UserCopy) : PagerThread :=
  if c.done < c.length then { t with phase := .pinning c } else t.answered c.answer

/-- Starts a copy, whose range has to lie in user memory. The buffer of a read has to be
smaller than half the address space. -/
def startCopy (t : PagerThread) (c : UserCopy) : PagerM PagerThread := do
  unless (← PagerM.pager).config.isUserRange c.start c.length do
    return t.answered (c.failure .kernelAddress)
  unless c.writes do checkBuffer c.length 1
  return t.continuing c

/-- Starts a request; all but the copies are answered in the same step. -/
def start (t : PagerThread) : ThreadRequest → PagerM PagerThread
  | .declare page writable =>
    return t.answered (← Pager.perform (.tryDeclareZero t.pid page writable))
  | .fault addr esp => return t.answered (← Pager.perform (.pageFault t.pid addr esp))
  | .read start length esp => t.startCopy ⟨.fromUser #[], start, length, esp, 0⟩
  | .write start data esp => t.startCopy ⟨.toUser data, start, data.size, esp, 0⟩
  | .destroy => return t.answered (← Pager.perform (.destroy t.pid))

/-- One step. A thread without requests steps in place. -/
def step (t : PagerThread) : PagerM PagerThread :=
  match t.phase with
  | .between =>
    match t.requests with
    | [] => return t
    | request :: rest => { t with requests := rest }.start request
  | .pinning c => do
    match ← PagerM.pinPage t.pid c.piece.addr c.esp c.writes with
    | .error e => return t.answered (c.failure e)
    | .ok frame => return { t with phase := .moving c frame }
  | .moving c frame => return { t with phase := .unpinning (← c.move frame) frame }
  | .unpinning c frame => do
    PagerM.unpinFrame frame
    return t.continuing { c with done := c.done + c.piece.size }

end PagerThread

/-- Threads that share a pager. -/
abbrev PagerThreads (threads : Nat) := Fin threads → PagerThread

namespace PagerThreads

variable {threads : Nat}

/-- One step of thread `i`. -/
def step (ts : PagerThreads threads) (i : Fin threads) : PagerM (PagerThreads threads) := do
  let t ← (ts i).step
  return fun j => if j = i then t else ts j

/-- The threads after the steps of a schedule. -/
def run (ts : PagerThreads threads) : List (Fin threads) → PagerM (PagerThreads threads)
  | [] => return ts
  | i :: rest => do (← ts.step i).run rest

end PagerThreads

end DemandPaging
