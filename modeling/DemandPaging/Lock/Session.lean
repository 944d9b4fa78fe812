import DemandPaging.Lock.Basic

/-!
# One thread's use of a lock

A session is a lock, the guards obtained so far and the one that still lives, if any. Guards are
numbered in the order in which they were obtained. Commands that need the lock to be free answer
`held` while a guard lives, and once the lock has been taken apart every command answers `gone`.

## Main definitions

* `LockCommand`, `LockAnswer` — what can be asked of a lock and what is answered.
* `LockSession`, `LockSession.step` — a session and one command.
-/

namespace DemandPaging

/-- What can be asked of a lock that protects a number. -/
inductive LockCommand
  | lock
  | tryLock
  | isLocked
  /-- Reads the value through a guard. -/
  | get (guard : Nat)
  /-- Stores a value through a guard. -/
  | set (guard value : Nat)
  /-- Drops a guard. -/
  | drop (guard : Nat)
  /-- Stores a value without locking, which exclusive access to the lock allows. -/
  | replace (value : Nat)
  /-- Takes the lock apart and keeps the value. -/
  | intoInner
  /-- Lets some threads add one under the lock some times each, and waits for them. -/
  | count (threads rounds : Nat)
  deriving DecidableEq, Repr

/-- What is answered. -/
inductive LockAnswer
  | done
  | yesNo (b : Bool)
  | guard (number : Nat)
  | noGuard
  | value (v : Nat)
  /-- A guard lives, so the command was not carried out. -/
  | held
  /-- The guard does not live any more. -/
  | dropped
  /-- The lock has been taken apart. -/
  | gone
  deriving DecidableEq, Repr

/-- A lock in use by one thread. -/
structure LockSession (L : Type → Type) where
  /-- The lock, until it is taken apart. -/
  lock : Option (L Nat)
  /-- The guard that lives. -/
  live : Option Nat
  /-- The number of guards obtained so far. -/
  guards : Nat

namespace LockSession

variable {L : Type → Type} [Lock L]

/-- A session with a free lock that protects `value`. -/
def ofValue (value : Nat) : LockSession L := ⟨some (Lock.ofValue value), none, 0⟩

/-- The lock was obtained through a new guard. -/
def obtain (s : LockSession L) (l : L Nat) : LockAnswer × LockSession L :=
  (.guard s.guards, ⟨some l, some s.guards, s.guards + 1⟩)

/-- Adds one under the lock, so many times in a row. The protected value is a 64-bit number. -/
def countUp (l : L Nat) : (rounds : Nat) → Except Panic (L Nat)
  | 0 => .ok l
  | rounds + 1 =>
    match Lock.acquire? l with
    | none => .ok l
    | some l =>
      match checkedAdd 64 (Lock.value l) 1 with
      | .error e => .error e
      | .ok v => countUp (Lock.release (Lock.setValue l v)) rounds

/-- One command. -/
def step (s : LockSession L) (c : LockCommand) : Except Panic (LockAnswer × LockSession L) :=
  match s.lock with
  | none => .ok (.gone, s)
  | some l =>
    match c with
    | .lock =>
      if s.live.isSome then .ok (.held, s)
      else match Lock.acquire? l with
        | some l => .ok (s.obtain l)
        | none => .ok (.held, s)
    | .tryLock =>
      match Lock.tryAcquire? l with
      | some l => .ok (s.obtain l)
      | none => .ok (.noGuard, s)
    | .isLocked => .ok (.yesNo (Lock.isHeld l), s)
    | .get g =>
      if s.live = some g then .ok (.value (Lock.value l), s) else .ok (.dropped, s)
    | .set g v =>
      if s.live = some g then .ok (.done, { s with lock := some (Lock.setValue l v) })
      else .ok (.dropped, s)
    | .drop g =>
      if s.live = some g then
        .ok (.done, { s with lock := some (Lock.release l), live := none })
      else .ok (.dropped, s)
    | .replace v =>
      if s.live.isSome then .ok (.held, s)
      else .ok (.done, { s with lock := some (Lock.setValue l v) })
    | .intoInner =>
      if s.live.isSome then .ok (.held, s)
      else .ok (.value (Lock.value l), { s with lock := none })
    | .count threads rounds =>
      if s.live.isSome then .ok (.held, s)
      else do
        let l ← countUp l (threads * rounds)
        return (.value (Lock.value l), { s with lock := some l })

/-- The commands in turn, with their answers. -/
def run : LockSession L → List LockCommand → Except Panic (List LockAnswer × LockSession L)
  | s, [] => .ok ([], s)
  | s, c :: rest => do
    let (answer, s) ← s.step c
    let (answers, s) ← s.run rest
    return (answer :: answers, s)

end LockSession

end DemandPaging
