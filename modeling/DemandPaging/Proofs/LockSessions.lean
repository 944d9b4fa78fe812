import DemandPaging.Lock.Session
import DemandPaging.Proofs.Histories
import DemandPaging.Proofs.Outcomes

/-!
# One thread cannot tell the locks apart

The spin lock keeps a flag; the ticket lock keeps two counters that only ever grow and wrap around
at `2 ^ 32`, and drops, draws and exchanges move them in different places. A single thread sees none
of this. All that an operation of a lock depends on is whether the lock is held and which value it
protects: this is `LawfulLock`, which for the ticket lock says that the next ticket is as far ahead
of the one that is served as there are guards, modulo `2 ^ 32`.

Behind these laws a session is a matter of its history. Which guard lives, how many were obtained
and what was stored last can be read off the commands and their answers, and so can the answer that
is owed to the next command. The specification mentions no lock, so that two locks that meet it
answer alike.

## Main definitions

* `LawfulLock` — a lock is held or free, and protects a value.
* `LockSession.owed`, `LockSession.expected` — the answers, as a function of the history.
* `LockSession.Follows` — a session is as its history says.
* `LockSession.Faithful` — what a caller may rely on.

## Main results

* `LockSession.Follows.step`, `LockSession.Follows.run` — every lawful lock gives the answers owed.
* `LockSession.locks_interchangeable` — the ticket lock, the spin lock and the mutex answer alike.
-/

namespace DemandPaging

/-! ### Laws of locks -/

/-- A lock whose operations depend only on whether it is held and on the value it protects. -/
class LawfulLock (L : Type → Type) [Lock L] where
  /-- The lock is held or free, as `held` says, and protects `a`. -/
  Stands {α : Type} (l : L α) (held : Bool) (a : α) : Prop
  acquire {α : Type} {l : L α} {a : α} (h : Stands l false a) :
    ∃ l', Lock.acquire? l = some l' ∧ Stands l' true a
  tryAcquire {α : Type} {l : L α} {a : α} (h : Stands l false a) :
    ∃ l', Lock.tryAcquire? l = some l' ∧ Stands l' true a
  tryAcquire_held {α : Type} {l : L α} {a : α} (h : Stands l true a) : Lock.tryAcquire? l = none
  release {α : Type} {l : L α} {a : α} (h : Stands l true a) : Stands (Lock.release l) false a
  isHeld_eq {α : Type} {l : L α} {held : Bool} {a : α} (h : Stands l held a) :
    Lock.isHeld l = held
  value_eq {α : Type} {l : L α} {held : Bool} {a : α} (h : Stands l held a) : Lock.value l = a
  setValue {α : Type} {l : L α} {held : Bool} {a : α} (h : Stands l held a) (b : α) :
    Stands (Lock.setValue l b) held b

/-- A ticket lock is held if one ticket was drawn that is not served yet. The counters may stand
anywhere, since a ticket differs from the one after it also where they wrap around. -/
instance : LawfulLock TicketLock where
  Stands l held a := l.nextTicket = l.nowServing + (if held then 1 else 0) ∧ l.value = a
  acquire := by
    rintro α l a ⟨htickets, hvalue⟩
    have hfree : l.nowServing = l.nextTicket := by simpa using htickets.symm
    exact ⟨{ l with nextTicket := l.nextTicket + 1 }, if_pos hfree, by simp [hfree], hvalue⟩
  tryAcquire := by
    rintro α l a ⟨htickets, hvalue⟩
    have hfree : l.nextTicket = l.nowServing := by simpa using htickets
    exact ⟨{ l with nextTicket := l.nowServing + 1 }, if_pos hfree, rfl, hvalue⟩
  tryAcquire_held := by
    rintro α l a ⟨htickets, -⟩
    exact if_neg (by simp [htickets])
  release := by
    rintro α l a ⟨htickets, hvalue⟩
    refine ⟨?_, hvalue⟩
    show l.nextTicket = l.nowServing + 1 + 0
    simpa using htickets
  isHeld_eq := by
    rintro α l (_ | _) a ⟨htickets, -⟩
    · show (l.nextTicket != l.nowServing) = false
      simpa using htickets
    · show (l.nextTicket != l.nowServing) = true
      simp [htickets]
  value_eq h := h.2
  setValue h b := ⟨h.1, rfl⟩

instance : LawfulLock SpinLock where
  Stands l held a := l.locked = held ∧ l.value = a
  acquire := by
    rintro α l a ⟨hfree, hvalue⟩
    exact ⟨{ l with locked := true }, if_neg (by simp [hfree]), rfl, hvalue⟩
  tryAcquire := by
    rintro α l a ⟨hfree, hvalue⟩
    exact ⟨{ l with locked := true }, if_neg (by simp [hfree]), rfl, hvalue⟩
  tryAcquire_held h := if_pos h.1
  release h := ⟨rfl, h.2⟩
  isHeld_eq h := h.1
  value_eq h := h.2
  setValue h b := ⟨h.1, rfl⟩

instance : LawfulLock Mutex where
  Stands m held a := LawfulLock.Stands m.inner held a
  acquire := by
    intro α m a h
    obtain ⟨l, hl, h⟩ := LawfulLock.acquire (L := TicketLock) h
    exact ⟨⟨l⟩, congrArg (Option.map Mutex.mk) hl, h⟩
  tryAcquire := by
    intro α m a h
    obtain ⟨l, hl, h⟩ := LawfulLock.tryAcquire (L := TicketLock) h
    exact ⟨⟨l⟩, congrArg (Option.map Mutex.mk) hl, h⟩
  tryAcquire_held h :=
    congrArg (Option.map Mutex.mk) (LawfulLock.tryAcquire_held (L := TicketLock) h)
  release h := LawfulLock.release (L := TicketLock) h
  isHeld_eq h := LawfulLock.isHeld_eq (L := TicketLock) h
  value_eq h := LawfulLock.value_eq (L := TicketLock) h
  setValue h b := LawfulLock.setValue (L := TicketLock) h b

namespace LockSession

/-! ### What a history says -/

/-- A command that was answered. -/
structure Event where
  command : LockCommand
  answer : LockAnswer

/-- The guards that live after an answer: one that was obtained lives until it is dropped. -/
def Event.liveAfter (live : List Nat) (e : Event) : List Nat :=
  match e.command, e.answer with
  | _, .guard g => live ++ [g]
  | .drop g, .done => live.erase g
  | _, _ => live

/-- Whether a guard was obtained. -/
def Event.obtains (e : Event) : Bool :=
  match e.answer with
  | .guard _ => true
  | _ => false

/-- The value that a command stored. -/
def Event.stored? (e : Event) : Option Nat :=
  match e.command, e.answer with
  | .set _ v, .done | .replace v, .done | .count _ _, .value v => some v
  | _, _ => none

/-- Whether the lock was taken apart. -/
def Event.takesApart (e : Event) : Bool :=
  match e.command, e.answer with
  | .intoInner, .value _ => true
  | _, _ => false

/-- The guards that live. -/
def liveGuards (history : List Event) : List Nat := history.foldl Event.liveAfter []

/-- The number of guards obtained so far. -/
def obtained (history : List Event) : Nat := history.countP Event.obtains

/-- The value that was stored last, `start` if none ever was. -/
def lastStored (start : Nat) (history : List Event) : Nat :=
  (History.last? Event.stored? history).getD start

/-- Whether the lock has been taken apart. -/
def takenApart (history : List Event) : Bool := history.any Event.takesApart

section Concat

variable (start : Nat) (history : List Event) (e : Event)

theorem liveGuards_concat : liveGuards (history ++ [e]) = e.liveAfter (liveGuards history) := by
  rw [liveGuards, List.foldl_append, liveGuards, List.foldl_cons, List.foldl_nil]

theorem obtained_concat :
    obtained (history ++ [e]) = obtained history + if e.obtains then 1 else 0 := by
  rw [obtained, List.countP_append, List.countP_singleton, obtained]

theorem lastStored_concat :
    lastStored start (history ++ [e]) = e.stored?.getD (lastStored start history) := by
  rw [lastStored, History.last?_concat]
  cases e.stored? <;> rfl

theorem takenApart_concat : takenApart (history ++ [e]) = (takenApart history || e.takesApart) := by
  simp [takenApart]

end Concat

/-! ### The answers owed -/

/-- The answer that is owed to a command. What needs the lock to itself is answered `held` while a
guard lives. A count whose sum leaves 64 bits stops the run. -/
def owed (start : Nat) (history : List Event) (c : LockCommand) : Except Panic LockAnswer :=
  let live := liveGuards history
  let value := lastStored start history
  if takenApart history then .ok .gone
  else match c with
    | .lock => .ok (if live = [] then .guard (obtained history) else .held)
    | .tryLock => .ok (if live = [] then .guard (obtained history) else .noGuard)
    | .isLocked => .ok (.yesNo (live ≠ []))
    | .get g => .ok (if g ∈ live then .value value else .dropped)
    | .set g _ | .drop g => .ok (if g ∈ live then .done else .dropped)
    | .replace _ => .ok (if live = [] then .done else .held)
    | .intoInner => .ok (if live = [] then .value value else .held)
    | .count threads rounds =>
      if live ≠ [] then .ok .held
      else if threads * rounds = 0 ∨ value + threads * rounds < 2 ^ 64 then
        .ok (.value (value + threads * rounds))
      else .error .arithmetic

/-- The events that commands lead to if each gets the answer owed. -/
def expected (start : Nat) : List Event → List LockCommand → Except Panic (List Event)
  | _, [] => .ok []
  | before, c :: rest => do
    let answer ← owed start before c
    let events ← expected start (before ++ [⟨c, answer⟩]) rest
    return ⟨c, answer⟩ :: events

/-! ### Sessions -/

/-- A session with a lock of which no guard has been obtained. -/
def ofLock {L : Type → Type} (l : L Nat) : LockSession L := ⟨some l, none, 0⟩

variable {L : Type → Type} [Lock L] [LawfulLock L] {start : Nat} {before history : List Event}
  {s : LockSession L}

/-- A session is as its history says. -/
structure Follows (start : Nat) (history : List Event) (s : LockSession L) : Prop where
  guards_eq : s.guards = obtained history
  live_eq : liveGuards history = s.live.toList
  gone : takenApart history = true → s.lock = none
  stands : takenApart history = false →
    ∃ l, s.lock = some l ∧ LawfulLock.Stands l s.live.isSome (lastStored start history)

/-- The session gives the answer owed to `c` and goes on as the longer history says. It panics only
if it has to. -/
def Gives (start : Nat) (history : List Event) (s : LockSession L) (c : LockCommand) : Prop :=
  match owed start history c with
  | .ok answer => ∃ s', s.step c = .ok (answer, s') ∧ Follows start (history ++ [⟨c, answer⟩]) s'
  | .error e => s.step c = .error e

/-- A lock that is free and protects `v` counts from there, as far as 64 bits go. -/
theorem countUp_of_free {l : L Nat} {v : Nat} (h : LawfulLock.Stands l false v) (rounds : Nat)
    (hfits : rounds = 0 ∨ v + rounds < 2 ^ 64) :
    ∃ l', countUp l rounds = .ok l' ∧ LawfulLock.Stands l' false (v + rounds) := by
  induction rounds generalizing l v with
  | zero => exact ⟨l, rfl, h⟩
  | succ rounds ih =>
    obtain ⟨l₁, hacquire, h₁⟩ := LawfulLock.acquire h
    have hadd : checkedAdd 64 v 1 = .ok (v + 1) := checkedAdd_of_lt (by
      show v + 1 < 2 ^ 64
      omega)
    obtain ⟨l₂, hcount, h₂⟩ := ih (LawfulLock.release (LawfulLock.setValue h₁ (v + 1))) (by omega)
    refine ⟨l₂, ?_, by rwa [Nat.add_right_comm, Nat.add_assoc] at h₂⟩
    simp only [countUp, hacquire, LawfulLock.value_eq h₁, hadd, hcount]

/-- Counting further than 64 bits go stops the run. -/
theorem countUp_of_overflow {l : L Nat} {v : Nat} (h : LawfulLock.Stands l false v) (rounds : Nat)
    (hpos : rounds ≠ 0) (hfull : 2 ^ 64 ≤ v + rounds) : countUp l rounds = .error .arithmetic := by
  induction rounds generalizing l v with
  | zero => contradiction
  | succ rounds ih =>
    obtain ⟨l₁, hacquire, h₁⟩ := LawfulLock.acquire h
    simp only [countUp, hacquire, LawfulLock.value_eq h₁]
    by_cases hlast : v + 1 < 2 ^ 64
    · rw [checkedAdd_of_lt hlast]
      exact ih (LawfulLock.release (LawfulLock.setValue h₁ (v + 1))) (by omega) (by omega)
    · rw [show checkedAdd 64 v 1 = .error .arithmetic from if_neg hlast]

namespace Follows

theorem ofLock {l : L Nat} (h : LawfulLock.Stands l false start) :
    Follows start [] (LockSession.ofLock l) where
  guards_eq := rfl
  live_eq := rfl
  gone h := by cases h
  stands _ := ⟨l, rfl, h⟩

/-- An event that obtains, drops and stores nothing leaves the session as it is. -/
theorem skip (h : Follows start history s) {e : Event}
    (hlive : e.liveAfter (liveGuards history) = liveGuards history) (hobtains : e.obtains = false)
    (hstored : e.stored? = none) (hapart : e.takesApart = false) :
    Follows start (history ++ [e]) s where
  guards_eq := by rw [h.guards_eq, obtained_concat, hobtains]; rfl
  live_eq := by rw [liveGuards_concat, hlive, h.live_eq]
  gone := by rw [takenApart_concat, hapart, Bool.or_false]; exact h.gone
  stands := by
    rw [takenApart_concat, hapart, Bool.or_false, lastStored_concat, hstored]
    exact h.stands

/-- A command that leaves the guards alone and the lock in one piece. -/
theorem store (h : Follows start history s) {e : Event} {l : L Nat}
    (hwhole : takenApart history = false)
    (hlive : e.liveAfter (liveGuards history) = liveGuards history) (hobtains : e.obtains = false)
    (hapart : e.takesApart = false)
    (hl : LawfulLock.Stands l s.live.isSome (e.stored?.getD (lastStored start history))) :
    Follows start (history ++ [e]) { s with lock := some l } where
  guards_eq := by rw [h.guards_eq, obtained_concat, hobtains]; rfl
  live_eq := by rw [liveGuards_concat, hlive, h.live_eq]
  gone hgone := by simp [takenApart_concat, hwhole, hapart] at hgone
  stands _ := ⟨l, rfl, by rwa [lastStored_concat]⟩

/-- A guard is obtained while none lives. -/
theorem obtain (h : Follows start history s) {c : LockCommand} {l : L Nat}
    (hwhole : takenApart history = false) (hfree : liveGuards history = [])
    (hl : LawfulLock.Stands l true (lastStored start history)) :
    Follows start (history ++ [⟨c, .guard (obtained history)⟩]) (s.obtain l).2 where
  guards_eq := by rw [obtained_concat, ← h.guards_eq]; rfl
  live_eq := by
    rw [liveGuards_concat, Event.liveAfter, hfree, ← h.guards_eq]
    rfl
  gone hgone := by cases c <;> simp [takenApart_concat, hwhole, Event.takesApart] at hgone
  stands _ := ⟨l, rfl, by cases c <;> rwa [lastStored_concat]⟩

/-- The lock is taken apart. -/
theorem takeApart {v : Nat} (h : Follows start history s) :
    Follows start (history ++ [⟨.intoInner, .value v⟩])
      (⟨none, s.live, s.guards⟩ : LockSession L) where
  guards_eq := by rw [obtained_concat, h.guards_eq]; rfl
  live_eq := by rw [liveGuards_concat]; exact h.live_eq
  gone _ := rfl
  stands hwhole := by simp [takenApart_concat, Event.takesApart] at hwhole

/-- The guard that lives is dropped. -/
theorem drop {g guards : Nat} {l₀ l : L Nat} (h : Follows start history ⟨some l₀, some g, guards⟩)
    (hwhole : takenApart history = false)
    (hl : LawfulLock.Stands l false (lastStored start history)) :
    Follows start (history ++ [⟨.drop g, .done⟩]) (⟨some l, none, guards⟩ : LockSession L) where
  guards_eq := by rw [obtained_concat]; exact h.guards_eq
  live_eq := by
    rw [liveGuards_concat, Event.liveAfter, h.live_eq]
    exact List.erase_cons_head g []
  gone hgone := by simp [takenApart_concat, hwhole, Event.takesApart] at hgone
  stands _ := ⟨l, rfl, by rwa [lastStored_concat]⟩

/-- The lock is free: the next command gets the answer owed, and the session follows. -/
theorem step_of_free {l : L Nat} {guards : Nat} (h : Follows start history ⟨some l, none, guards⟩)
    (hwhole : takenApart history = false)
    (hl : LawfulLock.Stands l false (lastStored start history)) (c : LockCommand) :
    Gives start history (⟨some l, none, guards⟩ : LockSession L) c := by
  have hfree : liveGuards history = [] := h.live_eq
  obtain rfl : guards = obtained history := h.guards_eq
  simp only [Gives, owed, hwhole, hfree, Bool.false_eq_true, if_true, if_false, ne_eq, not_true,
    List.not_mem_nil, decide_false]
  cases c with
  | lock =>
    obtain ⟨l', hacquire, hl'⟩ := LawfulLock.acquire hl
    refine ⟨_, ?_, h.obtain hwhole hfree hl'⟩
    simp only [LockSession.step, Option.isSome_none, Bool.false_eq_true, if_false, hacquire]
    rfl
  | tryLock =>
    obtain ⟨l', hacquire, hl'⟩ := LawfulLock.tryAcquire hl
    exact ⟨_, by simp only [LockSession.step, hacquire]; rfl, h.obtain hwhole hfree hl'⟩
  | isLocked =>
    exact ⟨_, by simp only [LockSession.step, LawfulLock.isHeld_eq hl], h.skip rfl rfl rfl rfl⟩
  | get | set | drop => exact ⟨_, rfl, h.skip rfl rfl rfl rfl⟩
  | replace v => exact ⟨_, rfl, h.store hwhole rfl rfl rfl (LawfulLock.setValue hl v)⟩
  | intoInner =>
    exact ⟨_, by simp only [LockSession.step, LawfulLock.value_eq hl]; rfl, h.takeApart⟩
  | count threads rounds =>
    simp only [LockSession.step, Option.isSome_none, Bool.false_eq_true, if_false]
    by_cases hfits : threads * rounds = 0 ∨
        lastStored start history + threads * rounds < 2 ^ 64
    · obtain ⟨l', hcount, hl'⟩ := countUp_of_free hl _ hfits
      rw [if_pos hfits, hcount]
      exact ⟨_, by rw [← LawfulLock.value_eq hl']; rfl, h.store hwhole rfl rfl rfl hl'⟩
    · rw [if_neg hfits, countUp_of_overflow hl _ (by omega) (by omega)]
      rfl

/-- A guard lives: the next command gets the answer owed, and the session follows. -/
theorem step_of_held {l : L Nat} {g guards : Nat}
    (h : Follows start history ⟨some l, some g, guards⟩) (hwhole : takenApart history = false)
    (hl : LawfulLock.Stands l true (lastStored start history)) (c : LockCommand) :
    Gives start history (⟨some l, some g, guards⟩ : LockSession L) c := by
  have hheld : liveGuards history = [g] := h.live_eq
  simp only [Gives, owed, hwhole, hheld, Bool.false_eq_true, if_true, if_false, ne_eq,
    reduceCtorEq, not_false_iff, List.mem_singleton, decide_true]
  cases c with
  | lock | replace | intoInner | count => exact ⟨_, rfl, h.skip rfl rfl rfl rfl⟩
  | tryLock =>
    exact ⟨_, by simp only [LockSession.step, LawfulLock.tryAcquire_held hl],
      h.skip rfl rfl rfl rfl⟩
  | isLocked =>
    exact ⟨_, by simp only [LockSession.step, LawfulLock.isHeld_eq hl], h.skip rfl rfl rfl rfl⟩
  | get g' =>
    simp only [LockSession.step, Option.some.injEq, eq_comm (a := g), LawfulLock.value_eq hl]
    split <;> exact ⟨_, rfl, h.skip rfl rfl rfl rfl⟩
  | set g' v =>
    simp only [LockSession.step, Option.some.injEq, eq_comm (a := g)]
    split
    · exact ⟨_, rfl, h.store hwhole rfl rfl rfl (LawfulLock.setValue hl v)⟩
    · exact ⟨_, rfl, h.skip rfl rfl rfl rfl⟩
  | drop g' =>
    simp only [LockSession.step, Option.some.injEq, eq_comm (a := g)]
    split
    case isTrue hg =>
      cases hg
      exact ⟨_, rfl, h.drop hwhole (LawfulLock.release hl)⟩
    case isFalse => exact ⟨_, rfl, h.skip rfl rfl rfl rfl⟩

/-- The next command gets the answer owed, and the session goes on as its history says. -/
theorem step (h : Follows start history s) (c : LockCommand) : Gives start history s c := by
  obtain ⟨lock, live, guards⟩ := s
  cases hwhole : takenApart history with
  | true =>
    obtain rfl : lock = none := h.gone hwhole
    simp only [Gives, owed, hwhole, if_true]
    exact ⟨_, rfl, h.skip (by cases c <;> rfl) rfl (by cases c <;> rfl) (by cases c <;> rfl)⟩
  | false =>
    obtain ⟨l, hlock, hl⟩ := h.stands hwhole
    cases hlock
    cases live with
    | none => exact h.step_of_free hwhole hl c
    | some g => exact h.step_of_held hwhole hl c

/-- Every run gives the answers owed. -/
theorem run (h : Follows start before s) (commands : List LockCommand) :
    match expected start before commands with
    | .ok history => ∃ s', s.run commands = .ok (history.map Event.answer, s') ∧
        Follows start (before ++ history) s'
    | .error e => s.run commands = .error e := by
  induction commands generalizing before s with
  | nil => exact ⟨s, rfl, by rwa [List.append_nil]⟩
  | cons c rest ih =>
    have hstep := h.step c
    rw [Gives] at hstep
    rw [expected, LockSession.run]
    cases howed : owed start before c with
    | error e =>
      rw [howed] at hstep
      rw [hstep]
      rfl
    | ok answer =>
      rw [howed] at hstep
      obtain ⟨s₁, hstep, h₁⟩ := hstep
      have hrest := ih h₁
      rw [hstep]
      simp only [except_ok_bind]
      cases hexpected : expected start (before ++ [⟨c, answer⟩]) rest with
      | error e =>
        rw [hexpected] at hrest
        rw [hrest]
        rfl
      | ok events =>
        rw [hexpected] at hrest
        obtain ⟨s₂, hrun, h₂⟩ := hrest
        rw [List.append_assoc] at h₂
        exact ⟨s₂, by rw [hrun]; rfl, h₂⟩

end Follows

theorem run_ofLock_eq_ok {l : L Nat} (hl : LawfulLock.Stands l false start)
    {commands : List LockCommand} (h : expected start [] commands = .ok history) :
    ∃ s, (ofLock l).run commands = .ok (history.map Event.answer, s) := by
  have hrun := (Follows.ofLock hl).run commands
  rw [h] at hrun
  obtain ⟨s, hrun, -⟩ := hrun
  exact ⟨s, hrun⟩

theorem run_ofLock_eq_error {l : L Nat} (hl : LawfulLock.Stands l false start)
    {commands : List LockCommand} {e : Panic} (h : expected start [] commands = .error e) :
    (ofLock l).run commands = .error e := by
  have hrun := (Follows.ofLock hl).run commands
  rwa [h] at hrun

/-! ### What a caller may rely on -/

/-- A guard is obtained only while none lives. -/
theorem liveGuards_of_owed {c : LockCommand} {g : Nat} (h : owed start before c = .ok (.guard g)) :
    liveGuards before = [] := by
  by_cases hfree : liveGuards before = []
  · exact hfree
  · cases c <;> grind [owed]

/-- At most one guard lives if that was so before. -/
theorem length_liveGuards_le {c : LockCommand} {answer : LockAnswer}
    (hlive : (liveGuards before).length ≤ 1) (h : owed start before c = .ok answer) :
    (liveGuards (before ++ [⟨c, answer⟩])).length ≤ 1 := by
  rw [liveGuards_concat]
  cases answer with
  | guard g => rw [Event.liveAfter, liveGuards_of_owed h]; exact Nat.le_refl 1
  | done =>
    cases c with
    | drop g => exact Nat.le_trans List.length_erase_le hlive
    | _ => exact hlive
  | _ => cases c <;> exact hlive

/-- What a caller may rely on after a run: each command got the answer that the history before it
owes, and at no time more than one guard lived. -/
structure Faithful (start : Nat) (history : List Event) : Prop where
  answers : History.Throughout (fun earlier e => owed start earlier e.command = .ok e.answer) history
  exclusive : ∀ earlier, earlier <+: history → (liveGuards earlier).length ≤ 1

theorem Faithful.nil : Faithful start [] where
  answers := History.throughout_nil
  exclusive earlier h := by
    rw [List.prefix_nil.1 h]
    exact Nat.zero_le 1

/-- A history that goes on with the answers owed stays faithful. -/
theorem Faithful.concat (h : Faithful start before) {c : LockCommand} {answer : LockAnswer}
    (howed : owed start before c = .ok answer) : Faithful start (before ++ [⟨c, answer⟩]) where
  answers := h.answers.concat howed
  exclusive earlier hearlier := by
    rcases List.prefix_concat_iff.1 hearlier with rfl | hbefore
    · exact length_liveGuards_le (h.exclusive before (List.prefix_refl before)) howed
    · exact h.exclusive earlier hbefore

theorem Faithful.expected (h : Faithful start before) {commands : List LockCommand}
    (hexpected : expected start before commands = .ok history) :
    history.map Event.command = commands ∧ Faithful start (before ++ history) := by
  induction commands generalizing before history with
  | nil =>
    cases hexpected
    exact ⟨rfl, by rwa [List.append_nil]⟩
  | cons c rest ih =>
    simp only [LockSession.expected, except_bind_eq_ok, except_pure_eq_ok] at hexpected
    obtain ⟨answer, howed, events, hrest, rfl⟩ := hexpected
    obtain ⟨hcommands, hfaithful⟩ := ih (h.concat howed) hrest
    rw [List.append_assoc] at hfaithful
    exact ⟨by rw [List.map_cons, hcommands], hfaithful⟩

/-- Only a count can stop a run. -/
theorem expected_eq_error {commands : List LockCommand} {e : Panic}
    (h : expected start before commands = .error e) :
    e = .arithmetic ∧ ∃ threads rounds, LockCommand.count threads rounds ∈ commands := by
  induction commands generalizing before with
  | nil => cases h
  | cons c rest ih =>
    rw [expected] at h
    cases howed : owed start before c with
    | error e' =>
      rw [howed] at h
      cases h
      cases c <;> grind [owed]
    | ok answer =>
      rw [howed] at h
      simp only [except_ok_bind] at h
      cases hrest : expected start (before ++ [⟨c, answer⟩]) rest with
      | error e' =>
        rw [hrest] at h
        cases h
        obtain ⟨rfl, threads, rounds, hmem⟩ := ih hrest
        exact ⟨rfl, threads, rounds, List.mem_cons_of_mem c hmem⟩
      | ok events =>
        rw [hrest] at h
        cases h

/-- The ticket lock, the spin lock and the mutex answer a thread's commands alike, from whatever
ticket they start: with the answers that the history owes. Only a count that leaves 64 bits stops
the run, and it stops all three. -/
theorem locks_interchangeable (start : Nat) (commands : List LockCommand) :
    (∃ history : List Event, history.map Event.command = commands ∧ Faithful start history ∧
      (∀ ticket, ∃ s, (ofLock (⟨ticket, ticket, start⟩ : TicketLock Nat)).run commands
        = .ok (history.map Event.answer, s)) ∧
      (∃ s, (ofLock (⟨false, start⟩ : SpinLock Nat)).run commands
        = .ok (history.map Event.answer, s)) ∧
      ∀ ticket, ∃ s, (ofLock (⟨⟨ticket, ticket, start⟩⟩ : Mutex Nat)).run commands
        = .ok (history.map Event.answer, s)) ∨
    ((∃ threads rounds, LockCommand.count threads rounds ∈ commands) ∧
      (∀ ticket, (ofLock (⟨ticket, ticket, start⟩ : TicketLock Nat)).run commands
        = .error .arithmetic) ∧
      (ofLock (⟨false, start⟩ : SpinLock Nat)).run commands = .error .arithmetic ∧
      ∀ ticket, (ofLock (⟨⟨ticket, ticket, start⟩⟩ : Mutex Nat)).run commands
        = .error .arithmetic) := by
  have hticket (ticket : UInt32) :
      LawfulLock.Stands (⟨ticket, ticket, start⟩ : TicketLock Nat) false start :=
    ⟨(UInt32.add_zero ticket).symm, rfl⟩
  have hspin : LawfulLock.Stands (⟨false, start⟩ : SpinLock Nat) false start := ⟨rfl, rfl⟩
  have hmutex (ticket : UInt32) :
      LawfulLock.Stands (⟨⟨ticket, ticket, start⟩⟩ : Mutex Nat) false start := hticket ticket
  cases hexpected : expected start [] commands with
  | ok history =>
    obtain ⟨hcommands, hfaithful⟩ := Faithful.nil.expected hexpected
    exact .inl ⟨history, hcommands, hfaithful,
      fun ticket => run_ofLock_eq_ok (hticket ticket) hexpected, run_ofLock_eq_ok hspin hexpected,
      fun ticket => run_ofLock_eq_ok (hmutex ticket) hexpected⟩
  | error e =>
    obtain ⟨rfl, hcount⟩ := expected_eq_error hexpected
    exact .inr ⟨hcount, fun ticket => run_ofLock_eq_error (hticket ticket) hexpected,
      run_ofLock_eq_error hspin hexpected,
      fun ticket => run_ofLock_eq_error (hmutex ticket) hexpected⟩

end LockSession

end DemandPaging
