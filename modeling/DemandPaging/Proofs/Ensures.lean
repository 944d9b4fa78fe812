import DemandPaging.Pager.Basic
import Mathlib.Algebra.Group.Nat.Defs

/-!
# What an action establishes unless it panics

A panic stops the run, so every law of the pager speaks of the actions that end. `Ensures x Q t`
says so: if `x` ends when it starts at `t`, then `Q` holds of its answer and of where it ends. A
panic satisfies any such statement, which is why a law that an action *does* end has to be stated
apart.

The equations below turn `Ensures` of an action into plain statements about its parts, in the
order in which it takes them. They are all equivalences, so a proof loses nothing by rewriting
with them.

## Main definitions

* `PagerM.Ensures` — the postcondition of an action.
* `PagerM.Ends` — an action that does not panic.

## Main results

* `PagerM.ensures_bind` — the postcondition of a sequence.
* `PagerM.Ensures.mono` — a spec is used through what it implies.
-/

namespace DemandPaging

/-! ### Successful checks -/

@[simp] theorem except_bind_eq_ok {ε α β : Type} {x : Except ε α} {f : α → Except ε β} {b : β} :
    (x >>= f) = .ok b ↔ ∃ a, x = .ok a ∧ f a = .ok b := by
  cases x <;> simp [bind, Except.bind]

@[simp] theorem except_pure_eq_ok {ε α : Type} {a b : α} :
    (pure a : Except ε α) = .ok b ↔ a = b := by
  simp [pure, Except.pure]

@[simp] theorem except_map_eq_ok {ε α β : Type} {x : Except ε α} {f : α → β} {b : β} :
    f <$> x = .ok b ↔ ∃ a, x = .ok a ∧ f a = b := by
  cases x <;> simp [Functor.map, Except.map]

@[simp] theorem except_throw_ne_ok {ε α : Type} {e : ε} {a : α} :
    (throw e : Except ε α) ≠ .ok a := by
  simp [throw, throwThe, MonadExceptOf.throw]

@[simp] theorem except_ite_eq_ok {ε α : Type} {c : Prop} [Decidable c] {x y : Except ε α} {b : α} :
    (if c then x else y) = .ok b ↔ (c ∧ x = .ok b) ∨ (¬ c ∧ y = .ok b) := by
  split <;> simp [*]

theorem checkedAdd_eq_ok {width a b n : Nat} :
    checkedAdd width a b = .ok n ↔ a + b < 2 ^ width ∧ a + b = n := by
  show (if a + b < 2 ^ width then _ else _) = _ ↔ _
  split <;> simp [*]

theorem checkedMul_eq_ok {width a b n : Nat} :
    checkedMul width a b = .ok n ↔ a * b < 2 ^ width ∧ a * b = n := by
  show (if a * b < 2 ^ width then _ else _) = _ ↔ _
  split <;> simp [*]

theorem checkedSub_eq_ok {a b n : Nat} : checkedSub a b = .ok n ↔ b ≤ a ∧ a - b = n := by
  unfold checkedSub
  split <;> simp [*]

namespace PagerM

variable {α β : Type} {t : Traced} {Q : α → Traced → Prop}

/-- If `x` ends when it starts at `t`, then `Q` holds of its answer and of where it ends. -/
def Ensures (x : PagerM α) (Q : α → Traced → Prop) (t : Traced) : Prop :=
  ∀ a t', x.run t = .ok a t' → Q a t'

/-- `x` ends when it starts at `t`: it does not panic. -/
def Ends (x : PagerM α) (t : Traced) : Prop := ∃ a t', x.run t = .ok a t'

instance {x : PagerM α} : Decidable (Ends x t) :=
  match h : x.run t with
  | .ok a t' => isTrue ⟨a, t', h⟩
  | .error _ _ => isFalse (by simp [Ends, h])

theorem Ensures.mono {x : PagerM α} {R : α → Traced → Prop} (h : Ensures x Q t)
    (hQR : ∀ a t', Q a t' → R a t') : Ensures x R t :=
  fun a t' hrun => hQR a t' (h a t' hrun)

theorem Ensures.and {x : PagerM α} {R : α → Traced → Prop} (hQ : Ensures x Q t)
    (hR : Ensures x R t) : Ensures x (fun a t' => Q a t' ∧ R a t') t :=
  fun a t' hrun => ⟨hQ a t' hrun, hR a t' hrun⟩

/-- `Ensures` looks at the one way in which `x` goes on from `t`. -/
theorem ensures_iff {x : PagerM α} : Ensures x Q t ↔ match x.run t with
    | .ok a t' => Q a t'
    | .error _ _ => True := by
  unfold Ensures
  cases x.run t <;> simp

/-! ### The parts of an action -/

theorem run_bind_eq_ok {x : PagerM α} {f : α → PagerM β} {b : β} {t' : Traced} :
    (x >>= f).run t = .ok b t' ↔ ∃ a t₁, x.run t = .ok a t₁ ∧ (f a).run t₁ = .ok b t' := by
  rw [EStateM.run_bind]
  cases x.run t with
  | error e t₁ => simp
  | ok a t₁ =>
    constructor
    · intro h
      exact ⟨a, t₁, rfl, h⟩
    · rintro ⟨a, t₁, ⟨⟩, h⟩
      exact h

theorem run_map_eq_ok {x : PagerM α} {f : α → β} {b : β} {t' : Traced} :
    (f <$> x).run t = .ok b t' ↔ ∃ a, x.run t = .ok a t' ∧ f a = b := by
  rw [map_eq_pure_bind, run_bind_eq_ok]
  constructor
  · rintro ⟨a, t₁, h, ⟨⟩⟩
    exact ⟨a, h, rfl⟩
  · rintro ⟨a, h, rfl⟩
    exact ⟨a, t', h, rfl⟩

@[simp] theorem ensures_pure {a : α} : Ensures (pure a) Q t ↔ Q a t :=
  ensures_iff.trans Iff.rfl

@[simp] theorem ensures_throw {e : Panic} : Ensures (throw e : PagerM α) Q t ↔ True :=
  ensures_iff.trans Iff.rfl

@[simp] theorem ensures_bind {x : PagerM α} {f : α → PagerM β} {Q : β → Traced → Prop} :
    Ensures (x >>= f) Q t ↔ Ensures x (fun a t' => Ensures (f a) Q t') t := by
  rw [ensures_iff, ensures_iff, EStateM.run_bind]
  cases x.run t with
  | ok a t' => exact ensures_iff.symm
  | error e t' => exact Iff.rfl

@[simp] theorem ensures_map {x : PagerM α} {f : α → β} {Q : β → Traced → Prop} :
    Ensures (f <$> x) Q t ↔ Ensures x (fun a => Q (f a)) t := by
  rw [ensures_iff, ensures_iff]
  simp only [EStateM.run, Functor.map, EStateM.map]
  cases x t <;> exact Iff.rfl

@[simp] theorem ensures_discard {x : PagerM α} {Q : Unit → Traced → Prop} :
    Ensures (discard x) Q t ↔ Ensures x (fun _ t' => Q () t') t := by
  show Ensures ((fun _ => ()) <$> x) Q t ↔ _
  rw [ensures_map]

@[simp] theorem ensures_lift {x : Except Panic α} :
    Ensures (liftM x) Q t ↔ ∀ a, x = .ok a → Q a t := by
  cases x with
  | error e => exact ensures_throw.trans (by simp)
  | ok a => exact ensures_pure.trans (by simp)

@[simp] theorem ensures_ite {c : Prop} [Decidable c] {x y : PagerM α} :
    Ensures (if c then x else y) Q t ↔ (c → Ensures x Q t) ∧ (¬ c → Ensures y Q t) := by
  split <;> simp [*]

/-! ### Reading and changing the pager -/

@[simp] theorem ensures_pager {Q : Pager → Traced → Prop} : Ensures pager Q t ↔ Q t.pager t :=
  ensures_iff.trans Iff.rfl

variable {Q : Unit → Traced → Prop}

@[simp] theorem ensures_update {f : Pager → Pager} :
    Ensures (update f) Q t ↔ Q () { t with pager := f t.pager } :=
  ensures_iff.trans Iff.rfl

@[simp] theorem ensures_emit {e : PagerEvent} :
    Ensures (emit e) Q t ↔ Q () { t with log := t.log.push e } :=
  ensures_iff.trans Iff.rfl

@[simp] theorem ensures_setFrames {frames : FramePool} :
    Ensures (setFrames frames) Q t ↔ Q () { t with pager := { t.pager with frames } } :=
  ensures_update

@[simp] theorem ensures_setSwap {swap : Swap} :
    Ensures (setSwap swap) Q t ↔ Q () { t with pager := { t.pager with swap } } :=
  ensures_update

@[simp] theorem ensures_setProcess {pid : Nat} {p : Process} :
    Ensures (setProcess pid p) Q t ↔
      Q () { t with pager := { t.pager with processes := t.pager.processes.insert pid p } } :=
  ensures_update

@[simp] theorem ensures_setContents {frame : Nat} {page : Page} :
    Ensures (setContents frame page) Q t ↔
      ∀ memory, t.pager.memory.setContents frame page = .ok memory →
        Q () { t with pager := { t.pager with memory } } := by
  simp [setContents]

@[simp] theorem ensures_releaseFrame {frame : Nat} :
    Ensures (releaseFrame frame) Q t ↔
      ∀ frames, t.pager.frames.release frame = .ok frames →
        Q () { t with pager := { t.pager with frames } } := by
  simp [releaseFrame]

@[simp] theorem ensures_pinFrame {frame : Nat} :
    Ensures (pinFrame frame) Q t ↔
      ∀ frames, t.pager.frames.pin frame = .ok frames →
        Q () { t with pager := { t.pager with frames } } := by
  simp [pinFrame]

@[simp] theorem ensures_unpinFrame {frame : Nat} :
    Ensures (unpinFrame frame) Q t ↔
      ∀ frames, t.pager.frames.unpin frame = .ok frames →
        Q () { t with pager := { t.pager with frames } } := by
  simp [unpinFrame]

@[simp] theorem ensures_process {pid : Nat} {Q : Process → Traced → Prop} :
    Ensures (process pid) Q t ↔ ∀ p, t.pager.processes[pid]? = some p → Q p t := by
  unfold process
  simp only [ensures_bind, ensures_pager]
  cases t.pager.processes[pid]? with
  | none => simp
  | some p => simp

end PagerM

end DemandPaging
