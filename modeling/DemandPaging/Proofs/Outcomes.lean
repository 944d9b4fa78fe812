import DemandPaging.Proofs.Ensures

/-!
# What an action keeps, and how it stops

Two companions of `Ensures`. An action keeps a property if the property holds of where the action
ends whenever it held of where the action started; a sequence keeps what its parts keep, so this
needs no look at the order of the parts.

`Ensures` says nothing of an action that panics. `Meets` speaks of both ways to stop: one
postcondition for the end of the action, and one for the panic and the state in which it happens.
With a second postcondition that is never true it says that the action ends. The equations are
again equivalences, one per part of an action. A property that holds of both ends whenever it held
of the start is preserved, which is to `Meets` what keeping is to `Ensures`.

## Main definitions

* `PagerM.Keeps` — a property that survives an action.
* `PagerM.Meets` — the postconditions of an action, for its end and for its panic.
* `PagerM.Leaves` — the states in which an action can stop.
* `PagerM.Preserves` — a property that survives an action, also if it panics.

## Main results

* `PagerM.Keeps.bind`, `PagerM.Preserves.bind` — a sequence keeps and preserves what its parts do.
* `PagerM.meets_bind` — the postconditions of a sequence.
-/

namespace DemandPaging

/-- A check that was passed is behind. -/
theorem except_ok_bind {ε α β : Type} (a : α) (f : α → Except ε β) :
    ((Except.ok a : Except ε α) >>= f) = f a := rfl

namespace PagerM

variable {α β : Type} {t : Traced}

/-! ### Properties that survive -/

/-- Where `x` ends, `P` holds if it held where `x` started. -/
def Keeps (P : Traced → Prop) (x : PagerM α) : Prop := ∀ t, P t → Ensures x (fun _ t' => P t') t

section Keeps

variable {P : Traced → Prop}

theorem keeps_pure (a : α) : Keeps P (pure a) := fun _ ht => ensures_pure.2 ht

theorem keeps_throw (e : Panic) : Keeps P (throw e : PagerM α) :=
  fun _ _ => ensures_throw.2 trivial

theorem keeps_lift (x : Except Panic α) : Keeps P (liftM x) :=
  fun _ ht => ensures_lift.2 fun _ _ => ht

theorem keeps_pager : Keeps P pager := fun _ ht => ensures_pager.2 ht

theorem keeps_process (pid : Nat) : Keeps P (process pid) :=
  fun _ ht => ensures_process.2 fun _ _ => ht

theorem Keeps.bind {x : PagerM α} {f : α → PagerM β} (hx : Keeps P x) (hf : ∀ a, Keeps P (f a)) :
    Keeps P (x >>= f) := fun t ht =>
  ensures_bind.2 ((hx t ht).mono fun a t' => hf a t')

theorem Keeps.discard {x : PagerM α} (hx : Keeps P x) : Keeps P (discard x) := fun t ht =>
  ensures_discard.2 (hx t ht)

theorem Keeps.ite {c : Prop} [Decidable c] {x y : PagerM α} (hx : Keeps P x) (hy : Keeps P y) :
    Keeps P (if c then x else y) := by
  split
  · exact hx
  · exact hy

end Keeps

/-! ### Both ways to stop -/

/-- If `x` ends when it starts at `t`, then `Q` holds of its answer and of where it ends, and if it
panics, then `E` holds of the panic and of where it happens. -/
def Meets (x : PagerM α) (Q : α → Traced → Prop) (E : Panic → Traced → Prop) (t : Traced) : Prop :=
  match x.run t with
  | .ok a t' => Q a t'
  | .error e t' => E e t'

/-- When `x` starts at `t`, it stops at `t'`, well or with a panic. -/
def Leaves (x : PagerM α) (t t' : Traced) : Prop :=
  (∃ a, x.run t = .ok a t') ∨ ∃ e, x.run t = .error e t'

/-- What holds where an action ends can be found out by running it. -/
instance {x : PagerM α} {P : α → Traced → Prop} [∀ a t', Decidable (P a t')] :
    Decidable (∃ a t', x.run t = .ok a t' ∧ P a t') :=
  match x.run t with
  | .ok a t' => decidable_of_iff (P a t') (by
    constructor
    · intro hP
      exact ⟨a, t', rfl, hP⟩
    · rintro ⟨_, _, ⟨⟩, hP⟩
      exact hP)
  | .error _ _ => isFalse (by simp)

instance {x : PagerM α} {Q : α → Traced → Prop} {E : Panic → Traced → Prop}
    [∀ a t', Decidable (Q a t')] [∀ e t', Decidable (E e t')] : Decidable (Meets x Q E t) :=
  match h : x.run t with
  | .ok a t' => decidable_of_iff (Q a t') (by rw [Meets, h])
  | .error e t' => decidable_of_iff (E e t') (by rw [Meets, h])

section Meets

variable {Q : α → Traced → Prop} {E : Panic → Traced → Prop}

theorem Meets.mono {x : PagerM α} {Q' : α → Traced → Prop} {E' : Panic → Traced → Prop}
    (h : Meets x Q E t) (hQ : ∀ a t', Q a t' → Q' a t') (hE : ∀ e t', E e t' → E' e t') :
    Meets x Q' E' t := by
  unfold Meets at *
  cases hrun : x.run t with
  | ok a t' =>
    rw [hrun] at h
    exact hQ a t' h
  | error e t' =>
    rw [hrun] at h
    exact hE e t' h

/-- What an action establishes where it ends is added to what is known of both of its ends. -/
theorem Meets.and_ensures {x : PagerM α} {R : α → Traced → Prop} (h : Meets x Q E t)
    (hR : Ensures x R t) : Meets x (fun a t' => Q a t' ∧ R a t') E t := by
  unfold Meets at *
  cases hrun : x.run t with
  | ok a t' =>
    rw [hrun] at h
    exact ⟨h, hR a t' hrun⟩
  | error e t' =>
    rw [hrun] at h
    exact h

/-- What holds where an action stops holds of a state in which it can stop. -/
theorem Meets.and_leaves {x : PagerM α} (h : Meets x Q E t) :
    Meets x (fun a t' => Q a t' ∧ x.Leaves t t') (fun e t' => E e t' ∧ x.Leaves t t') t := by
  unfold Meets at *
  cases hrun : x.run t with
  | ok a t' =>
    rw [hrun] at h
    exact ⟨h, .inl ⟨a, hrun⟩⟩
  | error e t' =>
    rw [hrun] at h
    exact ⟨h, .inr ⟨e, hrun⟩⟩

theorem Meets.ensures {x : PagerM α} (h : Meets x Q E t) : Ensures x Q t := by
  intro a t' hrun
  rwa [Meets, hrun] at h

/-- An action that has no panic to meet ends. -/
theorem Meets.ends {x : PagerM α} (h : Meets x Q (fun _ _ => False) t) : Ends x t := by
  unfold Meets at h
  cases hrun : x.run t with
  | ok a t' => exact ⟨a, t', hrun⟩
  | error e t' =>
    rw [hrun] at h
    exact h.elim

/-- An action that has no panic to meet ends where it should. -/
theorem Meets.exists_run {x : PagerM α} (h : Meets x Q (fun _ _ => False) t) :
    ∃ a t', x.run t = .ok a t' ∧ Q a t' := by
  obtain ⟨a, t', hrun⟩ := h.ends
  exact ⟨a, t', hrun, h.ensures a t' hrun⟩

/-- An action that ends unless `c` meets what it ensures, and `c` where it panics. -/
theorem Meets.of_ensures {x : PagerM α} {c : Prop} (hQ : Ensures x Q t) (hends : ¬ c → Ends x t) :
    Meets x Q (fun _ _ => c) t := by
  unfold Meets
  cases hrun : x.run t with
  | ok a t' => exact hQ a t' hrun
  | error e t' =>
    refine Classical.byContradiction fun hc => ?_
    obtain ⟨a, t'', hrun'⟩ := hends hc
    rw [hrun] at hrun'
    cases hrun'

theorem Meets.of_error {x : PagerM α} {e : Panic} {t' : Traced} (h : Meets x Q E t)
    (hrun : x.run t = .error e t') : E e t' := by
  rwa [Meets, hrun] at h

@[simp] theorem meets_pure {a : α} : Meets (pure a) Q E t ↔ Q a t := Iff.rfl

@[simp] theorem meets_throw {e : Panic} : Meets (throw e : PagerM α) Q E t ↔ E e t := Iff.rfl

@[simp] theorem meets_bind {x : PagerM α} {f : α → PagerM β} {Q : β → Traced → Prop} :
    Meets (x >>= f) Q E t ↔ Meets x (fun a t' => Meets (f a) Q E t') E t := by
  unfold Meets
  rw [EStateM.run_bind]
  cases x.run t with
  | ok a t' => exact Iff.rfl
  | error e t' => exact Iff.rfl

@[simp] theorem meets_discard {x : PagerM α} {Q : Unit → Traced → Prop} :
    Meets (discard x) Q E t ↔ Meets x (fun _ t' => Q () t') E t := by
  unfold Meets
  simp only [discard, EStateM.run, Functor.mapConst, EStateM.map, Function.comp]
  cases x t with
  | ok a t' => exact Iff.rfl
  | error e t' => exact Iff.rfl

/-- A check is passed, or it is where the action panics. -/
theorem meets_lift {x : Except Panic α} :
    Meets (liftM x) Q E t ↔ (∀ a, x = .ok a → Q a t) ∧ ∀ e, x = .error e → E e t := by
  cases x with
  | ok a => exact ⟨fun h => ⟨by rintro _ ⟨⟩; exact h, by simp⟩, fun h => h.1 a rfl⟩
  | error e => exact ⟨fun h => ⟨by simp, by rintro _ ⟨⟩; exact h⟩, fun h => h.2 e rfl⟩

/-- A check that succeeds is passed. -/
theorem meets_lift_of_ok {x : Except Panic α} {a : α} (h : x = .ok a) :
    Meets (liftM x) Q E t ↔ Q a t := by
  subst h
  exact Iff.rfl

/-- A check that fails is where the action panics. -/
theorem meets_lift_of_error {x : Except Panic α} {e : Panic} (h : x = .error e) :
    Meets (liftM x) Q E t ↔ E e t := by
  subst h
  exact Iff.rfl

@[simp] theorem meets_ite {c : Prop} [Decidable c] {x y : PagerM α} :
    Meets (if c then x else y) Q E t ↔ (c → Meets x Q E t) ∧ (¬ c → Meets y Q E t) := by
  split <;> simp [*]

@[simp] theorem meets_pager {Q : Pager → Traced → Prop} : Meets pager Q E t ↔ Q t.pager t :=
  Iff.rfl

theorem meets_process_of_getElem? {pid : Nat} {pr : Process} {Q : Process → Traced → Prop}
    (h : t.pager.processes[pid]? = some pr) : Meets (process pid) Q E t ↔ Q pr t := by
  unfold process
  simp only [meets_bind, meets_pager, h, meets_pure]

section Unit

variable {Q : Unit → Traced → Prop}

@[simp] theorem meets_update {f : Pager → Pager} :
    Meets (update f) Q E t ↔ Q () { t with pager := f t.pager } := Iff.rfl

@[simp] theorem meets_emit {e : PagerEvent} :
    Meets (emit e) Q E t ↔ Q () { t with log := t.log.push e } := Iff.rfl

@[simp] theorem meets_setFrames {frames : FramePool} :
    Meets (setFrames frames) Q E t ↔ Q () { t with pager := { t.pager with frames } } := Iff.rfl

@[simp] theorem meets_setSwap {swap : Swap} :
    Meets (setSwap swap) Q E t ↔ Q () { t with pager := { t.pager with swap } } := Iff.rfl

@[simp] theorem meets_setProcess {pid : Nat} {p : Process} :
    Meets (setProcess pid p) Q E t ↔
      Q () { t with pager := { t.pager with processes := t.pager.processes.insert pid p } } :=
  Iff.rfl

theorem meets_setContents_of_ok {frame : Nat} {page : Page} {memory : FrameMemory}
    (h : t.pager.memory.setContents frame page = .ok memory) :
    Meets (setContents frame page) Q E t ↔ Q () { t with pager := { t.pager with memory } } := by
  unfold setContents
  simp only [meets_bind, meets_pager, meets_lift_of_ok h, meets_update]

theorem meets_releaseFrame_of_ok {frame : Nat} {frames : FramePool}
    (h : t.pager.frames.release frame = .ok frames) :
    Meets (releaseFrame frame) Q E t ↔ Q () { t with pager := { t.pager with frames } } := by
  unfold releaseFrame
  simp only [meets_bind, meets_pager, meets_lift_of_ok h, meets_setFrames]

theorem meets_pinFrame_of_ok {frame : Nat} {frames : FramePool}
    (h : t.pager.frames.pin frame = .ok frames) :
    Meets (pinFrame frame) Q E t ↔ Q () { t with pager := { t.pager with frames } } := by
  unfold pinFrame
  simp only [meets_bind, meets_pager, meets_lift_of_ok h, meets_setFrames]

theorem meets_unpinFrame_of_ok {frame : Nat} {frames : FramePool}
    (h : t.pager.frames.unpin frame = .ok frames) :
    Meets (unpinFrame frame) Q E t ↔ Q () { t with pager := { t.pager with frames } } := by
  unfold unpinFrame
  simp only [meets_bind, meets_pager, meets_lift_of_ok h, meets_setFrames]

end Unit

end Meets

/-! ### Properties that survive a panic -/

section Preserves

variable {P : Traced → Prop}

/-- Where `x` stops, well or with a panic, `P` holds if it held where `x` started. -/
def Preserves (P : Traced → Prop) (x : PagerM α) : Prop := ∀ t t', P t → x.Leaves t t' → P t'

theorem preserves_iff {x : PagerM α} :
    Preserves P x ↔ ∀ t, P t → Meets x (fun _ t' => P t') (fun _ t' => P t') t := by
  constructor
  · intro h t ht
    unfold Meets
    cases hrun : x.run t with
    | ok a t' => exact h t t' ht (.inl ⟨a, hrun⟩)
    | error e t' => exact h t t' ht (.inr ⟨e, hrun⟩)
  · rintro h t t' ht (⟨a, hrun⟩ | ⟨e, hrun⟩)
    · exact (h t ht).ensures a t' hrun
    · exact (h t ht).of_error hrun

/-- What is preserved is kept. -/
theorem Preserves.keeps {x : PagerM α} (hx : Preserves P x) : Keeps P x := fun t ht =>
  (preserves_iff.1 hx t ht).ensures

theorem preserves_pure (a : α) : Preserves P (pure a) := preserves_iff.2 fun _ ht => ht

theorem preserves_throw (e : Panic) : Preserves P (throw e : PagerM α) :=
  preserves_iff.2 fun _ ht => ht

theorem preserves_lift (x : Except Panic α) : Preserves P (liftM x) := by
  refine preserves_iff.2 fun t ht => ?_
  cases x with
  | error e => exact ht
  | ok a => exact ht

theorem preserves_pager : Preserves P pager := preserves_iff.2 fun _ ht => ht

theorem preserves_update {g : Pager → Pager} (h : ∀ t, P t → P { t with pager := g t.pager }) :
    Preserves P (update g) := preserves_iff.2 h

theorem preserves_emit {e : PagerEvent} (h : ∀ t, P t → P { t with log := t.log.push e }) :
    Preserves P (emit e) := preserves_iff.2 h

theorem Preserves.bind {x : PagerM α} {f : α → PagerM β} (hx : Preserves P x)
    (hf : ∀ a, Preserves P (f a)) : Preserves P (x >>= f) :=
  preserves_iff.2 fun t ht => meets_bind.2 <|
    (preserves_iff.1 hx t ht).mono (fun a => preserves_iff.1 (hf a)) fun _ _ h => h

/-- What comes behind an action may rely on what the action preserves. -/
theorem Preserves.meets_bind {x : PagerM α} {f : α → PagerM β} {Q : β → Traced → Prop}
    {E : Panic → Traced → Prop} (hx : Preserves P x) (ht : P t)
    (hf : ∀ a t', P t' → Meets (f a) Q E t') (hE : ∀ e t', P t' → E e t') :
    Meets (x >>= f) Q E t :=
  PagerM.meets_bind.2 ((preserves_iff.1 hx t ht).mono hf hE)

theorem Preserves.ite {c : Prop} [Decidable c] {x y : PagerM α} (hx : Preserves P x)
    (hy : Preserves P y) : Preserves P (if c then x else y) := by
  split
  · exact hx
  · exact hy

theorem Preserves.discard {x : PagerM α} (hx : Preserves P x) : Preserves P (discard x) :=
  preserves_iff.2 fun t ht => meets_discard.2 (preserves_iff.1 hx t ht)

theorem preserves_process (pid : Nat) : Preserves P (process pid) := by
  refine preserves_pager.bind fun p => ?_
  cases p.processes[pid]? with
  | none => exact preserves_throw _
  | some pr => exact preserves_pure pr

end Preserves

end PagerM

end DemandPaging
