import DemandPaging.Pager.Access
import DemandPaging.Proofs.Pins
import DemandPaging.Proofs.Translation

/-!
# How often an access traps

The processor tries an access, traps if the tables do not let it through, and tries again when the
handler has returned. Nothing in this loop bounds the number of tries. It ends because the handler
and the tables agree: a fault that was resolved has left the page in a frame, the tables map
exactly the pages in frames, and so the next trap, if there is one, is a protection violation,
which is never resolved.

The handler resolves every fault as if the page were to be read. So a write to a page that may not
be written traps twice if the page is not in a frame yet: the first trap loads the page, and the
second one kills the process. No access traps three times.

`Traced.Accesses` is the loop itself, without a bound on the tries, and it leaves open what the
error code of a trap says beyond the present bit. `Pager.access` is one way of going through it.

## Main definitions

* `Traced.Accesses` — the tries of an access so far, with the outcomes of its traps.
* `Traced.Settles` — what becomes of an access.

## Main results

* `Pager.Charted.permits_eq` — the tables let an access through to a page in a frame.
* `Traced.Accesses.of_resident`, `Traced.Accesses.exists_stands` — how an access can stand.
* `Pager.access_settles` — an access traps twice at most, and is completed or killed then.
-/

namespace DemandPaging

/-! ### The handler -/

namespace PagerM

variable {pid addr esp : Nat} {code : FaultCode}

/-- A protection violation is reported and kills the process. -/
theorem run_handlePageFault_of_present (h : code.present = true) (t : Traced) :
    (Pager.handlePageFault pid addr esp code).run t = .ok .kill
      { t with
        log := (t.log.push (.trapped pid addr code)).push (.protectionViolation pid addr) } := by
  have hhandler : Pager.handlePageFault pid addr esp code = (do
      emit (.trapped pid addr code)
      emit (.protectionViolation pid addr)
      return .kill) := by
    rw [Pager.handlePageFault, h]
    rfl
  rw [hhandler]
  rfl

/-- A fault on a page that is not present can be tried again if it was resolved, and kills the
process otherwise. -/
theorem ensures_handlePageFault_of_absent (h : code.present = false) (t : Traced) :
    Ensures (Pager.handlePageFault pid addr esp code) (fun outcome t' =>
      (outcome = .retry ∧ ∃ f, t'.pager.residency ⟨pid, pageFloor addr⟩ = some (.resident f)) ∨
        outcome = .kill) t := by
  rw [Pager.handlePageFault, Pager.pageFault, h]
  simp only [ensures_bind, ensures_emit, Bool.false_eq_true, if_false, ensures_pure]
  refine (ensures_faultIn pid addr esp false _).mono ?_
  intro r t' hfault
  cases r with
  | error e =>
    simp only [Except.map, ensures_bind, ensures_emit, ensures_pure]
    exact .inr trivial
  | ok f => exact ensures_pure.2 (.inl ⟨rfl, f, hfault.residency_eq⟩)

/-- The handler lets the access be tried again or kills the process, and never both. -/
theorem ensures_handlePageFault_outcome (pid addr esp : Nat) (code : FaultCode) (t : Traced) :
    Ensures (Pager.handlePageFault pid addr esp code)
      (fun outcome _ => outcome = .retry ∨ outcome = .kill) t := by
  cases h : code.present with
  | true =>
    intro outcome t' hrun
    rw [run_handlePageFault_of_present h] at hrun
    cases hrun
    exact .inr rfl
  | false =>
    exact (ensures_handlePageFault_of_absent h t).mono fun _ _ => Or.imp_left And.left

end PagerM

/-! ### The tables -/

namespace Pager

variable {p p' : Pager} {config : Config} {slots pid v f : Nat} {write : Bool} {pr : Process}

/-- The tables let an access through if its page is in a frame and may be accessed in this way. -/
theorem Charted.permits_eq (h : p.Charted) (hpr : p.processes[pid]? = some pr) (hv : v < 2 ^ 32)
    (write : Bool) : p.permits pid v write
      = .ok ((pr.pages.lookup v).any fun e => e.frame?.isSome && (!write || e.writable)) := by
  rw [permits, h.translate_eq hpr hv, h.isMappedWritable_eq hpr hv]
  cases he : pr.pages.lookup v with
  | none => rfl
  | some e =>
    cases hframe : e.frame? with
    | none => simp [hframe, except_ok_bind, pure, Except.pure]
    | some f => simp [hframe, except_ok_bind, pure, Except.pure]

/-- An address translates exactly when its page is in a frame. -/
theorem Charted.isSome_translate_iff (h : p.Charted) (hpr : p.processes[pid]? = some pr)
    (hv : v < 2 ^ 32) {answer : Option Nat} (ht : p.translate pid v = .ok answer) :
    answer.isSome ↔ ∃ f, p.residency ⟨pid, pageFloor v⟩ = some (.resident f) := by
  rw [h.translate_eq hpr hv] at ht
  cases ht
  rw [residency, declared_of_getElem? hpr, ← PageMap.lookup]
  cases pr.pages.lookup v with
  | none => simp
  | some e => cases hres : e.residency <;> simp [PageEntry.frame?, hres]

theorem Steps.charted {kinds : Change → Prop} (h : Steps kinds p p') (ho : Owned config slots p)
    (hp : p.Charted) : p'.Charted :=
  h.keeps_owned ho (fun _ hstep ho hp => hstep.charted ho hp) hp

/-- The error code of a trap tells whether the page is mapped. -/
theorem present_of_trapCode {code : FaultCode} (h : p.trapCode pid v write = .ok code) :
    ∃ answer, p.translate pid v = .ok answer ∧ code.present = answer.isSome := by
  simp only [trapCode, except_bind_eq_ok, except_pure_eq_ok] at h
  obtain ⟨answer, ht, rfl⟩ := h
  refine ⟨answer, ht, ?_⟩
  cases answer.isSome <;> cases write <;> rfl

end Pager

/-! ### The loop -/

/-- An access to `v` is tried, and tried again after every trap that was resolved. The list has
the outcomes of its traps so far. Of the error code of a trap only the present bit is known. -/
inductive Traced.Accesses (pid v esp : Nat) (write : Bool) :
    Traced → List FaultOutcome → AccessEnd → Traced → Prop
  | completed {t : Traced} (permitted : t.pager.permits pid v write = .ok true) :
    Accesses pid v esp write t [] .completed t
  /-- The access is about to trap. -/
  | unfinished {t : Traced} (denied : t.pager.permits pid v write = .ok false) :
    Accesses pid v esp write t [] .unfinished t
  | killed {t t' : Traced} {answer : Option Nat} {code : FaultCode} {outcome : FaultOutcome}
      {status : Int} (denied : t.pager.permits pid v write = .ok false)
      (translated : t.pager.translate pid v = .ok answer) (present : code.present = answer.isSome)
      (trapped : (Pager.handlePageFault pid v esp code).run t = .ok outcome t')
      (unresolved : outcome.handled = false) (verdict : outcome.killed = some status) :
    Accesses pid v esp write t [outcome] (.killed status) t'
  | retried {t t₁ t' : Traced} {answer : Option Nat} {code : FaultCode} {outcome : FaultOutcome}
      {outcomes : List FaultOutcome} {ending : AccessEnd}
      (denied : t.pager.permits pid v write = .ok false)
      (translated : t.pager.translate pid v = .ok answer) (present : code.present = answer.isSome)
      (trapped : (Pager.handlePageFault pid v esp code).run t = .ok outcome t₁)
      (resolved : outcome.handled = true)
      (rest : Accesses pid v esp write t₁ outcomes ending t') :
    Accesses pid v esp write t (outcome :: outcomes) ending t'

/-- How an access can stand that was tried again `retries` times. -/
inductive Traced.Stands (pid v : Nat) (write : Bool) (retries : Nat) :
    List FaultOutcome → AccessEnd → Traced → Prop
  | completed {t : Traced} (permitted : t.pager.permits pid v write = .ok true) :
    Stands pid v write retries (.replicate retries .retry) .completed t
  | unfinished {t : Traced} : Stands pid v write retries (.replicate retries .retry) .unfinished t
  | killed {t : Traced} :
    Stands pid v write retries (.replicate retries .retry ++ [.kill]) (.killed killedStatus) t

theorem Traced.Stands.retry {pid v retries : Nat} {write : Bool} {outcomes : List FaultOutcome}
    {ending : AccessEnd} {t : Traced} (h : t.Stands pid v write retries outcomes ending) :
    t.Stands pid v write (retries + 1) (.retry :: outcomes) ending := by
  cases h with
  | completed permitted => exact .completed permitted
  | unfinished => exact .unfinished
  | killed => exact .killed

namespace Traced.Stands

variable {pid v retries : Nat} {write : Bool} {outcomes : List FaultOutcome} {ending : AccessEnd}
  {t : Traced} {status : Int}

/-- An access that is tried again once traps twice at most. -/
theorem length_le (h : t.Stands pid v write retries outcomes ending) (hle : retries ≤ 1) :
    outcomes.length ≤ 2 ∧ (ending = .unfinished → outcomes.length < 2) := by
  cases h with
  | completed | unfinished =>
    rw [List.length_replicate]
    omega
  | killed =>
    rw [List.length_append, List.length_replicate, List.length_singleton]
    refine ⟨Nat.succ_le_succ hle, ?_⟩
    rintro ⟨⟩

theorem of_completed (h : t.Stands pid v write retries outcomes .completed) :
    outcomes.filterMap FaultOutcome.killed = [] ∧ t.pager.permits pid v write = .ok true := by
  cases h with
  | completed permitted => exact ⟨by simp [FaultOutcome.retry], permitted⟩

theorem of_killed (h : t.Stands pid v write retries outcomes (.killed status)) :
    outcomes.filterMap FaultOutcome.killed = [killedStatus] ∧ status = killedStatus := by
  cases h with
  | killed => simp [FaultOutcome.retry, FaultOutcome.kill]

/-- A trap kills the process where the handler says that the access cannot be tried again. -/
theorem killed_iff (h : t.Stands pid v write retries outcomes ending) {outcome : FaultOutcome}
    (ho : outcome ∈ outcomes) : outcome.killed.isSome ↔ outcome.handled = false := by
  have hcases : outcome = .retry ∨ outcome = .kill := by
    cases h with
    | completed | unfinished => exact .inl (List.eq_of_mem_replicate ho)
    | killed =>
      rcases List.mem_append.1 ho with ho | ho
      · exact .inl (List.eq_of_mem_replicate ho)
      · exact .inr (List.mem_singleton.1 ho)
  rcases hcases with rfl | rfl <;> simp [FaultOutcome.retry, FaultOutcome.kill]

end Traced.Stands

namespace Traced.Accesses

variable {pid v esp : Nat} {write : Bool} {t t' : Traced} {outcomes : List FaultOutcome}
  {ending : AccessEnd} {pr : Process}

/-- An access to a page in a frame is completed, or its first trap kills the process. -/
theorem of_resident (h : t.Accesses pid v esp write outcomes ending t') (hp : t.pager.Charted)
    (hpr : t.pager.processes[pid]? = some pr) (hv : v < 2 ^ 32)
    (hresident : ∃ f, t.pager.residency ⟨pid, pageFloor v⟩ = some (.resident f)) :
    t'.Stands pid v write 0 outcomes ending := by
  have htrap : ∀ {answer : Option Nat} {code : FaultCode} {outcome : FaultOutcome} {t₁ : Traced},
      t.pager.translate pid v = .ok answer → code.present = answer.isSome →
      (Pager.handlePageFault pid v esp code).run t = .ok outcome t₁ → outcome = .kill := by
    intro answer code outcome t₁ ht hpresent hrun
    rw [(hp.isSome_translate_iff hpr hv ht).2 hresident] at hpresent
    rw [PagerM.run_handlePageFault_of_present hpresent] at hrun
    cases hrun
    rfl
  cases h with
  | completed permitted => exact .completed permitted
  | unfinished => exact .unfinished
  | killed _ translated present trapped _ verdict =>
    obtain rfl := htrap translated present trapped
    cases verdict
    exact .killed
  | retried _ translated present trapped resolved =>
    obtain rfl := htrap translated present trapped
    cases resolved

/-- A trap that is resolved leaves the page in a frame, so an access is tried again at most once. -/
theorem exists_stands {config : Config} {slots : Nat}
    (h : t.Accesses pid v esp write outcomes ending t') (ho : Pager.Owned config slots t.pager)
    (hp : t.pager.Charted) (hv : v < 2 ^ 32) :
    ∃ retries ≤ 1, t'.Stands pid v write retries outcomes ending := by
  cases h with
  | completed permitted => exact ⟨0, Nat.zero_le 1, .completed permitted⟩
  | unfinished => exact ⟨0, Nat.zero_le 1, .unfinished⟩
  | killed _ _ _ trapped unresolved verdict =>
    rcases PagerM.ensures_handlePageFault_outcome pid v esp _ t _ _ trapped with rfl | rfl
    · cases unresolved
    · cases verdict
      exact ⟨0, Nat.zero_le 1, .killed⟩
  | @retried _ t₁ _ _ code _ _ _ _ _ _ trapped resolved rest =>
    cases hcode : code.present with
    | true =>
      rw [PagerM.run_handlePageFault_of_present hcode] at trapped
      cases trapped
      cases resolved
    | false =>
      rcases PagerM.ensures_handlePageFault_of_absent hcode t _ _ trapped with
        ⟨rfl, hresident⟩ | rfl
      · have hp₁ := (PagerM.ensures_handlePageFault pid v esp code t _ _ trapped).charted ho hp
        obtain ⟨f, hf⟩ := hresident
        obtain ⟨e, he, -⟩ := Pager.residency_eq_some.1 hf
        obtain ⟨pr₁, hpr₁, -⟩ := Option.bind_eq_some_iff.1 he
        exact ⟨1, Nat.le_refl 1, (rest.of_resident hp₁ hpr₁ hv ⟨f, hf⟩).retry⟩
      · cases resolved

end Traced.Accesses

/-- A number of tries goes through the loop, and uses all of them if it comes to no end. -/
theorem PagerM.ensures_access (pid v esp : Nat) (write : Bool) (retries : Nat) (t : Traced) :
    Ensures (Pager.access pid v esp write retries) (fun r t' => ∃ outcomes,
      t.Accesses pid v esp write outcomes r.1 t' ∧ r.2 = outcomes.length ∧
        (r.1 = .unfinished → outcomes.length = retries)) t := by
  induction retries generalizing t with
  | zero =>
    rw [Pager.access]
    simp only [ensures_bind, ensures_pager, ensures_lift, ensures_ite, ensures_pure]
    intro permitted hpermits
    refine ⟨?_, fun hdenied => ?_⟩
    · rintro rfl
      exact ⟨[], .completed hpermits, rfl, fun _ => rfl⟩
    · obtain rfl : permitted = false := by simpa using hdenied
      exact ⟨[], .unfinished hpermits, rfl, fun _ => rfl⟩
  | succ retries ih =>
    rw [Pager.access]
    simp only [ensures_bind, ensures_pager, ensures_lift, ensures_ite, ensures_pure]
    intro permitted hpermits
    refine ⟨?_, fun hdenied code hcode => ?_⟩
    · rintro rfl
      exact ⟨[], .completed hpermits, rfl, fun hend => by cases hend⟩
    · obtain rfl : permitted = false := by simpa using hdenied
      obtain ⟨answer, htranslate, hpresent⟩ := Pager.present_of_trapCode hcode
      intro outcome t₁ htrap
      rcases ensures_handlePageFault_outcome pid v esp code t _ _ htrap with rfl | rfl
      · simp only [FaultOutcome.retry, ensures_bind, ensures_pure]
        refine (ih t₁).mono ?_
        rintro ⟨ending, calls⟩ t' ⟨outcomes, hrest, hcalls, hend⟩
        exact ⟨_, .retried hpermits htranslate hpresent htrap rfl hrest, congrArg (· + 1) hcalls,
          fun h => congrArg (· + 1) (hend h)⟩
      · exact ensures_pure.2 ⟨_, .killed hpermits htranslate hpresent htrap rfl rfl, rfl,
          fun hend => by cases hend⟩

/-- What becomes of an access of process `pid` to `v` at `t`. -/
structure Traced.Settles (t : Traced) (pid v esp : Nat) (write : Bool) : Prop where
  /-- The tables have an answer to whether it is let through. -/
  checked : ∃ permitted, t.pager.permits pid v write = .ok permitted
  /-- It traps twice at most, and has come to its end when it has trapped twice. -/
  traps_le : ∀ outcomes ending t', t.Accesses pid v esp write outcomes ending t' →
    outcomes.length ≤ 2 ∧ (ending = .unfinished → outcomes.length < 2)
  /-- If it is completed, the process was not killed, and the tables let it through. -/
  completed : ∀ outcomes t', t.Accesses pid v esp write outcomes .completed t' →
    outcomes.filterMap FaultOutcome.killed = [] ∧ t'.pager.permits pid v write = .ok true
  /-- Otherwise the process is killed once. -/
  killed : ∀ outcomes status t', t.Accesses pid v esp write outcomes (.killed status) t' →
    outcomes.filterMap FaultOutcome.killed = [killedStatus] ∧ status = killedStatus
  /-- It is killed where the handler says that the access cannot be tried again. -/
  killed_iff : ∀ outcomes ending t', t.Accesses pid v esp write outcomes ending t' →
    ∀ outcome ∈ outcomes, outcome.killed.isSome ↔ outcome.handled = false
  /-- Two tries more than the first bring it to its end, unless a trap panics. -/
  ends : ∀ retries ending calls t', 2 ≤ retries →
    (Pager.access pid v esp write retries).run t = .ok (ending, calls) t' →
      ending ≠ .unfinished ∧ ∃ outcomes, t.Accesses pid v esp write outcomes ending t' ∧
        calls = outcomes.length
  /-- A trap with the present bit set changes nothing. -/
  present : ∀ code : FaultCode, code.present = true → ∃ t',
    (Pager.handlePageFault pid v esp code).run t = .ok .kill t' ∧ t'.pager = t.pager

namespace Pager

variable {config : Config} {device : Block} {ops : List Op} {answers : List Answer} {t : Traced}
  {pid v : Nat}

theorem charted_of_run (h : (run ops).run (.start config device) = .ok answers t) :
    t.pager.Charted :=
  (PagerM.ensures_run ops _ answers t h).charted (owned_ofConfig config device)
    (all_ofConfig config device)

/-- After any run, whatever the device and the plans of refusals, an access of a registered process
to an address of 32 bits traps at most twice, and then it is completed or the process was killed
once. -/
theorem access_settles (h : (run ops).run (.start config device) = .ok answers t)
    (hpid : t.pager.processes[pid]?.isSome) (hv : v < 2 ^ 32) (esp : Nat) (write : Bool) :
    t.Settles pid v esp write := by
  have ho := (PagerM.ensures_run ops _ answers t h).owned (owned_ofConfig config device)
  have hp := charted_of_run h
  obtain ⟨pr, hpr⟩ := Option.isSome_iff_exists.1 hpid
  have hstands : ∀ {outcomes ending t'}, t.Accesses pid v esp write outcomes ending t' →
      ∃ retries ≤ 1, t'.Stands pid v write retries outcomes ending :=
    fun haccess => haccess.exists_stands ho hp hv
  refine ⟨⟨_, hp.permits_eq hpr hv write⟩, ?_, ?_, ?_, ?_, ?_, ?_⟩
  · intro outcomes ending t' haccess
    obtain ⟨retries, hle, hstand⟩ := hstands haccess
    exact hstand.length_le hle
  · intro outcomes t' haccess
    obtain ⟨retries, -, hstand⟩ := hstands haccess
    exact hstand.of_completed
  · intro outcomes status t' haccess
    obtain ⟨retries, -, hstand⟩ := hstands haccess
    exact hstand.of_killed
  · intro outcomes ending t' haccess outcome houtcome
    obtain ⟨retries, -, hstand⟩ := hstands haccess
    exact hstand.killed_iff houtcome
  · intro retries ending calls t' hle hrun
    obtain ⟨outcomes, haccess, hcalls, hend⟩ :=
      PagerM.ensures_access pid v esp write retries t _ t' hrun
    refine ⟨?_, outcomes, haccess, hcalls⟩
    -- an access that has come to no end has trapped as often as it was tried again
    rintro rfl
    obtain ⟨retries', hle', hstand⟩ := hstands haccess
    have hfew := (hstand.length_le hle').2 rfl
    have hmany := hend rfl
    omega
  · intro code hcode
    exact ⟨_, PagerM.run_handlePageFault_of_present hcode t, rfl⟩

/-- A write to a page that may not be written, and that was not touched before, is killed by its
second trap. -/
theorem access_settles_read_only : ∃ answers t,
    (run [.register 1, .declareZero 1 0x1000 false]).run
      (.start { userFrames := 1 } (.attach .swap "swap" (.ram (.blank 64)))) = .ok answers t ∧
    (∃ r t', (access 1 0x1234 0 true 9).run t = .ok r t' ∧ r = (.killed (-1), 2)) ∧
    t.Settles 1 0x1234 0 true := by
  have hrun : ∃ answers t, (run [.register 1, .declareZero 1 0x1000 false]).run
      (.start { userFrames := 1 } (.attach .swap "swap" (.ram (.blank 64)))) = .ok answers t ∧
        (∃ r t', (access 1 0x1234 0 true 9).run t = .ok r t' ∧ r = (.killed (-1), 2)) ∧
          t.pager.processes[1]?.isSome := by
    decide +kernel
  obtain ⟨answers, t, h, haccess, hpid⟩ := hrun
  exact ⟨answers, t, h, haccess, access_settles h hpid (by decide) 0 true⟩

end Pager

end DemandPaging
