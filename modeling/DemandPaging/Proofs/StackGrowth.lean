import DemandPaging.Proofs.Declarations
import DemandPaging.Proofs.Pins

/-!
# What an access leaves declared

Six requests reach for user memory: a fault and the interrupt that brings it, the question whether
an address is valid, a pin, and a copy in either direction. Each of them may find that an address
is not declared and take the access for the stack growing. It had better be right about that, since
the page it declares is memory that the process has from then on.

A page is declared for one of the bytes of the access, and only if this byte lies in the stack
region and no further below the stack pointer than the slack. The region begins and ends on page
boundaries, so the whole page lies in it. Nothing else is declared and nothing is taken away, and
this does not depend on how the request ends: a pin that fails on its third page, or stops the run
there, has let the stack grow by two pages at most.

A request that succeeds has found or declared the page of every byte.

## Main definitions

* `Answer.succeeded` — the answers of a request that reached what it reached for.
* `UserAccess.GrowsStack` — the stack grew for the access, and nothing else happened to the
  declarations.

## Main results

* `Config.stack_page_of_isStackAccess` — a page on which the stack may grow lies in its region.
* `PagerM.ensures_perform_declared` — a request that succeeds leaves every page declared.
* `Pager.stack_grows_in_its_region` — the two together, for the six requests in every state.
-/

namespace DemandPaging

/-! ### The stack region -/

namespace Config

variable {c : Config} {addr esp : Nat}

theorem isStackAccess_eq_true : c.isStackAccess addr esp = .ok true ↔
    addr < c.physBase ∧ c.maxStack ≤ c.physBase ∧ c.physBase - c.maxStack ≤ addr ∧
      esp ≤ saturatingAdd addr c.stackSlack := by
  by_cases haddr : addr < c.physBase
  · simp only [isStackAccess, isUser, stackLimit, haddr, decide_true, if_true, except_bind_eq_ok,
      checkedSub_eq_ok, except_pure_eq_ok, Bool.and_eq_true, decide_eq_true_eq, true_and]
    constructor
    · rintro ⟨_, ⟨hle, rfl⟩, hlow, hslack⟩
      exact ⟨hle, hlow, hslack⟩
    · rintro ⟨hle, hlow, hslack⟩
      exact ⟨_, ⟨hle, rfl⟩, hlow, hslack⟩
  · simp [isStackAccess, isUser, haddr]

/-- The region begins and ends with a page, so it has the whole of every page it has a byte of. -/
theorem stack_page_of_isStackAccess (hbase : pageOffset c.physBase = 0)
    (hmax : pageOffset c.maxStack = 0) (h : c.isStackAccess addr esp = .ok true) :
    c.physBase - c.maxStack ≤ pageFloor addr ∧ pageFloor addr + pageSize ≤ c.physBase := by
  obtain ⟨haddr, hle, hlow, -⟩ := isStackAccess_eq_true.1 h
  simp only [pageOffset, pageFloor, pageSize] at *
  omega

end Config

/-- Whether a request that reaches for user memory reached it. -/
def Answer.succeeded : Answer → Bool
  | .resolved (.ok ()) | .bytes (.ok _) => true
  | .yesNo b => b
  | .trapped outcome => outcome.handled
  | _ => false

namespace UserAccess

/-- The stack of the process grew for bytes of the access, in its region and no further than the
slack. Every other declaration is as it was. -/
structure GrowsStack (a : UserAccess) (p p' : Pager) : Prop where
  kept : ∀ o source writable, p.declarations o = some (source, writable) →
    p'.declarations o = some (source, writable)
  added : ∀ o source writable, p.declarations o = none →
    p'.declarations o = some (source, writable) →
      o.pid = a.pid ∧ source = .zero ∧ writable = true ∧
        p.config.physBase - p.config.maxStack ≤ o.page ∧ o.page + pageSize ≤ p.config.physBase ∧
        ∃ v, a.start ≤ v ∧ v < a.start + a.length ∧ pageFloor v = o.page ∧
          a.esp ≤ saturatingAdd v p.config.stackSlack

/-- The pages of the access are declared. -/
def Declared (a : UserAccess) (p : Pager) : Prop :=
  ∀ v, a.start ≤ v → v < a.start + a.length → (p.declared ⟨a.pid, pageFloor v⟩).isSome

theorem GrowsStack.of_extends {a : UserAccess} {p p' : Pager}
    (hbase : pageOffset p.config.physBase = 0) (hmax : pageOffset p.config.maxStack = 0)
    (h : p.Extends (a.Grows p.config) p') : a.GrowsStack p p' where
  kept o source writable := h.kept o (source, writable)
  added o source writable hnone hd := by
    obtain ⟨v, hstart, hend, hstack, rfl, hzero⟩ := h.allowed o _ hnone hd
    obtain ⟨rfl, rfl⟩ := Prod.mk.inj hzero
    obtain ⟨hlow, hhigh⟩ := Config.stack_page_of_isStackAccess hbase hmax hstack
    have hslack := (Config.isStackAccess_eq_true.1 hstack).2.2.2
    exact ⟨rfl, rfl, rfl, hlow, hhigh, v, hstart, hend, rfl, hslack⟩

end UserAccess

/-! ### Requests that succeed -/

/-- A page that was faulted in is declared. -/
theorem Pager.FaultsIn.isSome_declared {p p' : Pager} {pid addr esp f : Nat} {forWrite : Bool}
    (h : p.FaultsIn pid addr esp forWrite (.ok f) p') :
    (p'.declared ⟨pid, pageFloor addr⟩).isSome := by
  obtain ⟨e, he, -⟩ := residency_eq_some.1 h.residency_eq
  rw [he]
  rfl

theorem Pager.ReadsPiece.isSome_declared {p p' : Pager} {pid esp : Nat} {piece : Piece}
    {found : Bytes} (h : p.ReadsPiece pid piece esp (.ok found) p') :
    (p'.declared ⟨pid, pageFloor piece.addr⟩).isSome := by
  cases h with
  | copied fault => exact fault.isSome_declared

theorem Pager.WritesPiece.isSome_declared {p p' : Pager} {pid esp : Nat} {piece : Piece}
    {data : Bytes} (h : p.WritesPiece pid piece data esp (.ok ()) p') :
    (p'.declared ⟨pid, pageFloor piece.addr⟩).isSome := by
  cases h with
  | copied fault => exact fault.isSome_declared

/-- A piece lies on one page. -/
theorem Piece.pageFloor_of_lt_next {start length done v : Nat} (hv : start + done ≤ v)
    (hlt : v < start + (done + (next start length done).size)) :
    pageFloor v = pageFloor (start + done) := by
  simp only [next, pageFloor, pageOffset, pageSize] at *
  omega

/-- A walk over the pages of a range comes by every byte of it. -/
theorem PageRun.exists_pageFloor_eq {start size v : Nat} (hfits : start + size < 2 ^ 64)
    (hstart : start ≤ v) (hend : v < start + size) : ∃ i < (spanning start size).count,
      pageFloor v = pageFloor (max ((spanning start size).first + i * pageSize) start) := by
  refine ⟨(v - pageFloor start) / pageSize, ?_, ?_⟩
  · simp only [spanning, saturatingAdd_eq, pageFloor, pageSize] at *
    omega
  · simp only [spanning, pageFloor, pageSize] at *
    omega

namespace PagerM

variable {α : Type} {t : Traced} {pid start esp : Nat} {forWrite : Bool} {o : FrameOwner}

/-- What extends every pager leaves declared pages declared. -/
theorem preserves_isSome_declared {x : PagerM α}
    (hx : ∀ p, Preserves (Traced.Extends p fun _ _ => True) x) :
    Preserves (fun t => (t.pager.declared o).isSome) x := fun t t' ho hleaves =>
  Pager.Extends.isSome_declared (hx t.pager t t' (.refl _) hleaves) ho

theorem ensures_pinPages_declared (page count : Nat) (pinned : List Nat) (t : Traced) :
    Ensures (pinPages pid start esp forWrite page count pinned) (fun r t' => r = .ok () →
      ∀ i < count, (t'.pager.declared
        ⟨pid, pageFloor (max (page + i * pageSize) start)⟩).isSome) t := by
  induction count generalizing page pinned t with
  | zero =>
    rw [pinPages]
    exact ensures_pure.2 fun _ i hi => absurd hi (Nat.not_lt_zero i)
  | succ count ih =>
    rw [pinPages]
    simp only [ensures_bind]
    refine (ensures_faultIn pid (max page start) esp forWrite t).mono ?_
    intro r t₁ hfault
    cases r with
    | error e =>
      simp only [ensures_bind, ensures_pure]
      rintro _ - - ⟨⟩
    | ok f =>
      simp only [ensures_bind, ensures_pinFrame]
      intro frames _
      have hkeeps : Preserves (fun t => (t.pager.declared ⟨pid, pageFloor (max page start)⟩).isSome)
          (pinPages pid start esp forWrite (page + pageSize) count (pinned ++ [f])) :=
        preserves_isSome_declared fun _ => extends_pinPages (fun _ _ _ => trivial) _ _
      have hpinned : (({ t₁.pager with frames } : Pager).declared
          ⟨pid, pageFloor (max page start)⟩).isSome := hfault.isSome_declared
      refine ((ih (page + pageSize) (pinned ++ [f]) ⟨{ t₁.pager with frames }, t₁.log⟩).and
        (hkeeps.keeps ⟨{ t₁.pager with frames }, t₁.log⟩ hpinned)).mono ?_
      rintro r t' ⟨hrest, hfirst⟩ hok i hi
      cases i with
      | zero => rwa [Nat.zero_mul, Nat.add_zero]
      | succ i =>
        have hnext := hrest hok i (Nat.lt_of_succ_lt_succ hi)
        rwa [Nat.add_assoc, Nat.add_comm pageSize, ← Nat.succ_mul] at hnext

/-- The pages of a piece are declared when it was copied, and those of the pieces behind it
afterwards. -/
theorem ensures_readPieces_declared (length done : Nat) (bytes : Bytes) (t : Traced) :
    Ensures (readPieces pid start length esp done bytes) (fun r t' => (∃ found, r = .ok found) →
      ∀ v, start + done ≤ v → v < start + length →
        (t'.pager.declared ⟨pid, pageFloor v⟩).isSome) t := by
  by_cases h : done < length
  · rw [readPieces_of_lt h]
    simp only [ensures_bind]
    refine (ensures_readPiece pid _ esp t).mono ?_
    intro r t₁ hpiece
    cases r with
    | error e =>
      refine ensures_pure.2 ?_
      rintro ⟨_, ⟨⟩⟩
    | ok found =>
      have := Piece.next_size_pos start h
      have hkeeps : Preserves (fun t => (t.pager.declared ⟨pid, pageFloor (start + done)⟩).isSome)
          (readPieces pid start length esp (done + (Piece.next start length done).size)
            (bytes ++ found)) :=
        preserves_isSome_declared fun _ => extends_readPieces (fun _ _ _ _ => trivial) _
      refine ((ensures_readPieces_declared length _ (bytes ++ found) t₁).and
        (hkeeps.keeps t₁ hpiece.isSome_declared)).mono ?_
      rintro r t' ⟨hrest, hfirst⟩ hok v hv hend
      by_cases hpage : v < start + (done + (Piece.next start length done).size)
      · rwa [Piece.pageFloor_of_lt_next hv hpage]
      · exact hrest hok v (Nat.le_of_not_lt hpage) hend
  · rw [readPieces_of_le (Nat.le_of_not_lt h)]
    exact ensures_pure.2 fun _ v hv hend => by omega
  termination_by length - done

theorem ensures_writePieces_declared (data : Bytes) (done : Nat) (t : Traced) :
    Ensures (writePieces pid start data esp done) (fun r t' => r = .ok () →
      ∀ v, start + done ≤ v → v < start + data.size →
        (t'.pager.declared ⟨pid, pageFloor v⟩).isSome) t := by
  by_cases h : done < data.size
  · rw [writePieces_of_lt h]
    simp only [ensures_bind]
    refine (ensures_writePiece pid _ data esp t).mono ?_
    intro r t₁ hpiece
    cases r with
    | error e =>
      refine ensures_pure.2 ?_
      rintro ⟨⟩
    | ok _ =>
      have := Piece.next_size_pos start h
      have hkeeps : Preserves (fun t => (t.pager.declared ⟨pid, pageFloor (start + done)⟩).isSome)
          (writePieces pid start data esp (done + (Piece.next start data.size done).size)) :=
        preserves_isSome_declared fun _ => extends_writePieces fun _ _ _ _ => trivial
      refine ((ensures_writePieces_declared data _ t₁).and
        (hkeeps.keeps t₁ hpiece.isSome_declared)).mono ?_
      rintro r t' ⟨hrest, hfirst⟩ hok v hv hend
      by_cases hpage : v < start + (done + (Piece.next start data.size done).size)
      · rwa [Piece.pageFloor_of_lt_next hv hpage]
      · exact hrest hok v (Nat.le_of_not_lt hpage) hend
  · rw [writePieces_of_le (Nat.le_of_not_lt h)]
    exact ensures_pure.2 fun _ v hv hend => by omega
  termination_by data.size - done

/-! ### The six requests -/

theorem ensures_pageFault_declared (pid addr esp : Nat) (t : Traced) :
    Ensures (Pager.pageFault pid addr esp) (fun r t' => r = .ok () →
      UserAccess.Declared ⟨pid, addr, 1, esp⟩ t'.pager) t := by
  rw [Pager.pageFault]
  simp only [ensures_bind, ensures_emit, ensures_pure]
  refine (ensures_faultIn pid addr esp false _).mono ?_
  intro r t' hfault hok v hstart hend
  cases r with
  | error e => cases hok
  | ok f =>
    obtain rfl : v = addr := Nat.le_antisymm (Nat.le_of_lt_succ hend) hstart
    exact hfault.isSome_declared

theorem ensures_handlePageFault_declared (pid addr esp : Nat) (code : FaultCode) (t : Traced) :
    Ensures (Pager.handlePageFault pid addr esp code) (fun outcome t' => outcome.handled = true →
      UserAccess.Declared ⟨pid, addr, 1, esp⟩ t'.pager) t := by
  rw [Pager.handlePageFault]
  simp only [ensures_bind, ensures_emit, ensures_ite, ensures_pure]
  constructor
  · rintro - ⟨⟩
  · refine fun _ => (ensures_pageFault_declared pid addr esp _).mono fun r t' hdeclared => ?_
    cases r with
    | error e =>
      simp only [ensures_bind, ensures_emit, ensures_pure]
      rintro ⟨⟩
    | ok _ => exact ensures_pure.2 fun _ => hdeclared rfl

theorem ensures_validAddress_declared (pid addr esp : Nat) (forWrite : Bool) (t : Traced) :
    Ensures (Pager.validAddress pid addr esp forWrite) (fun valid t' => valid = true →
      UserAccess.Declared ⟨pid, addr, 1, esp⟩ t'.pager) t := by
  rw [Pager.validAddress]
  simp only [ensures_bind, ensures_pager, ensures_ite, ensures_pure]
  constructor
  · rintro - ⟨⟩
  · refine fun _ => (ensures_findOrGrow pid addr esp t).mono fun found t' hfinds => ?_
    cases found with
    | none =>
      refine ensures_pure.2 ?_
      rintro ⟨⟩
    | some e =>
      refine ensures_pure.2 fun _ v hstart hend => ?_
      obtain rfl : v = addr := Nat.le_antisymm (Nat.le_of_lt_succ hend) hstart
      rw [hfinds.declared_eq]
      rfl

theorem ensures_pin_declared (pid start size esp : Nat) (forWrite : Bool) (t : Traced) :
    Ensures (Pager.pin pid start size esp forWrite) (fun r t' => r = .ok () →
      UserAccess.Declared ⟨pid, start, size, esp⟩ t'.pager) t := by
  rw [Pager.pin]
  simp only [ensures_bind, ensures_pager, ensures_ite, ensures_pure]
  refine ⟨?_, fun _ => ⟨fun hrange => ?_, ?_⟩⟩
  · rintro rfl - v hstart hend
    exact absurd hend (Nat.not_lt.2 hstart)
  · refine (ensures_pinPages_declared _ _ _ t).mono fun r t' hpages hok v hstart hend => ?_
    obtain ⟨i, hi, hpage⟩ :=
      PageRun.exists_pageFloor_eq (isUserRange_iff.1 hrange).1 hstart hend
    rw [hpage]
    exact hpages hok i hi
  · rintro - ⟨⟩

theorem ensures_copyFromUser_declared (pid start length esp : Nat) (t : Traced) :
    Ensures (Pager.copyFromUser pid start length esp) (fun r t' => (∃ found, r = .ok found) →
      UserAccess.Declared ⟨pid, start, length, esp⟩ t'.pager) t := by
  rw [Pager.copyFromUser]
  simp only [ensures_bind, ensures_pager, ensures_ite, ensures_pure, ensures_lift]
  refine ⟨fun _ _ _ => ensures_readPieces_declared length 0 #[] t, ?_⟩
  rintro - ⟨_, ⟨⟩⟩

theorem ensures_copyToUser_declared (pid start : Nat) (data : Bytes) (esp : Nat) (t : Traced) :
    Ensures (Pager.copyToUser pid start data esp) (fun r t' => r = .ok () →
      UserAccess.Declared ⟨pid, start, data.size, esp⟩ t'.pager) t := by
  rw [Pager.copyToUser]
  simp only [ensures_bind, ensures_pager, ensures_ite, ensures_pure]
  refine ⟨fun _ => ensures_writePieces_declared data 0 t, ?_⟩
  rintro - ⟨⟩

/-- A request that succeeds leaves every page that it reached for declared. -/
theorem ensures_perform_declared {op : Op} {a : UserAccess} (ha : op.access? = some a)
    (t : Traced) : Ensures (Pager.perform op)
      (fun answer t' => answer.succeeded = true → a.Declared t'.pager) t := by
  cases op with
  | pageFault pid addr esp =>
    cases ha
    simp only [Pager.perform, ensures_bind, ensures_pure]
    refine (ensures_pageFault_declared pid addr esp t).mono fun r t' h hsucceeded => ?_
    cases r with
    | error e => cases hsucceeded
    | ok _ => exact h rfl
  | interrupt pid addr esp code =>
    cases ha
    simp only [Pager.perform, ensures_bind, ensures_pure]
    exact ensures_handlePageFault_declared pid addr esp code t
  | validAddress pid addr esp forWrite =>
    cases ha
    simp only [Pager.perform, ensures_bind, ensures_pure]
    exact ensures_validAddress_declared pid addr esp forWrite t
  | pin pid start size esp forWrite =>
    cases ha
    simp only [Pager.perform, ensures_bind, ensures_pure]
    refine (ensures_pin_declared pid start size esp forWrite t).mono fun r t' h hsucceeded => ?_
    cases r with
    | error e => cases hsucceeded
    | ok _ => exact h rfl
  | copyFromUser pid start length esp =>
    cases ha
    simp only [Pager.perform, ensures_bind, ensures_pure]
    refine (ensures_copyFromUser_declared pid start length esp t).mono fun r t' h hsucceeded => ?_
    cases r with
    | error e => cases hsucceeded
    | ok found => exact h ⟨found, rfl⟩
  | copyToUser pid start data esp =>
    cases ha
    simp only [Pager.perform, ensures_bind, ensures_pure]
    refine (ensures_copyToUser_declared pid start data esp t).mono fun r t' h hsucceeded => ?_
    cases r with
    | error e => cases hsucceeded
    | ok _ => exact h rfl
  | _ => cases ha

end PagerM

/-- A request that reaches for user memory remaps nothing. -/
theorem Op.remaps_of_access? {op : Op} {a : UserAccess} (ha : op.access? = some a) :
    op.remaps = false := by
  cases op <;> first | rfl | cases ha

namespace Pager

variable {config : Config} {device : Block} {ops : List Op} {answers : List Answer} {t : Traced}

/-- After any run, whatever the device and the plans of refusals: however a request that reaches for
user memory stops, the stack of its process grew in its region and within the slack, and nothing
else happened to what is declared. If it succeeds, all that it reached for is declared. -/
theorem stack_grows_in_its_region (hbase : pageOffset config.physBase = 0)
    (hmax : pageOffset config.maxStack = 0)
    (h : (run ops).run (.start config device) = .ok answers t) {op : Op} {a : UserAccess}
    (ha : op.access? = some a) :
    (∀ t', (perform op).Leaves t t' → a.GrowsStack t.pager t'.pager) ∧
      ∀ answer t', (perform op).run t = .ok answer t' → answer.succeeded = true →
        a.Declared t'.pager := by
  have hconfig := ((PagerM.ensures_run ops _ answers t h).owned
    (owned_ofConfig config device)).config_eq
  refine ⟨fun t' hleaves => ?_, PagerM.ensures_perform_declared ha t⟩
  have hext : t.pager.Extends (op.Adds t.pager.config) t'.pager :=
    PagerM.extends_perform (Op.remaps_of_access? ha) t t' (.refl _) hleaves
  rw [Op.Adds, ha] at hext
  exact .of_extends (hconfig ▸ hbase) (hconfig ▸ hmax) hext

/-- Sixteen bytes around a page boundary are pinned, below the stack pointer. Both pages are
declared for them. -/
theorem stack_grows_in_its_region_across : ∃ answers t, (run [.register 1]).run
    (.start { userFrames := 2 } (.attach .swap "swap" (.ram (.blank 64)))) = .ok answers t ∧
    ∃ answer t', (perform (.pin 1 0xbfffdff8 16 0xbfffe010 true)).run t = .ok answer t' ∧
      answer.succeeded = true ∧ (t'.pager.processes[1]?.any fun pr => pr.pages.size = 2) ∧
      UserAccess.GrowsStack ⟨1, 0xbfffdff8, 16, 0xbfffe010⟩ t.pager t'.pager ∧
      UserAccess.Declared ⟨1, 0xbfffdff8, 16, 0xbfffe010⟩ t'.pager := by
  have hrun : ∃ answers t, (run [.register 1]).run
      (.start { userFrames := 2 } (.attach .swap "swap" (.ram (.blank 64)))) = .ok answers t ∧
        ∃ answer t', (perform (.pin 1 0xbfffdff8 16 0xbfffe010 true)).run t = .ok answer t' ∧
          answer.succeeded = true ∧ (t'.pager.processes[1]?.any fun pr => pr.pages.size = 2) := by
    decide +kernel
  obtain ⟨answers, t, h, answer, t', hpin, hsucceeded, hpages⟩ := hrun
  have haccess : Op.access? (.pin 1 0xbfffdff8 16 0xbfffe010 true)
      = some ⟨1, 0xbfffdff8, 16, 0xbfffe010⟩ := rfl
  obtain ⟨hgrows, hdeclared⟩ := stack_grows_in_its_region (by decide) (by decide) h haccess
  exact ⟨answers, t, h, answer, t', hpin, hsucceeded, hpages, hgrows t' (.inl ⟨answer, hpin⟩),
    hdeclared answer t' hpin hsucceeded⟩

end Pager

end DemandPaging
