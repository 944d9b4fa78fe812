import DemandPaging.Proofs.Memory
import DemandPaging.Proofs.PoolSize

/-!
# A read answers the last write

A run leaves a history: each request with its answer and with the number of bytes that it stored,
which for a copy that fails is the number of bytes on the pages before the failure. From the
history alone one can tell which byte was last stored at an address since the page there was
declared. A copy from user memory answers that byte, or the byte that the source of the page
defines if there is none. The pages may have been to swap and back any number of times.

## Main definitions

* `PagerM.storePieces` — the copy to user memory, with a count of the bytes stored.
* `Event`, `Pager.history` — the history of a run.
* `lastStored` — the byte last stored at an address, by the history.
* `entered` — a ledger of the bytes last stored, after one more copy.
* `Outlook.RecordedIn` — the memory is what a ledger says.

## Main results

* `Pager.run_eq_history` — the history of a run has the answers of the run.
* `Pager.read_eq_lastStored` — a read answers the last write.
-/

namespace DemandPaging

/-! ### Histories -/

namespace PagerM

/-- Writes the pieces of `data` that follow its first `done` bytes, like `writePieces`, and answers
besides how many bytes have been written. -/
def storePieces (pid start : Nat) (data : Bytes) (esp done : Nat) :
    PagerM (Except FaultError Unit × Nat) :=
  if h : done < data.size then do
    match ← writePiece pid (.next start data.size done) data esp with
    | .error e => return (.error e, done)
    | .ok () =>
      have := Piece.next_size_pos start h
      storePieces pid start data esp (done + (Piece.next start data.size done).size)
  else return (.ok (), done)
  termination_by data.size - done

/-- Looking at the pager and not using what is seen is no different from not looking. -/
theorem pager_bind_const {α : Type} (x : PagerM α) : (pager >>= fun _ => x) = x := rfl

/-- Counting the bytes is all that is new. -/
theorem fst_storePieces (pid start : Nat) (data : Bytes) (esp done : Nat) :
    Prod.fst <$> storePieces pid start data esp done = writePieces pid start data esp done := by
  rw [storePieces]
  by_cases h : done < data.size
  · rw [dif_pos h, writePieces_of_lt h, map_bind]
    refine bind_congr fun r => ?_
    cases r with
    | error e => simp
    | ok _ =>
      have := Piece.next_size_pos start h
      exact fst_storePieces pid start data esp _
  · rw [dif_neg h, writePieces_of_le (Nat.le_of_not_lt h)]
    simp
  termination_by data.size - done

end PagerM

/-- A request that was carried out: its answer, the number of bytes of its data that it stored, and
the pager afterwards. -/
structure Event where
  op : Op
  answer : Answer
  stored : Nat
  after : Pager

namespace Pager

open PagerM

/-- Writes `data` at `start` in the memory of `pid`, and answers besides how many bytes were
written. -/
def store (pid start : Nat) (data : Bytes) (esp : Nat) : PagerM (Except FaultError Unit × Nat) := do
  unless (← pager).config.isUserRange start data.size do return (.error .kernelAddress, 0)
  storePieces pid start data esp 0

/-- Carries out one request and records it. -/
def observe (op : Op) : PagerM Event :=
  match op with
  | .copyToUser pid start data esp => do
    let (result, stored) ← store pid start data esp
    return ⟨op, .resolved result, stored, ← pager⟩
  | _ => return ⟨op, ← perform op, 0, ← pager⟩

/-- Carries out the requests in turn and records them. -/
def history : List Op → PagerM (List Event)
  | [] => return []
  | op :: rest => return (← observe op) :: (← history rest)

theorem fst_store (pid start : Nat) (data : Bytes) (esp : Nat) :
    Prod.fst <$> store pid start data esp = copyToUser pid start data esp := by
  rw [store, copyToUser, map_bind]
  refine bind_congr fun p => ?_
  split
  · simp [fst_storePieces]
  · simp

/-- Recording a request does not change what it does. -/
theorem answer_observe (op : Op) : Event.answer <$> observe op = perform op := by
  have hrecord : ∀ op stored, (do return (Event.mk op (← perform op) stored (← pager)).answer)
      = perform op := by
    intro op stored
    simp only [pager_bind_const, bind_pure]
  cases op with
  | copyToUser pid start data esp =>
    rw [perform, ← fst_store]
    simp only [observe, map_bind, map_pure, pager_bind_const, bind_map_left]
  | _ =>
    simp only [observe, map_bind, map_pure]
    exact hrecord _ 0

/-- The history of a run has the answers of the run. -/
theorem run_eq_history (ops : List Op) :
    run ops = List.map Event.answer <$> history ops := by
  induction ops with
  | nil => simp [run, history]
  | cons op rest ih =>
    rw [run, history, ih, ← answer_observe op]
    simp

end Pager

/-! ### Ledgers -/

/-- The byte at `addr` after the first `count` bytes of `data` were stored at `start`, if `addr` is
among their addresses. -/
def byteStored (start : Nat) (data : Bytes) (count addr : Nat) : Option UInt8 :=
  if start ≤ addr ∧ addr - start < count then data[addr - start]? else none

/-- The byte that a request stored at `addr` in the memory of `pid`. -/
def Event.storedAt (event : Event) (pid addr : Nat) : Option UInt8 :=
  match event.op with
  | .copyToUser q start data _ => if q = pid then byteStored start data event.stored addr else none
  | _ => none

/-- The byte last stored at an address, after one more request. A request removes pages or declares
pages, but never both, so a page that is not declared after a request is one that is declared anew
if it is seen again. -/
def Event.lastStored (event : Event) (pid addr : Nat) (last : Option UInt8) : Option UInt8 :=
  if (event.after.declared ⟨pid, pageFloor addr⟩).isSome then (event.storedAt pid addr).or last
  else none

/-- The byte that the requests of a history last stored at `addr` in the memory of `pid` since the
page that covers `addr` was declared. -/
def lastStored (pid addr : Nat) (events : List Event) : Option UInt8 :=
  events.foldl (fun last event => event.lastStored pid addr last) none

theorem byteStored_of_not_mem {start count size addr : Nat} {data : Bytes}
    (h : ¬ (start + count ≤ addr ∧ addr < start + count + size)) :
    byteStored start data (count + size) addr = byteStored start data count addr := by
  rw [byteStored, byteStored]
  exact if_congr (by omega) rfl rfl

/-- A piece stores no byte on another page. -/
theorem byteStored_next_of_ne {start count addr : Nat} {data : Bytes}
    (h : pageFloor addr ≠ pageFloor (start + count)) :
    byteStored start data (count + (Piece.next start data.size count).size) addr
      = byteStored start data count addr := by
  refine byteStored_of_not_mem ?_
  rintro ⟨hge, hlt⟩
  obtain ⟨k, rfl⟩ := Nat.exists_eq_add_of_le (Nat.le_trans (Nat.le_add_right start count) hge)
  have hfirst : count ≤ k := by omega
  have hlast : k < count + (Piece.next start data.size count).size := by omega
  exact h (Piece.next_page hfirst hlast).1

/-- The ledger `last` after the first `count` bytes of `data` were stored at `start` in the memory
of `pid`. -/
def entered (last : Nat → Nat → Option UInt8) (pid start : Nat) (data : Bytes)
    (count q addr : Nat) : Option UInt8 :=
  (if pid = q then byteStored start data count addr else none).or (last q addr)

theorem entered_zero (last : Nat → Nat → Option UInt8) (pid start : Nat) (data : Bytes) :
    entered last pid start data 0 = last := by
  funext q addr
  simp [entered, byteStored]

theorem entered_self (last : Nat → Nat → Option UInt8) (pid start : Nat) (data : Bytes)
    (count addr : Nat) :
    entered last pid start data count pid addr
      = (byteStored start data count addr).or (last pid addr) := by
  rw [entered, if_pos rfl]

/-- A piece is entered on its page and nowhere else. -/
theorem entered_next_of_ne {last : Nat → Nat → Option UInt8} {pid start count q addr : Nat}
    {data : Bytes} (h : (⟨q, pageFloor addr⟩ : FrameOwner) ≠ ⟨pid, pageFloor (start + count)⟩) :
    entered last pid start data (count + (Piece.next start data.size count).size) q addr
      = entered last pid start data count q addr := by
  rw [entered, entered]
  split
  · rename_i hq
    subst hq
    rw [byteStored_next_of_ne fun heq => h (by rw [heq])]
  · rfl

/-- A byte of a page that a piece was copied into: one of the piece, or what was there before. -/
theorem byteAt_overlay {start count size addr : Nat} {data : Bytes} (page : Page)
    (hpage : pageFloor addr = pageFloor (start + count))
    (hend : pageOffset (start + count) + size ≤ pageSize) (hsize : count + size ≤ data.size) :
    some (Page.byteAt (overlay page (pageOffset (start + count))
        (data.extract count (count + size))) addr)
      = if start + count ≤ addr ∧ addr < start + count + size then
          byteStored start data (count + size) addr
        else some (page.byteAt addr) := by
  have hlength : (data.extract count (count + size)).size = size := by
    rw [Array.size_extract]
    omega
  have hoffset : start + count ≤ addr ∧ addr < start + count + size ↔
      pageOffset (start + count) ≤ pageOffset addr ∧
        pageOffset addr - pageOffset (start + count) < size := by
    simp only [pageFloor, pageOffset, pageSize] at *
    omega
  have hlt := pageOffset_lt addr
  show some (overlay page _ _)[pageOffset addr] = _
  rw [getElem_overlay]
  by_cases h : start + count ≤ addr ∧ addr < start + count + size
  · have hbyte : count + (pageOffset addr - pageOffset (start + count)) = addr - start := by
      have := hoffset.1 h
      simp only [pageFloor, pageOffset, pageSize] at *
      omega
    have hlt : addr - start < data.size := by omega
    rw [dif_pos (by rw [hlength]; exact hoffset.1 h), if_pos h, byteStored, if_pos (by omega),
      Array.getElem_extract, Array.getElem?_eq_getElem hlt]
    simp only [hbyte]
  · rw [dif_neg (by rw [hlength]; exact fun h' => h (hoffset.2 h')), if_neg h]
    rfl

namespace Outlook

variable {held : Nat → Bytes} {v v' : Outlook} {last : Nat → Nat → Option UInt8} {pid : Nat}

/-- The memory is what a ledger of the bytes that were last stored says it is. -/
structure RecordedIn (held : Nat → Bytes) (v : Outlook) (last : Nat → Nat → Option UInt8) :
    Prop where
  backed : v.Backed held
  undeclared : ∀ pid addr, v.memory held ⟨pid, pageFloor addr⟩ = none → last pid addr = none
  byteAt : ∀ pid addr source page, v.memory held ⟨pid, pageFloor addr⟩ = some (source, page) →
    page.byteAt addr = (last pid addr).getD ((source.initial (held ·.id)).byteAt addr)

/-- The ledger without what is not declared. -/
def settled (v : Outlook) (last : Nat → Nat → Option UInt8) (pid addr : Nat) : Option UInt8 :=
  if (v.pages ⟨pid, pageFloor addr⟩).isSome then last pid addr else none

namespace RecordedIn

/-- New pages hold what their sources say, and nothing has been stored there yet. -/
theorem grow (h : v.RecordedIn held last) (hv : v.Extends held v') :
    v'.RecordedIn held last where
  backed := hv.backed h.backed
  undeclared pid addr hnone := by
    rcases hv.memory ⟨pid, pageFloor addr⟩ with hsame | ⟨-, source, hnew⟩
    · exact h.undeclared pid addr (hsame ▸ hnone)
    · rw [hnew] at hnone
      simp at hnone
  byteAt pid addr source page hpage := by
    rcases hv.memory ⟨pid, pageFloor addr⟩ with hsame | ⟨hnone, source', hnew⟩
    · exact h.byteAt pid addr source page (hsame ▸ hpage)
    · rw [hnew] at hpage
      cases hpage
      rw [h.undeclared pid addr hnone, Option.getD_none]

/-- Where pages have gone, the ledger is struck. -/
theorem shrink (h : v.RecordedIn held last)
    (hv : ∀ o, v'.pages o = v.pages o ∨ v'.pages o = none) :
    v'.RecordedIn held (v'.settled last) where
  backed o w handle hw hhandle := by
    rcases hv o with hsame | hnone
    · exact h.backed o w handle (hsame ▸ hw) hhandle
    · rw [hnone] at hw
      simp at hw
  undeclared pid addr hnone := by
    rw [memory_eq_none] at hnone
    simp [settled, hnone]
  byteAt pid addr source page hpage := by
    rcases hv ⟨pid, pageFloor addr⟩ with hsame | hnone
    · have hsome : (v'.pages ⟨pid, pageFloor addr⟩).isSome := by
        rw [memory, Option.map_eq_some_iff] at hpage
        obtain ⟨w, hw, -⟩ := hpage
        rw [hw, Option.isSome_some]
      rw [memory, hsame] at hpage
      rw [settled, if_pos hsome]
      exact h.byteAt pid addr source page hpage
    · rw [memory, hnone] at hpage
      simp at hpage

/-- A ledger that is right has nothing on pages that are not declared. -/
theorem settle (h : v.RecordedIn held last) : v.RecordedIn held (v.settled last) :=
  h.shrink fun _ => .inl rfl

/-- A piece that is copied in is entered. -/
theorem store {start esp done : Nat} {data : Bytes} (hdone : done < data.size)
    (h : v.RecordedIn held (entered last pid start data done))
    (hwrite : v.writePiece pid (.next start data.size done) data esp = (.ok (), v')) :
    v'.RecordedIn held
      (entered last pid start data (done + (Piece.next start data.size done).size)) := by
  obtain ⟨v₁, w, hv, hw, hv'⟩ := writePiece_ok h.backed hwrite
  rw [Piece.addr_next] at hw
  rw [Piece.addr_next, Piece.start_next] at hv'
  subst hv'
  replace h := h.grow hv
  have hmemory := memory_setContents held v₁ ⟨pid, pageFloor (start + done)⟩ w
    (overlay (w.memory held) (pageOffset (start + done))
      (data.extract done (done + (Piece.next start data.size done).size)))
  refine ⟨h.backed.setPage fun h' hh' => h.backed _ w h' hw hh', ?_, ?_⟩
  · intro q addr hnone
    by_cases hon : (⟨q, pageFloor addr⟩ : FrameOwner) = ⟨pid, pageFloor (start + done)⟩
    · rw [hmemory, hon, Function.update_self] at hnone
      simp at hnone
    · rw [hmemory, Function.update_of_ne hon] at hnone
      rw [entered_next_of_ne hon]
      exact h.undeclared q addr hnone
  · intro q addr source page hpage
    by_cases hon : (⟨q, pageFloor addr⟩ : FrameOwner) = ⟨pid, pageFloor (start + done)⟩
    · rw [hmemory, hon, Function.update_self, Option.some.injEq, Prod.mk.injEq] at hpage
      obtain ⟨rfl, rfl⟩ := hpage
      obtain ⟨rfl, hfloor⟩ := FrameOwner.mk.inj hon
      have hold := h.byteAt q addr w.source (w.memory held) (by rw [hfloor, memory_of_pages hw])
      have hnew := byteAt_overlay (w.memory held) hfloor (Piece.next_end_le start data.size done)
        (Piece.next_size_le start hdone)
      rw [entered_self] at hold ⊢
      by_cases hin : start + done ≤ addr ∧
          addr < start + done + (Piece.next start data.size done).size
      · rw [if_pos hin] at hnew
        rw [← hnew, Option.some_or, Option.getD_some]
      · rw [if_neg hin, Option.some.injEq] at hnew
        rw [byteStored_of_not_mem hin, ← hold]
        exact hnew
    · rw [hmemory, Function.update_of_ne hon] at hpage
      rw [entered_next_of_ne hon]
      exact h.byteAt q addr source page hpage

end RecordedIn

end Outlook

namespace PagerM

open Pager (Change Steps)

variable {held : Nat → Bytes} {last : Nat → Nat → Option UInt8}

/-- What a copy to user memory stores is entered, up to the page on which it fails. -/
theorem ensures_storePieces_recorded (pid start : Nat) (data : Bytes) (esp done : Nat) (t : Traced)
    (ht : t.pager.Sound)
    (h : t.pager.outlook.RecordedIn held (entered last pid start data done)) :
    Ensures (storePieces pid start data esp done) (fun r t' => t'.pager.Sound ∧
      t'.pager.outlook.RecordedIn held (entered last pid start data r.2)) t := by
  rw [storePieces]
  by_cases hdone : done < data.size
  · rw [dif_pos hdone]
    simp only [ensures_bind]
    refine (follows_writePiece pid _ data esp t ht).mono ?_
    rintro r t₁ ⟨hseen, ht₁⟩
    have hseen := Option.some.inj hseen
    cases r with
    | error e => exact ensures_pure.2 ⟨ht₁, h.grow (Outlook.writePiece_error h.backed hseen)⟩
    | ok _ =>
      have := Piece.next_size_pos start hdone
      exact ensures_storePieces_recorded pid start data esp _ t₁ ht₁ (h.store hdone hseen)
  · rw [dif_neg hdone]
    exact ensures_pure.2 ⟨ht, h⟩
  termination_by data.size - done

theorem ensures_store_recorded (pid start : Nat) (data : Bytes) (esp : Nat) (t : Traced)
    (ht : t.pager.Sound) (h : t.pager.outlook.RecordedIn held last) :
    Ensures (Pager.store pid start data esp) (fun r t' => t'.pager.Sound ∧
      t'.pager.outlook.RecordedIn held (entered last pid start data r.2)) t := by
  rw [← entered_zero last pid start data] at h
  rw [Pager.store]
  simp only [ensures_bind, ensures_pager, ensures_ite, ensures_pure]
  constructor
  · intro _
    exact ensures_storePieces_recorded pid start data esp 0 t ht h
  · intro _
    exact ⟨ht, h⟩

theorem ensures_perform_settled_of_grows {op : Op} (hchanges : op.changes = Change.Grows op.handle?)
    (hfile : ∀ h, op.handle? = some h → h.file.Holds (held h.id)) (t : Traced)
    (ht : t.pager.Sound) (h : t.pager.outlook.RecordedIn held last) :
    Ensures (Pager.perform op) (fun _ t' => t'.pager.Sound ∧
      t'.pager.outlook.RecordedIn held (t'.pager.outlook.settled last)) t := by
  refine (ensures_perform op t).mono ?_
  intro _ t' hperforms
  have hsteps := hperforms.steps
  rw [hchanges] at hsteps
  exact ⟨hsteps.sound (fun _ h => h.ne_plan) ht,
    (h.grow (hsteps.extends hfile ht h.backed)).settle⟩

/-- A request that stores nothing strikes from the ledger what is not declared afterwards. -/
theorem ensures_perform_settled {op : Op} (hop : op.plans = false)
    (hstore : ∀ pid start data esp, op ≠ .copyToUser pid start data esp)
    (hfile : ∀ h, op.handle? = some h → h.file.Holds (held h.id)) (t : Traced)
    (ht : t.pager.Sound) (h : t.pager.outlook.RecordedIn held last) :
    Ensures (Pager.perform op) (fun _ t' => t'.pager.Sound ∧
      t'.pager.outlook.RecordedIn held (t'.pager.outlook.settled last)) t := by
  cases op with
  | refuse | refuseBy => cases hop
  | copyToUser pid start data esp => exact absurd rfl (hstore pid start data esp)
  | destroy pid =>
    simp only [Pager.perform, ensures_bind, ensures_pure]
    refine (follows_destroy pid t ht).mono ?_
    rintro _ t' ⟨hseen, ht'⟩
    refine ⟨ht', h.shrink fun o => ?_⟩
    have hseen := (Prod.mk.inj (Option.some.inj hseen)).2
    rw [← hseen, Outlook.removeProcess]
    by_cases ho : o.pid = pid
    · exact .inr (if_pos ho)
    · exact .inl (if_neg ho)
  | unmapFile pid id =>
    simp only [Pager.perform, ensures_bind, ensures_pure]
    refine (follows_unmapFile pid id t ht).mono ?_
    rintro _ t' ⟨hseen, ht'⟩
    refine ⟨ht', h.shrink fun o => ?_⟩
    have hseen : t.pager.outlook.unmapFile pid id = some (_, t'.pager.outlook) := hseen
    rw [Outlook.unmapFile, Option.bind_eq_some_iff] at hseen
    obtain ⟨table, -, hseen⟩ := hseen
    obtain ⟨m, -, hseen⟩ := Option.map_eq_some_iff.1 hseen
    rw [← (Prod.mk.inj hseen).2, Outlook.removeRun]
    by_cases ho : o.pid = pid ∧ ∃ i < m.pages.count, o.page = m.pages.first + i * pageSize
    · exact .inr (if_pos ho)
    · exact .inl (if_neg ho)
  | _ => exact ensures_perform_settled_of_grows rfl hfile t ht h

theorem settled_outlook (p : Pager) (last : Nat → Nat → Option UInt8) :
    p.outlook.settled last = fun pid addr =>
      if (p.declared ⟨pid, pageFloor addr⟩).isSome then last pid addr else none := by
  funext pid addr
  show (if ((p.declared ⟨pid, pageFloor addr⟩).map p.pageView).isSome then _ else _) = _
  rw [Option.isSome_map]

/-- After a request the ledger with its event in it is right. -/
theorem ensures_observe_recorded {op : Op} (hop : op.plans = false)
    (hfile : ∀ h, op.handle? = some h → h.file.Holds (held h.id)) (t : Traced)
    (ht : t.pager.Sound) (h : t.pager.outlook.RecordedIn held last) :
    Ensures (Pager.observe op) (fun event t' => event.op = op ∧ event.after = t'.pager ∧
      t'.pager.Sound ∧ t'.pager.outlook.RecordedIn held fun pid addr =>
        event.lastStored pid addr (last pid addr)) t := by
  by_cases hstore : ∃ pid start data esp, op = .copyToUser pid start data esp
  · obtain ⟨pid, start, data, esp, rfl⟩ := hstore
    simp only [Pager.observe, ensures_bind, ensures_pure, ensures_pager]
    refine (ensures_store_recorded pid start data esp t ht h).mono ?_
    rintro r t' ⟨ht', h'⟩
    refine ⟨trivial, trivial, ht', ?_⟩
    have hsettled := h'.settle
    rwa [settled_outlook] at hsettled
  · have hstore : ∀ pid start data esp, op ≠ .copyToUser pid start data esp :=
      fun pid start data esp heq => hstore ⟨pid, start, data, esp, heq⟩
    have hplain : Pager.observe op = do return ⟨op, ← Pager.perform op, 0, ← pager⟩ := by
      cases op <;> first | rfl | exact absurd rfl (hstore _ _ _ _)
    rw [hplain]
    simp only [ensures_bind, ensures_pure, ensures_pager]
    refine (ensures_perform_settled hop hstore hfile t ht h).mono ?_
    rintro answer t' ⟨ht', h'⟩
    have hnone : ∀ pid addr, Event.storedAt ⟨op, answer, 0, t'.pager⟩ pid addr = none := by
      intro pid addr
      cases op <;> first | rfl | exact absurd rfl (hstore _ _ _ _)
    rw [settled_outlook] at h'
    simp only [Event.lastStored, hnone, Option.none_or]
    exact ⟨trivial, trivial, ht', h'⟩

end PagerM

/-! ### Reads -/

/-- A read that the event records has answered the bytes that `last` says were last stored, and
otherwise those that the sources of the pages define. -/
def Event.ReadsBack (held : Nat → Bytes) (last : Nat → Nat → Option UInt8) (event : Event) : Prop :=
  ∀ pid start length esp bytes, event.op = .copyFromUser pid start length esp →
    event.answer = .bytes (.ok bytes) → bytes.size = length ∧
      ∀ i < length, ∃ e, event.after.declared ⟨pid, pageFloor (start + i)⟩ = some e ∧
        bytes[i]? = some ((last pid (start + i)).getD
          ((e.source.initial (held ·.id)).byteAt (start + i)))

namespace PagerM

variable {held : Nat → Bytes} {last : Nat → Nat → Option UInt8}

theorem ensures_observe_readsBack {op : Op} (hop : op.plans = false)
    (hfile : ∀ h, op.handle? = some h → h.file.Holds (held h.id)) (t : Traced)
    (ht : t.pager.Sound) (h : t.pager.outlook.RecordedIn held last) :
    Ensures (Pager.observe op) (fun event _ => event.ReadsBack held last) t := by
  by_cases hread : ∃ pid start length esp, op = .copyFromUser pid start length esp
  · obtain ⟨pid, start, length, esp, rfl⟩ := hread
    simp only [Pager.observe, Pager.perform, ensures_bind, ensures_pure, ensures_pager]
    refine ((ensures_copyFromUser_delivers pid start length esp t ht h.backed).and
      (ensures_copyFromUser pid start length esp t)).mono ?_
    rintro r t' ⟨hdelivers, hattempts⟩
    have h' := h.grow (hattempts.steps.extends (fun _ hnone => by cases hnone) ht h.backed)
    intro pid start length esp bytes heq hanswer
    cases heq
    cases hanswer
    obtain ⟨hsize, hbytes⟩ := hdelivers bytes rfl
    refine ⟨hsize, fun i hi => ?_⟩
    obtain ⟨source, page, hpage, hbyte⟩ := hbytes i (hsize ▸ hi)
    obtain ⟨w, hw, hmemory⟩ := Option.map_eq_some_iff.1 hpage
    obtain ⟨e, he, rfl⟩ := Option.map_eq_some_iff.1 hw
    obtain rfl : e.source = source := congrArg Prod.fst hmemory
    exact ⟨e, he, by rw [hbyte, h'.byteAt pid _ _ _ hpage]⟩
  · refine (ensures_observe_recorded hop hfile t ht h).mono ?_
    intro event t' hrecorded pid start length esp bytes heq
    exact absurd ⟨pid, start, length, esp, hrecorded.1 ▸ heq⟩ hread

/-- Every read of a history answers the last write before it. -/
theorem ensures_history_readsBack {ops : List Op} (hops : ∀ op ∈ ops, op.plans = false)
    (hfiles : ∀ op ∈ ops, ∀ h, op.handle? = some h → h.file.Holds (held h.id)) (t : Traced)
    (ht : t.pager.Sound) (h : t.pager.outlook.RecordedIn held last) :
    Ensures (Pager.history ops) (fun events _ => events.map Event.op = ops ∧
      ∀ before event after, events = before ++ event :: after → event.ReadsBack held fun pid addr =>
        before.foldl (fun last event => event.lastStored pid addr last) (last pid addr)) t := by
  induction ops generalizing t last with
  | nil =>
    rw [Pager.history]
    refine ensures_pure.2 ⟨rfl, fun before event after heq => ?_⟩
    simp at heq
  | cons op rest ih =>
    rw [Pager.history]
    simp only [ensures_bind, ensures_pure]
    have hop := hops op List.mem_cons_self
    have hfile := hfiles op List.mem_cons_self
    refine ((ensures_observe_recorded hop hfile t ht h).and
      (ensures_observe_readsBack hop hfile t ht h)).mono ?_
    rintro event t₁ ⟨⟨rfl, -, ht₁, h₁⟩, hreads⟩
    refine (ih (fun op' hop' => hops op' (List.mem_cons_of_mem _ hop'))
      (fun op' hop' => hfiles op' (List.mem_cons_of_mem _ hop')) t₁ ht₁ h₁).mono ?_
    rintro events t' ⟨rfl, hrest⟩
    refine ⟨rfl, fun before read after heq => ?_⟩
    cases before with
    | nil =>
      obtain ⟨rfl, -⟩ := List.cons.inj heq
      exact hreads
    | cons first before =>
      obtain ⟨rfl, htail⟩ := List.cons.inj heq
      exact hrest before read after htail

end PagerM

namespace Pager

theorem recordedIn_ofConfig (held : Nat → Bytes) (config : Config) (device : Block) :
    (ofConfig config device).outlook.RecordedIn held fun _ _ => none := by
  have hnone : ∀ o, (ofConfig config device).outlook.pages o = none := by
    intro o
    rw [outlook_ofConfig]
  refine ⟨fun o w h hw => ?_, fun _ _ _ => rfl, fun pid addr source page hpage => ?_⟩
  · rw [hnone] at hw
    simp at hw
  · rw [Outlook.memory, hnone] at hpage
    simp at hpage

/-- Read returns last write, through any paging. In a run that does not panic, where the files hold
what `held` says whenever they can be read and the sectors of the swap device are numbered in 32
bits, every copy from user memory that succeeds answers, for each address, the byte that a copy to
user memory last stored there since the page was declared, and if there is none, the byte that the
source of the page defines. -/
theorem read_eq_lastStored (held : Nat → Bytes) {config : Config} {device : Block}
    {ops : List Op} {answers : List Answer} {t : Traced} (hdevice : device.size ≤ 2 ^ 32)
    (hops : ∀ op ∈ ops, op.plans = false)
    (hfiles : ∀ op ∈ ops, ∀ h, op.handle? = some h → h.file.Holds (held h.id))
    (h : (run ops).run (.start config device) = .ok answers t) :
    ∃ events, (history ops).run (.start config device) = .ok events t ∧
      events.map Event.answer = answers ∧ events.map Event.op = ops ∧
      ∀ before event after, events = before ++ event :: after →
        event.ReadsBack held fun pid addr => lastStored pid addr before := by
  rw [run_eq_history] at h
  obtain ⟨events, hevents, hanswers⟩ := PagerM.run_map_eq_ok.1 h
  obtain ⟨hrequests, hreads⟩ := PagerM.ensures_history_readsBack hops hfiles (.start config device)
    (sound_ofConfig config hdevice) (recordedIn_ofConfig held config device) events t hevents
  exact ⟨events, hevents, hanswers, hrequests, hreads⟩

/-- A process maps a file, writes across the border of two pages and reads back around it. -/
theorem read_eq_lastStored_mapped : ∃ ops answers t events,
    ops = [.register 1, .mapFile 1 ⟨5, 0, .ofBytes #[1, 2, 3]⟩ 0x2000, .declareZero 1 0x1000 true,
      .copyToUser 1 0x1fff #[7, 8] 0, .failReads 5 true, .copyFromUser 1 0x1ffe 4 0] ∧
    (run ops).run (.start { userFrames := 2 } (.attach .swap "swap" (.ram (.blank 64))))
      = .ok answers t ∧
    (history ops).run (.start { userFrames := 2 } (.attach .swap "swap" (.ram (.blank 64))))
      = .ok events t ∧
    events.map Event.answer = answers ∧ events.map Event.op = ops ∧
    ∀ before event after, events = before ++ event :: after →
      event.ReadsBack (fun _ => #[1, 2, 3]) fun pid addr => lastStored pid addr before := by
  have hends : PagerM.Ends (run [.register 1, .mapFile 1 ⟨5, 0, .ofBytes #[1, 2, 3]⟩ 0x2000,
      .declareZero 1 0x1000 true, .copyToUser 1 0x1fff #[7, 8] 0, .failReads 5 true,
      .copyFromUser 1 0x1ffe 4 0])
      (.start { userFrames := 2 } (.attach .swap "swap" (.ram (.blank 64)))) := by
    decide +kernel
  obtain ⟨answers, t, h⟩ := hends
  have hdevice : (Block.attach .swap "swap" (.ram (.blank 64))).size ≤ 2 ^ 32 := by decide
  have hops : ∀ op ∈ [Op.register 1, .mapFile 1 ⟨5, 0, .ofBytes #[1, 2, 3]⟩ 0x2000,
      .declareZero 1 0x1000 true, .copyToUser 1 0x1fff #[7, 8] 0, .failReads 5 true,
      .copyFromUser 1 0x1ffe 4 0], op.plans = false := by
    simp [Op.plans]
  have hfiles : ∀ op ∈ [Op.register 1, .mapFile 1 ⟨5, 0, .ofBytes #[1, 2, 3]⟩ 0x2000,
      .declareZero 1 0x1000 true, .copyToUser 1 0x1fff #[7, 8] 0, .failReads 5 true,
      .copyFromUser 1 0x1ffe 4 0], ∀ h, op.handle? = some h →
        h.file.Holds #[1, 2, 3] := by
    simp [Op.handle?, File.holds_ofBytes]
  obtain ⟨events, hevents, hanswers, hrequests, hreads⟩ :=
    read_eq_lastStored (fun _ => #[1, 2, 3]) hdevice hops hfiles h
  exact ⟨_, answers, t, events, rfl, h, hevents, hanswers, hrequests, hreads⟩

end Pager

end DemandPaging
