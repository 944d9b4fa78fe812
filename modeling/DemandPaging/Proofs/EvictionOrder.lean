import DemandPaging.Proofs.DueEvictions
import DemandPaging.Proofs.StoredPrefix

/-!
# Pages are evicted in the order in which they got their frames

A request may fault in many pages, so a page that is evicted was due at a moment within the
request. `Traced.Moment` names these moments without looking into requests: a request that works on
a range gets to them by working on the first bytes of the range only. A pin has then pinned the
pages before the one it faults in, and a copy has copied the bytes before it. By induction on the
pages of a request and on the requests of a run, the replacement order is that of the stamps at
every moment, and every eviction was due at one.

## Main definitions

* `Traced.Moment` — a moment in a run.
* `Traced.Oldest` — the page that got its frame first, of all pages without pins.
* `Traced.Queued` — what the replacement order is.
* `Traced.Replaces` — what a fault does to the pages in frames.

## Main results

* `PagerM.evictsInTurn_run` — a run keeps up the order of the pages, and each eviction was due.
* `Pager.evicts_oldest` — the page that is evicted is always the oldest.
-/

namespace DemandPaging

variable {M : Traced → Prop} {u t t' : Traced} {o : FrameOwner} {f : Nat}

/-! ### Ranges -/

namespace PagerM

section Ranges

variable {config : Config} {slots pid start esp : Nat}

theorem evictsInTurn_pinPage {addr : Nat} {forWrite : Bool} (hM : M t)
    (ho : Pager.Owned config slots t.pager) (h : t.Fair M) :
    EvictsInTurn M (pinPage pid addr esp forWrite) t := by
  rw [pinPage]
  refine (evictsInTurn_faultIn hM ho h).bind fun r t₁ _ h₁ => ?_
  cases r with
  | error e => exact .of_thins (preserves_pure _) h₁
  | ok f => exact .of_thins ((thins_pinFrame f).bind fun _ => preserves_pure _) h₁

theorem evictsInTurn_readPiece {piece : Piece} (hM : M t) (ho : Pager.Owned config slots t.pager)
    (h : t.Fair M) : EvictsInTurn M (readPiece pid piece esp) t := by
  rw [readPiece]
  refine (evictsInTurn_pinPage hM ho h).bind fun r t₁ _ h₁ => ?_
  cases r with
  | error e => exact .of_thins (preserves_pure _) h₁
  | ok f =>
    have hout : Preserves t₁.Thins (copyOut f piece) :=
      preserves_pager.bind fun _ => (preserves_lift _).bind fun _ => preserves_pure _
    exact .of_thins (hout.bind fun _ => (thins_unpinFrame f).bind fun _ => preserves_pure _) h₁

theorem evictsInTurn_writePiece {piece : Piece} {data : Bytes} (hM : M t)
    (ho : Pager.Owned config slots t.pager) (h : t.Fair M) :
    EvictsInTurn M (writePiece pid piece data esp) t := by
  rw [writePiece]
  refine (evictsInTurn_pinPage hM ho h).bind fun r t₁ _ h₁ => ?_
  cases r with
  | error e => exact .of_thins (preserves_pure _) h₁
  | ok f =>
    have hcopy : Preserves t₁.Thins (copyIn f piece data) :=
      preserves_pager.bind fun _ => (preserves_lift _).bind fun _ => thins_setContents f _
    exact .of_thins (hcopy.bind fun _ => (thins_unpinFrame f).bind fun _ => preserves_pure _) h₁

/-- The pages of a range are pinned one after the other, each at the moment at which the pages
before it are pinned and no others. -/
theorem evictsInTurn_pinPages {forWrite : Bool} {page count : Nat} {pinned : List Nat}
    (ho : Pager.Owned config slots t.pager) (h : t.Fair M)
    (hM : ∀ k u, k < count →
      (pinPages pid start esp forWrite page k pinned).run t = .ok (.ok ()) u → M u) :
    EvictsInTurn M (pinPages pid start esp forWrite page count pinned) t := by
  induction count generalizing page pinned t with
  | zero => exact .of_thins (preserves_pure _) h
  | succ count ih =>
    have hnow : M t := hM 0 t (Nat.succ_pos count) rfl
    rw [pinPages]
    refine (evictsInTurn_faultIn hnow ho h).bind fun r t₁ hfault h₁ => ?_
    cases r with
    | error e => exact .of_thins ((thins_unpinFrames pinned).bind fun _ => preserves_pure _) h₁
    | ok f =>
      have ho₁ := (ensures_faultIn _ _ _ _ t _ t₁ hfault).attempts.steps.owned ho
      refine (EvictsInTurn.of_thins (thins_pinFrame f) h₁).bind fun _ t₂ hpin h₂ => ?_
      have ho₂ : Pager.Owned config slots t₂.pager :=
        ensures_pinFrame (Q := fun _ t' => Pager.Owned config slots t'.pager).2
          (fun frames hframes => (Pager.Step.pin hframes).owned ho₁) () t₂ hpin
      refine ih ho₂ h₂ fun k u hk hrest => hM (k + 1) u (Nat.succ_lt_succ hk) ?_
      rw [pinPages]
      exact run_bind_eq_ok.2 ⟨.ok f, t₁, hfault, run_bind_eq_ok.2 ⟨(), t₂, hpin, hrest⟩⟩

/-- A copy of the first `n` bytes begins with the same piece as the whole copy, if it has that
piece at all. -/
theorem run_readPieces_of_le {length done n : Nat} {bytes found : Bytes} {t₁ : Traced}
    {r : Except FaultError Bytes} (hdone : done < length)
    (hpiece : (readPiece pid (.next start length done) esp).run t = .ok (.ok found) t₁)
    (hle : done + (Piece.next start length done).size ≤ n) (hn : n ≤ length)
    (hrest : (readPieces pid start n esp (done + (Piece.next start length done).size)
      (bytes ++ found)).run t₁ = .ok r t') :
    (readPieces pid start n esp done bytes).run t = .ok r t' := by
  have hpos := Piece.next_size_pos start hdone
  have hnext := Piece.next_of_le hdone hle hn
  rw [readPieces_of_lt (by omega), hnext]
  exact run_bind_eq_ok.2 ⟨.ok found, t₁, hpiece, hrest⟩

/-- The pages of a copy are faulted in one after the other, each at the moment at which the bytes
before it are copied and no others. -/
theorem evictsInTurn_readPieces {length done : Nat} {bytes : Bytes} {t : Traced}
    (ho : Pager.Owned config slots t.pager) (h : t.Fair M)
    (hM : ∀ n found u, done ≤ n → n < length →
      (readPieces pid start n esp done bytes).run t = .ok (.ok found) u → M u) :
    EvictsInTurn M (readPieces pid start length esp done bytes) t := by
  by_cases hdone : done < length
  · have hnow : M t := by
      refine hM done bytes t (Nat.le_refl _) hdone ?_
      rw [readPieces_of_le (Nat.le_refl _)]
      rfl
    rw [readPieces_of_lt hdone]
    refine (evictsInTurn_readPiece hnow ho h).bind fun r t₁ hpiece h₁ => ?_
    cases r with
    | error e => exact .of_thins (preserves_pure _) h₁
    | ok found =>
      have ho₁ := (ensures_readPiece pid _ esp t _ t₁ hpiece).attempts.steps.owned ho
      have hpos := Piece.next_size_pos start hdone
      exact evictsInTurn_readPieces ho₁ h₁ fun n found' u hle hn hrest =>
        hM n found' u (by omega) hn
          (run_readPieces_of_le hdone hpiece hle (Nat.le_of_lt hn) hrest)
  · rw [readPieces_of_le (Nat.le_of_not_lt hdone)]
    exact .of_thins (preserves_pure _) h
  termination_by length - done

theorem evictsInTurn_writePieces {data : Bytes} {done : Nat} {t : Traced}
    (ho : Pager.Owned config slots t.pager) (h : t.Fair M)
    (hM : ∀ n u, done ≤ n → n < data.size →
      (writePieces pid start (data.extract 0 n) esp done).run t = .ok (.ok ()) u → M u) :
    EvictsInTurn M (writePieces pid start data esp done) t := by
  by_cases hdone : done < data.size
  · have hnow : M t := by
      refine hM done t (Nat.le_refl _) hdone ?_
      rw [writePieces_of_le (by rw [Array.size_extract]; omega)]
      rfl
    rw [writePieces_of_lt hdone]
    refine (evictsInTurn_writePiece hnow ho h).bind fun r t₁ hpiece h₁ => ?_
    cases r with
    | error e => exact .of_thins (preserves_pure _) h₁
    | ok _ =>
      have ho₁ := (ensures_writePiece pid _ data esp t _ t₁ hpiece).attempts.steps.owned ho
      have hpos := Piece.next_size_pos start hdone
      exact evictsInTurn_writePieces ho₁ h₁ fun n u hle hn hrest =>
        hM n u (by omega) hn
          (run_writePieces_extract hdone hpiece hle (Nat.le_of_lt hn) hrest)
  · rw [writePieces_of_le (Nat.le_of_not_lt hdone)]
    exact .of_thins (preserves_pure _) h
  termination_by data.size - done

end Ranges

end PagerM

/-! ### Requests -/

/-- Any number of the pages of a range are the pages of its first bytes. -/
theorem PageRun.exists_count_eq {start size k : Nat} (hfits : start + size < 2 ^ 64) (hpos : 0 < k)
    (hk : k < (spanning start size).count) :
    ∃ n, 0 < n ∧ n < size ∧ (spanning start n).count = k := by
  have hlt := lt_of_lt_count hfits hk
  have hfloor := pageFloor_add_pageOffset start
  have hoffset := pageOffset_lt start
  have hpage : pageSize ≤ k * pageSize := Nat.le_mul_of_pos_left pageSize hpos
  refine ⟨pageFloor start + k * pageSize - start, by omega, by omega, ?_⟩
  simp only [spanning, saturatingAdd_eq, pageSize] at *
  omega

/-- The number of bytes in the range of a request, if it has one. -/
def Op.length : Op → Nat
  | .pin _ _ size _ _ => size
  | .copyFromUser _ _ length _ => length
  | .copyToUser _ _ data _ => data.size
  | _ => 0

/-- The request for the first `n` bytes of its range, if it has one. -/
def Op.cut (n : Nat) : Op → Op
  | .pin pid start _ esp forWrite => .pin pid start n esp forWrite
  | .copyFromUser pid start _ esp => .copyFromUser pid start n esp
  | .copyToUser pid start data esp => .copyToUser pid start (data.extract 0 n) esp
  | op => op

/-- Whether an answer is that a range was not worked on to its end. -/
def Answer.fails : Answer → Bool
  | .resolved (.error _) | .bytes (.error _) => true
  | _ => false

/-- `u` is a moment in a run of `ops` from `t`. -/
inductive Traced.Moment (t : Traced) : List Op → Traced → Prop
  /-- After some of the requests, or after all of them. -/
  | between (before after : List Op) {answers : List Answer} {u : Traced}
      (ran : (Pager.run before).run t = .ok answers u) : Moment t (before ++ after) u
  /-- After the first `n` bytes of the range of a request. -/
  | within (before after : List Op) {op : Op} {n : Nat} {answers : List Answer} {answer : Answer}
      {t₁ u : Traced} (ran : (Pager.run before).run t = .ok answers t₁) (lt_length : n < op.length)
      (cut : (Pager.perform (op.cut n)).run t₁ = .ok answer u) (ok : answer.fails = false) :
    Moment t (before ++ op :: after) u
  /-- When a request has been reported, and nothing else has happened. -/
  | reported {ops : List Op} {s u : Traced} (moment : Moment t ops s) (pager : u.pager = s.pager)
      (log : QuietSince s.log.toList u.log.toList) : Moment t ops u

/-- A run goes on where the run before it ended. -/
theorem Pager.run_append {before after : List Op} {answers answers' : List Answer} {t₁ : Traced}
    (h : (run before).run t = .ok answers t₁) (h' : (run after).run t₁ = .ok answers' t') :
    (run (before ++ after)).run t = .ok (answers ++ answers') t' := by
  induction before generalizing t answers with
  | nil =>
    cases h
    exact h'
  | cons op rest ih =>
    obtain ⟨answer, t₂, hperform, hrest⟩ := PagerM.run_bind_eq_ok.1 h
    obtain ⟨answers₂, t₃, hrun, hcons⟩ := PagerM.run_bind_eq_ok.1 hrest
    cases hcons
    exact PagerM.run_bind_eq_ok.2 ⟨answer, t₂, hperform,
      PagerM.run_bind_eq_ok.2 ⟨answers₂ ++ answers', t', ih hrun, rfl⟩⟩

/-- A moment after the first request. -/
theorem Traced.Moment.cons {op : Op} {ops : List Op} {answer : Answer} {t₁ : Traced}
    (h : t₁.Moment ops u) (hperform : (Pager.perform op).run t = .ok answer t₁) :
    t.Moment (op :: ops) u := by
  have hrun : ∀ {before answers t'}, (Pager.run before).run t₁ = .ok answers t' →
      (Pager.run (op :: before)).run t = .ok (answer :: answers) t' := fun hbefore =>
    PagerM.run_bind_eq_ok.2 ⟨answer, t₁, hperform, PagerM.run_bind_eq_ok.2 ⟨_, _, hbefore, rfl⟩⟩
  induction h with
  | between before after ran => exact .between (op :: before) after (hrun ran)
  | within before after ran lt_length cut ok =>
    exact .within (op :: before) after (hrun ran) lt_length cut ok
  | reported _ pager log ih => exact .reported ih pager log

namespace PagerM

variable {config : Config} {slots pid start esp : Nat}

theorem evictsInTurn_pageFault {addr : Nat}
    (hM : ∀ s, s.pager = t.pager → QuietSince t.log.toList s.log.toList → M s)
    (ho : Pager.Owned config slots t.pager) (h : t.Fair M) :
    EvictsInTurn M (Pager.pageFault pid addr esp) t := by
  have hemit := Traced.Thins.emit (t := t) (e := .faulting pid addr esp) rfl
  rw [Pager.pageFault]
  refine meets_bind.2 (meets_emit.2 ?_)
  refine EvictsInTurn.bind (evictsInTurn_faultIn (hM _ rfl hemit.log) ho (h.thins hemit))
    fun r t₁ _ h₁ => ?_
  exact .of_thins (preserves_pure _) h₁

theorem evictsInTurn_handlePageFault {addr : Nat} {code : FaultCode}
    (hM : ∀ s, s.pager = t.pager → QuietSince t.log.toList s.log.toList → M s)
    (ho : Pager.Owned config slots t.pager) (h : t.Fair M) :
    EvictsInTurn M (Pager.handlePageFault pid addr esp code) t := by
  have hemit := Traced.Thins.emit (t := t) (e := .trapped pid addr code) rfl
  have h' := h.thins hemit
  rw [Pager.handlePageFault]
  refine meets_bind.2 (meets_emit.2 (meets_ite.2 ⟨fun _ => ?_, fun _ => ?_⟩))
  · exact EvictsInTurn.of_thins ((thins_emit rfl).bind fun _ => preserves_pure _) h'
  · refine EvictsInTurn.bind (evictsInTurn_pageFault
      (fun s hpager hlog => hM s hpager (hemit.log.trans hlog)) ho h') fun r t₁ _ h₁ => ?_
    cases r with
    | error e => exact .of_thins ((thins_emit rfl).bind fun _ => preserves_pure _) h₁
    | ok _ => exact .of_thins (preserves_pure _) h₁

theorem isUserRange_of_le {c : Config} {length n : Nat} (h : c.isUserRange start length = true)
    (hn : n ≤ length) : c.isUserRange start n = true := by
  obtain ⟨hfits, hbelow⟩ := isUserRange_iff.1 h
  exact isUserRange_iff.2 (by omega)

/-- The first pages of a pin are those of a pin of the bytes on them. -/
theorem exists_run_pin {size k : Nat} {forWrite : Bool} (hsize : size ≠ 0)
    (hrange : t.pager.config.isUserRange start size = true)
    (hk : k < (PageRun.spanning start size).count) :
    ∃ n < size, (Pager.pin pid start n esp forWrite).run t
      = (pinPages pid start esp forWrite (pageFloor start) k []).run t := by
  obtain ⟨hfits, hbelow⟩ := isUserRange_iff.1 hrange
  rcases Nat.eq_zero_or_pos k with rfl | hpos
  · refine ⟨0, by omega, ?_⟩
    rw [Pager.pin, if_pos rfl]
    rfl
  · obtain ⟨n, hn, hlt, hcount⟩ := PageRun.exists_count_eq hfits hpos hk
    refine ⟨n, hlt, ?_⟩
    rw [Pager.pin, if_neg (Nat.ne_of_gt hn), EStateM.run_bind]
    show (if t.pager.config.isUserRange start n then _ else _ : PagerM _).run t = _
    rw [if_pos (isUserRange_of_le hrange (Nat.le_of_lt hlt)), ← hcount]
    rfl

theorem evictsInTurn_pin {size : Nat} {forWrite : Bool}
    (ho : Pager.Owned config slots t.pager) (h : t.Fair M)
    (hM : ∀ n u, n < size → (Pager.pin pid start n esp forWrite).run t = .ok (.ok ()) u → M u) :
    EvictsInTurn M (Pager.pin pid start size esp forWrite) t := by
  rw [Pager.pin]
  refine meets_ite.2 ⟨fun _ => h, fun hsize => ?_⟩
  refine meets_bind.2 (meets_pager.2 (meets_ite.2 ⟨fun hrange => ?_, fun _ => h⟩))
  refine evictsInTurn_pinPages ho h fun k u hk hrun => ?_
  obtain ⟨n, hn, hsame⟩ := exists_run_pin hsize hrange hk
  exact hM n u hn (hsame.trans hrun)

theorem evictsInTurn_copyFromUser {length : Nat} (ho : Pager.Owned config slots t.pager)
    (h : t.Fair M)
    (hM : ∀ n found u, n < length →
      (Pager.copyFromUser pid start n esp).run t = .ok (.ok found) u → M u) :
    EvictsInTurn M (Pager.copyFromUser pid start length esp) t := by
  rw [Pager.copyFromUser]
  refine meets_bind.2 (meets_pager.2 (meets_ite.2 ⟨fun hrange => ?_, fun _ => h⟩))
  refine meets_bind.2 (meets_lift.2 ⟨fun _ hbuffer => ?_, fun _ _ => h.recounts⟩)
  refine evictsInTurn_readPieces ho h fun n found u _ hn hrun => hM n found u hn ?_
  have hlength : length * 1 < Nat.pow 2 63 := by
    by_contra hlong
    rw [checkBuffer, if_neg hlong] at hbuffer
    cases hbuffer
  have hchecked : checkBuffer n 1 = .ok () := checkBuffer_of_lt (by omega)
  rw [Pager.copyFromUser]
  refine run_bind_eq_ok.2 ⟨t.pager, t, rfl, ?_⟩
  rw [if_pos (isUserRange_of_le hrange (Nat.le_of_lt hn)), hchecked]
  exact run_bind_eq_ok.2 ⟨(), t, rfl, hrun⟩

theorem evictsInTurn_copyToUser {data : Bytes} (ho : Pager.Owned config slots t.pager)
    (h : t.Fair M)
    (hM : ∀ n u, n < data.size →
      (Pager.copyToUser pid start (data.extract 0 n) esp).run t = .ok (.ok ()) u → M u) :
    EvictsInTurn M (Pager.copyToUser pid start data esp) t := by
  rw [Pager.copyToUser]
  refine meets_bind.2 (meets_pager.2 (meets_ite.2 ⟨fun hrange => ?_, fun _ => h⟩))
  refine evictsInTurn_writePieces ho h fun n u _ hn hrun => hM n u hn ?_
  rwa [Pager.run_copyToUser_of_isUserRange
    (isUserRange_of_le hrange (by rw [Array.size_extract]; omega))]

theorem evictsInTurn_perform {op : Op} (ho : Pager.Owned config slots t.pager) (h : t.Fair M)
    (hnow : ∀ s, s.pager = t.pager → QuietSince t.log.toList s.log.toList → M s)
    (hM : ∀ n answer u, n < op.length → (Pager.perform (op.cut n)).run t = .ok answer u →
      answer.fails = false → M u) :
    EvictsInTurn M (Pager.perform op) t := by
  cases hloads : op.loads with
  | false => exact .of_thins (thins_perform hloads) h
  | true =>
    have hanswer : ∀ {α : Type} {x : PagerM α} (g : α → Answer), EvictsInTurn M x t →
        EvictsInTurn M (do return g (← x)) t := fun g hx =>
      hx.bind fun _ _ _ h₁ => .of_thins (preserves_pure _) h₁
    cases op with
    | pageFault pid addr esp => exact hanswer _ (evictsInTurn_pageFault hnow ho h)
    | interrupt pid addr esp code => exact hanswer _ (evictsInTurn_handlePageFault hnow ho h)
    | pin pid start size esp forWrite =>
      exact hanswer _ (evictsInTurn_pin ho h fun n u hn hrun =>
        hM n (.resolved (.ok ())) u hn (run_bind_eq_ok.2 ⟨.ok (), u, hrun, rfl⟩) rfl)
    | copyFromUser pid start length esp =>
      exact hanswer _ (evictsInTurn_copyFromUser ho h fun n found u hn hrun =>
        hM n (.bytes (.ok found)) u hn (run_bind_eq_ok.2 ⟨.ok found, u, hrun, rfl⟩) rfl)
    | copyToUser pid start data esp =>
      exact hanswer _ (evictsInTurn_copyToUser ho h fun n u hn hrun =>
        hM n (.resolved (.ok ())) u hn (run_bind_eq_ok.2 ⟨.ok (), u, hrun, rfl⟩) rfl)
    | _ => cases hloads

/-- In a run every eviction is due at a moment of the run. -/
theorem evictsInTurn_run {ops : List Op} (ho : Pager.Owned config slots t.pager) (h : t.Fair M)
    (hM : ∀ u, t.Moment ops u → M u) : EvictsInTurn M (Pager.run ops) t := by
  induction ops generalizing t with
  | nil => exact .of_thins (preserves_pure _) h
  | cons op rest ih =>
    have hnow := fun s hpager hlog =>
      hM s (.reported (.between [] (op :: rest) rfl) hpager hlog)
    rw [Pager.run]
    refine (evictsInTurn_perform ho h hnow fun n answer u hn hrun hok =>
      hM u (.within [] rest rfl hn hrun hok)).bind fun answer t₁ hperform h₁ => ?_
    have ho₁ := (ensures_perform op t answer t₁ hperform).steps.owned ho
    refine (ih ho₁ h₁ fun u hu => hM u (hu.cons hperform)).bind fun _ t₂ _ h₂ => ?_
    exact .of_thins (preserves_pure _) h₂

end PagerM

/-! ### The order of the pages -/

/-- Of the pages of all processes that are in frames without pins, `o` got its frame first. No
frame is free, and `f` is its frame. -/
structure Traced.Oldest (t : Traced) (o : FrameOwner) (f : Nat) : Prop where
  full : t.pager.freeFrames = .ok 0
  resident : t.pager.residency o = some (.resident f)
  unpinned : t.pager.frames.isPinned f = .ok false
  first : ∀ o' g, t.pager.residency o' = some (.resident g) →
    t.pager.frames.isPinned g = .ok false → o' ≠ o → stamp t.log.toList o < stamp t.log.toList o'

/-- The replacement order is that of the resident pages by the times at which they got their
frames, and if no page can be evicted, then every frame in use is pinned. -/
structure Traced.Queued (t : Traced) : Prop where
  nodup : t.pager.frames.order.queue.Nodup
  mem_iff : ∀ f, f ∈ t.pager.frames.order.queue ↔ ∃ o, t.pager.residency o = some (.resident f)
  reported : ∀ o f, t.pager.residency o = some (.resident f) → 0 < stamp t.log.toList o
  ordered : t.pager.frames.order.queue.Pairwise fun f g => ∀ o o',
    t.pager.residency o = some (.resident f) → t.pager.residency o' = some (.resident g) →
      stamp t.log.toList o < stamp t.log.toList o'
  pinned : ∀ frames, t.pager.frames.selectVictim = (none, frames) →
    ∀ f, t.pager.frames.isAllocated f = true → t.pager.frames.isPinned f = .ok true

/-- What a fault that starts at `t` and ends at `t'` does to the pages in frames. -/
structure Traced.Replaces (t t' : Traced) : Prop where
  /-- A page that leaves its frame is the oldest. It goes to swap, and that is reported. -/
  leaves : ∀ o f, t.pager.residency o = some (.resident f) →
    t'.pager.residency o ≠ some (.resident f) → t.Oldest o f ∧
      (∃ slot, t'.pager.residency o = some (.swapped slot)) ∧
      TellsEviction t.log.toList o f t'.log.toList
  /-- A page in a frame has kept it, and its stamp, or it was in none, and its stamp is later than
  all others. -/
  stamps : ∀ o f, t'.pager.residency o = some (.resident f) →
    (t.pager.residency o = some (.resident f) ∧ stamp t'.log.toList o = stamp t.log.toList o) ∨
      ((∀ g, t.pager.residency o ≠ some (.resident g)) ∧ t.log.size < stamp t'.log.toList o)

section Order

variable {config : Config} {slots : Nat} {device : Block} {ops : List Op}

theorem Pager.Owned.stampOf_eq (ho : Pager.Owned config slots t.pager)
    (h : t.pager.residency o = some (.resident f)) : t.stampOf f = stamp t.log.toList o :=
  t.stampOf_of_owner ((ho.frames.owners f o).2 h)

theorem Traced.Picks.oldest (h : t.Picks o f) (ho : Pager.Owned config slots t.pager) :
    t.Oldest o f := by
  have hcons := ho.frames.consistent
  have hpinned : ∀ {g}, t.pager.frames.isAllocated g = true →
      (t.pager.frames.isPinned g = .ok false ↔ t.pager.frames.pinsOf g = 0) := by
    intro g hg
    rw [FramePool.isPinned_eq (FramePool.lt_size_of_isAllocated hg)]
    simp
  have hallocated : ∀ {o' g}, t.pager.residency o' = some (.resident g) →
      t.pager.frames.isAllocated g = true := fun hres =>
    hcons.isAllocated_of_ownerOf ((ho.frames.owners _ _).2 hres)
  have hresident := (ho.frames.owners f o).1 h.owner
  refine ⟨?_, hresident, (hpinned (hallocated hresident)).2 h.unpinned, fun o' g hg hpins hne => ?_⟩
  · rw [Pager.freeFrames, FramePool.free, h.full, checkedSub_of_le (Nat.le_refl _), Nat.sub_self]
  · have hgf : g ≠ f := by
      rintro rfl
      exact hne (Option.some.inj (((ho.frames.owners g o').2 hg).symm.trans h.owner))
    rw [← ho.stampOf_eq hresident, ← ho.stampOf_eq hg]
    exact h.first g (hallocated hg) ((hpinned (hallocated hg)).1 hpins) hgf

theorem Traced.InTurn.queued (h : t.InTurn) (ho : Pager.Owned config slots t.pager) :
    t.Queued := by
  have hcons := ho.frames.consistent
  have hmem : ∀ f, f ∈ t.pager.frames.order.queue ↔
      ∃ o, t.pager.residency o = some (.resident f) := by
    intro f
    have hiff := hcons.mem_iff f
    rw [List.append_nil] at hiff
    rw [hiff, ← hcons.isSome_ownerOf, Option.isSome_iff_exists]
    exact exists_congr fun o => ho.frames.owners f o
  refine ⟨by simpa using hcons.nodup, hmem, fun o f hres => ?_, ?_, fun frames hnone f hf => ?_⟩
  · rw [← ho.stampOf_eq hres]
    exact h.reported f ((hmem f).2 ⟨o, hres⟩)
  · refine h.ordered.imp fun hlt o o' hres hres' => ?_
    rwa [ho.stampOf_eq hres, ho.stampOf_eq hres'] at hlt
  · exact hcons.pinned_of_selectVictim_none hnone hf

/-- At boot there is nothing in the order, and nothing has been evicted. -/
theorem Traced.inTurn_start (config : Config) (device : Block) :
    (Traced.start config device).InTurn where
  reported _ hf := absurd hf List.not_mem_nil
  ordered := .nil

theorem fair_start (config : Config) (device : Block) : (Traced.start config device).Fair M where
  inTurn := Traced.inTurn_start config device
  recounts :=
    (recounts_nil.concat (e := .deviceAttached _ _ _) rfl).concat (e := .started _ _ _) rfl

/-- At every moment of a run, frames belong to the pages in them and lie in their order. -/
theorem Traced.Moment.owned_inTurn (h : (Traced.start config device).Moment ops u) :
    Pager.Owned config (Pager.ofConfig config device).swap.slots u.pager ∧ u.InTurn := by
  have hstart := Pager.owned_ofConfig config device
  have hrun : ∀ {before answers t}, (Pager.run before).run (.start config device) = .ok answers t →
      Pager.Owned config (Pager.ofConfig config device).swap.slots t.pager ∧
        t.Fair fun _ => True :=
    fun {before} _ _ hbefore => ⟨(PagerM.ensures_run before _ _ _ hbefore).owned hstart,
      (PagerM.evictsInTurn_run hstart (fair_start config device)
        fun _ _ => trivial).ensures _ _ hbefore⟩
  induction h with
  | between _ _ ran =>
    obtain ⟨ho, hfair⟩ := hrun ran
    exact ⟨ho, hfair.inTurn⟩
  | within _ _ ran _ cut =>
    obtain ⟨ho, hfair⟩ := hrun ran
    exact ⟨(PagerM.ensures_perform _ _ _ _ cut).steps.owned ho,
      ((PagerM.evictsInTurn_perform ho hfair (fun _ _ _ => trivial)
        fun _ _ _ _ _ _ => trivial).ensures _ _ cut).inTurn⟩
  | @reported ops s u _ pager log ih =>
    have hidle : s.Idles u := ⟨log, by rw [pager]⟩
    exact ⟨pager ▸ ih.1, hidle.thins.inTurn ih.2⟩

/-- What a fault that starts at a moment of a run does to the pages in frames. -/
theorem Traced.Moment.replaces {pid addr esp : Nat} {forWrite : Bool} {r : Except FaultError Nat}
    (h : (Traced.start config device).Moment ops u)
    (hfault : (PagerM.faultIn pid addr esp forWrite).run u = .ok r t') : u.Replaces t' := by
  obtain ⟨ho, hin⟩ := h.owned_inTurn
  have hfaults := PagerM.ensures_faultIn pid addr esp forWrite u r t' hfault
  have ho' := hfaults.attempts.steps.owned ho
  obtain ⟨-, hstamps, htold⟩ := (PagerM.meets_faultIn_due (D := fun _ _ _ _ => True)
    (fun _ _ _ _ _ _ => trivial) ho hin fun _ _ _ _ _ _ _ => trivial).ensures r t' hfault
  constructor
  · intro o f hres hleft
    rcases hfaults.displaces ho hres with hstays | hdisplaces
    · exact absurd hstays hleft
    · have hdue : u.pager.frames.Due o f := by
        by_contra hnot
        exact hleft (hdisplaces.stays hnot)
      exact ⟨(hin.picks ho.frames.consistent hdue).oldest ho, hdisplaces.goes hdue,
        htold o f hdue hleft⟩
  · intro o f hres
    have howner := (ho'.frames.owners f o).2 hres
    have hmem : f ∈ t'.pager.frames.order.queue := by
      have := (ho'.frames.consistent.mem_iff f).2
        (ho'.frames.consistent.isAllocated_of_ownerOf howner)
      rwa [List.append_nil] at this
    refine (hstamps f hmem o howner).imp (fun ⟨hsame, hstamp⟩ => ?_) fun ⟨hnone, hlate⟩ => ?_
    · exact ⟨(ho.frames.owners f o).1 hsame, hstamp⟩
    · exact ⟨fun g hg => hnone g ((ho.frames.owners g o).2 hg), hlate⟩

/-- Pages are evicted in the order in which they got their frames, in every run, whether it ends
or panics. At every moment of the run the replacement order is the order of those times, and a
fault that starts there evicts the first of all pages without pins, if it evicts one. Every
eviction of the run is made by such a fault. -/
theorem Pager.evicts_oldest (config : Config) (device : Block) (ops : List Op) :
    (∀ u, (Traced.start config device).Moment ops u → u.Queued ∧
      ∀ pid addr esp forWrite r t', (PagerM.faultIn pid addr esp forWrite).run u = .ok r t' →
        u.Replaces t') ∧
    ∀ t, (run ops).Leaves (.start config device) t → ∀ past pid page f slot rest,
      t.log.toList = past ++ .evicted pid page f slot :: rest →
        ∃ u, (Traced.start config device).Moment ops u ∧ u.Oldest ⟨pid, page⟩ f ∧
          u.FaultReports past (.evicted pid page f slot) := by
  constructor
  · intro u hu
    obtain ⟨ho, hin⟩ := hu.owned_inTurn
    exact ⟨hin.queued ho, fun _ _ _ _ _ _ hfault => hu.replaces hfault⟩
  · intro t hstops past pid page f slot rest hlog
    have hturns : PagerM.EvictsInTurn ((Traced.start config device).Moment ops) (run ops)
        (.start config device) :=
      PagerM.evictsInTurn_run (owned_ofConfig config device) (fair_start config device)
        fun _ hu => hu
    have hrecounts :
        Recounts (EvictedAt ((Traced.start config device).Moment ops)) t.log.toList := by
      rcases hstops with ⟨answers, hrun⟩ | ⟨e, hrun⟩
      · exact (hturns.ensures answers t hrun).recounts
      · exact hturns.of_error hrun
    obtain ⟨u, hu, hpicks, hreports⟩ := hrecounts past pid page f slot rest hlog
    exact ⟨u, hu, hpicks.oldest hu.owned_inTurn.1, hreports⟩

/-- Of two frames one is pinned, so the third page takes the frame of the second. -/
theorem Pager.evicts_oldest_skipping : ∃ config device ops u r t past slot rest,
    config = { userFrames := 2, swapSlots := 4 } ∧
    device = .attach .swap "swap" (.ram (.blank 64)) ∧
    ops = [.register 1, .declareZero 1 0x1000 true, .declareZero 1 0x2000 true,
      .declareZero 1 0x3000 true, .pin 1 0x1000 1 0 true, .pageFault 1 0x2000 0] ++
      [.pageFault 1 0x3000 0] ∧
    ((Traced.start config device).Moment ops u ∧
      (PagerM.faultIn 1 0x3000 0 false).run u = .ok r t ∧
      u.pager.residency ⟨1, 0x2000⟩ = some (.resident 1) ∧
      t.pager.residency ⟨1, 0x2000⟩ ≠ some (.resident 1) ∧ u.Queued ∧ u.Oldest ⟨1, 0x2000⟩ 1) ∧
    (run ops).Leaves (.start config device) t ∧
    t.log.toList = past ++ .evicted 1 0x2000 1 slot :: rest ∧
    ∃ u, (Traced.start config device).Moment ops u ∧ u.Oldest ⟨1, 0x2000⟩ 1 ∧
      u.FaultReports past (.evicted 1 0x2000 1 slot) := by
  have hbefore : ∃ answers t₀, (run [.register 1, .declareZero 1 0x1000 true,
      .declareZero 1 0x2000 true, .declareZero 1 0x3000 true, .pin 1 0x1000 1 0 true,
      .pageFault 1 0x2000 0]).run (.start { userFrames := 2, swapSlots := 4 }
        (.attach .swap "swap" (.ram (.blank 64)))) = .ok answers t₀ ∧
      t₀.pager.frames.allocated = t₀.pager.frames.size ∧
      t₀.pager.frames.ownerOf 1 = some ⟨1, 0x2000⟩ ∧
      t₀.pager.frames.selectVictim.1 = some 1 ∧
      (t₀.pager.declared ⟨1, 0x3000⟩).map PageEntry.frame? = some none ∧
      t₀.pager.swap.free ≠ 0 ∧
      t₀.pager.swap.device.writes + sectorsPerPage < 2 ^ 32 ∧
      t₀.pager.swap.device.reads + sectorsPerPage < 2 ^ 32 := by
    decide +kernel
  obtain ⟨answers, t₀, hrun, hfull, howner, hvictim, hframe, hroom, hwrites, hreads⟩ := hbefore
  -- the fault on the third page ends, and evicts
  have hsteps := PagerM.ensures_run _ _ answers t₀ hrun
  have hstart := owned_ofConfig { userFrames := 2, swapSlots := 4 }
    (.attach .swap "swap" (.ram (.blank 64)))
  have ho := hsteps.owned hstart
  have hp := hsteps.equipped hstart
    (equipped_ofConfig _ (Block.Healthy.attach "swap" (by decide)))
  have hfits : t₀.pager.config.Fits := ho.config_eq ▸ ⟨by decide, by decide, by decide⟩
  have hbase : pageOffset t₀.pager.config.physBase = 0 := by
    rw [ho.config_eq]
    decide
  obtain ⟨e, he, hnone⟩ := Option.map_eq_some_iff.1 hframe
  obtain ⟨pr, hpr, hlookup⟩ := exists_process_of_declared he (by decide)
  have hawaits : t₀.pager.Awaits 1 0x3000 0 := ⟨e, _, .declared hpr hlookup, hnone⟩
  have hdue : t₀.pager.frames.Due ⟨1, 0x2000⟩ 1 := ⟨hfull, howner, _, Prod.ext hvictim rfl⟩
  obtain ⟨u, hu⟩ : ∃ u : Traced, u = ⟨t₀.pager, t₀.log.push (.faulting 1 0x3000 0)⟩ := ⟨_, rfl⟩
  have hpager : u.pager = t₀.pager := by rw [hu]
  obtain ⟨r, t, hfault, slot, hslot⟩ := (PagerM.meets_faultIn_of_due (t := u) (hpager ▸ ho)
    (hpager ▸ hp) (hpager ▸ hfits) (hpager ▸ hbase) (hpager ▸ hpr) (hpager ▸ hawaits)
    (hpager ▸ hdue) (hpager ▸ hroom) (hpager ▸ hwrites) (hpager ▸ hreads)).exists_run
  have hfaulted : ∃ answer, (pageFault 1 0x3000 0).run t₀ = .ok answer t :=
    ⟨_, PagerM.run_bind_eq_ok.2 ⟨(), u, by rw [hu]; rfl,
      PagerM.run_bind_eq_ok.2 ⟨r, t, hfault, rfl⟩⟩⟩
  have hends : ∃ answers', (run [.pageFault 1 0x3000 0]).run t₀ = .ok answers' t := by
    obtain ⟨answer, hanswer⟩ := hfaulted
    exact ⟨_, PagerM.run_bind_eq_ok.2 ⟨.resolved answer, t,
      PagerM.run_bind_eq_ok.2 ⟨answer, t, hanswer, rfl⟩, rfl⟩⟩
  obtain ⟨answers', hrun'⟩ := hends
  have hstops : PagerM.Leaves _ _ t := .inl ⟨_, run_append hrun hrun'⟩
  have hmoment := Traced.Moment.reported (.between _ [.pageFault 1 0x3000 0] hrun) hpager
    (by rw [hu, Array.toList_push]; exact (QuietSince.refl _).concat rfl)
  obtain ⟨hmoments, hevictions⟩ := evicts_oldest _ _ _
  obtain ⟨hqueued, hreplaces⟩ := hmoments u hmoment
  have hres : u.pager.residency ⟨1, 0x2000⟩ = some (.resident 1) :=
    hpager ▸ (ho.frames.owners 1 _).1 howner
  have hleft : t.pager.residency ⟨1, 0x2000⟩ ≠ some (.resident 1) := by
    rw [hslot]
    simp
  obtain ⟨holdest, -, slot', events, hlog, hmem⟩ :=
    (hreplaces 1 0x3000 0 false r t hfault).leaves _ 1 hres hleft
  obtain ⟨before, rest, rfl⟩ := List.append_of_mem hmem
  rw [← List.append_assoc] at hlog
  exact ⟨_, _, _, u, r, t, u.log.toList ++ before, slot', rest, rfl, rfl, rfl,
    ⟨hmoment, hfault, hres, hleft, hqueued, holdest⟩, hstops, hlog,
    hevictions t hstops _ 1 0x2000 1 slot' rest hlog⟩

end Order

end DemandPaging
