import DemandPaging.Pager.Threads
import DemandPaging.Proofs.PoolSize

/-!
# What one process can see of the others

The requests of a thread are about the pages of its own process. Their answers can be told from
what is seen of these pages alone, `Outlook.alone`, and they change nothing that another process
can see. `Outlook.answers` tells them, one request after the other; a copy is told piece by piece,
as a thread makes it.

## Main definitions

* `Outlook.alone` — an outlook with one process in it.
* `Outlook.movePiece`, `Outlook.finish` — a piece, and all of a copy, seen from outside.
* `Outlook.answers` — what the requests of a thread are answered.

## Main results

* `Outlook.faultIn_alone`, `Outlook.Touches.alone_eq` — other processes do not matter.
* `PagerM.ensures_run_answers` — requests that are carried out one after the other are answered so.
-/

namespace DemandPaging

/-- The request as an operation of the pager. -/
def ThreadRequest.op (pid : Nat) : ThreadRequest → Op
  | .declare page writable => .tryDeclareZero pid page writable
  | .fault addr esp => .pageFault pid addr esp
  | .read start length esp => .copyFromUser pid start length esp
  | .write start data esp => .copyToUser pid start data esp
  | .destroy => .destroy pid

namespace Outlook

variable {v v' v₁ : Outlook} {pid q addr esp : Nat} {c : UserCopy}

/-! ### Requests -/

/-- Moves the bytes of the next piece of a copy: from its page to the bytes that were found, or
from the data to its page. -/
def movePiece (v : Outlook) (pid : Nat) (c : UserCopy) : CopyDirection × Outlook :=
  match v.pages ⟨pid, pageFloor c.piece.addr⟩, c.direction with
  | some page, .fromUser found =>
    (.fromUser (found ++ slice (page.contents.getD Page.zero) (pageOffset c.piece.addr)
      c.piece.size), v)
  | some page, .toUser data =>
    (.toUser data, v.setPage ⟨pid, pageFloor c.piece.addr⟩ (some { page with
      contents := some (overlay (page.contents.getD Page.zero) (pageOffset c.piece.addr)
        (data.extract c.piece.start (c.piece.start + c.piece.size))) }))
  | none, direction => (direction, v)

/-- Makes a copy from where it is to its end. -/
def finish (v : Outlook) (pid : Nat) (c : UserCopy) : Answer × Outlook :=
  if h : c.done < c.length then
    match v.faultIn pid c.piece.addr c.esp c.writes with
    | (.error e, v) => (c.failure e, v)
    | (.ok _, v) =>
      have := Piece.next_size_pos c.start h
      (v.movePiece pid c).2.finish pid
        { c with direction := (v.movePiece pid c).1, done := c.done + c.piece.size }
  else (c.answer, v)
  termination_by c.length - c.done
  decreasing_by
    simp only [UserCopy.piece]
    omega

/-- Makes all of a copy, if its range lies in user memory. -/
def copy (v : Outlook) (pid : Nat) (c : UserCopy) : Answer × Outlook :=
  if v.layout.isUserRange c.start c.length then v.finish pid c
  else (c.failure .kernelAddress, v)

/-- Carries out a request of a thread. -/
def request (v : Outlook) (pid : Nat) : ThreadRequest → Answer × Outlook
  | .declare page writable =>
    let (added, v) := v.declare ⟨pid, page⟩ .zero writable
    (.yesNo added, v)
  | .fault addr esp =>
    let (result, v) := v.faultIn pid addr esp false
    (.resolved (result.map fun _ => ()), v)
  | .read start length esp => v.copy pid ⟨.fromUser #[], start, length, esp, 0⟩
  | .write start data esp => v.copy pid ⟨.toUser data, start, data.size, esp, 0⟩
  | .destroy => (.done, v.removeProcess pid)

/-- What requests are answered that are carried out one after the other. -/
def answers (v : Outlook) (pid : Nat) : List ThreadRequest → List Answer
  | [] => []
  | r :: rest => (v.request pid r).1 :: (v.request pid r).2.answers pid rest

/-! ### Other processes do not matter -/

/-- The outlook with no process but `pid` in it. -/
def alone (v : Outlook) (pid : Nat) : Outlook where
  layout := v.layout
  pages o := if o.pid = pid then v.pages o else none
  mappings q := if q = pid then v.mappings q else none
  failing := v.failing
  nextSerial := v.nextSerial

@[simp] theorem pages_alone (v : Outlook) (pid page : Nat) :
    (v.alone pid).pages ⟨pid, page⟩ = v.pages ⟨pid, page⟩ := if_pos rfl

@[simp] theorem layout_alone (v : Outlook) (pid : Nat) : (v.alone pid).layout = v.layout := rfl

@[simp] theorem view_alone (v : Outlook) (pid : Nat) : (v.alone pid).view = v.view := rfl

theorem alone_setPage (v : Outlook) (pid page : Nat) (view : Option PageView) :
    (v.setPage ⟨pid, page⟩ view).alone pid = (v.alone pid).setPage ⟨pid, page⟩ view := by
  refine Outlook.ext rfl ?_ rfl rfl rfl
  funext o
  by_cases ho : o = ⟨pid, page⟩
  · subst ho
    rw [pages_alone, pages_setPage_self, pages_setPage_self]
  · rw [pages_setPage_of_ne _ ho]
    show (if o.pid = pid then (v.setPage ⟨pid, page⟩ view).pages o else none) = _
    rw [pages_setPage_of_ne v ho]
    rfl

/-- A change to the pages of another process is not seen. -/
theorem Touches.alone_eq (h : Touches q v v') (hq : q ≠ pid) : v'.alone pid = v.alone pid := by
  obtain ⟨pages, rfl, hpages⟩ := h
  refine Outlook.ext rfl ?_ rfl rfl rfl
  funext o
  show (if o.pid = pid then pages o else none) = if o.pid = pid then v.pages o else none
  split
  · rename_i ho
    exact hpages o (by rw [ho]; exact hq.symm)
  · rfl

theorem alone_removeProcess_of_ne (v : Outlook) (hq : q ≠ pid) :
    (v.removeProcess q).alone pid = v.alone pid := by
  refine Outlook.ext rfl ?_ ?_ rfl rfl
  · funext o
    show (if o.pid = pid then if o.pid = q then none else v.pages o else none)
      = if o.pid = pid then v.pages o else none
    by_cases ho : o.pid = pid
    · rw [if_pos ho, if_pos ho, if_neg (by rw [ho]; exact hq.symm)]
    · rw [if_neg ho, if_neg ho]
  · funext r
    show (if r = pid then Function.update v.mappings q none r else none)
      = if r = pid then v.mappings r else none
    by_cases hr : r = pid
    · rw [if_pos hr, if_pos hr, Function.update_of_ne (by rw [hr]; exact hq.symm)]
    · rw [if_neg hr, if_neg hr]

theorem declare_alone (v : Outlook) (pid page : Nat) (source : PageSource) (writable : Bool) :
    (v.alone pid).declare ⟨pid, page⟩ source writable
      = ((v.declare ⟨pid, page⟩ source writable).1,
        (v.declare ⟨pid, page⟩ source writable).2.alone pid) := by
  rw [declare, declare, pages_alone]
  cases v.pages ⟨pid, page⟩ with
  | some view => rfl
  | none => rw [alone_setPage]

theorem find_alone (v : Outlook) (pid addr esp : Nat) :
    (v.alone pid).find pid addr esp
      = ((v.find pid addr esp).1, (v.find pid addr esp).2.alone pid) := by
  rw [find, find, pages_alone, layout_alone]
  cases v.pages ⟨pid, pageFloor addr⟩ with
  | some view => rfl
  | none =>
    simp only
    split
    · rw [alone_setPage]
    · rfl

theorem faultIn_alone (v : Outlook) (pid addr esp : Nat) (forWrite : Bool) :
    (v.alone pid).faultIn pid addr esp forWrite
      = ((v.faultIn pid addr esp forWrite).1, (v.faultIn pid addr esp forWrite).2.alone pid) := by
  rw [faultIn, faultIn, find_alone, layout_alone]
  split
  · cases v.find pid addr esp with
    | mk found v₁ =>
      cases found with
      | none => rfl
      | some page =>
        simp only [view_alone]
        split
        · rfl
        · cases page.load v₁.view with
          | error e => rfl
          | ok page => simp only [alone_setPage]
  · rfl

/-! ### Copies -/

/-- A page that was faulted in is there to be seen. -/
theorem pages_of_faultIn {forWrite : Bool} {page : PageView}
    (h : v.faultIn pid addr esp forWrite = (.ok page, v₁)) :
    v₁.pages ⟨pid, pageFloor addr⟩ = some page := by
  obtain ⟨_, v₀, -, -, rfl⟩ := faultIn_eq_ok h
  exact pages_setPage_self v₀ _ _

theorem movePiece_fromUser {page : PageView} {found : Bytes}
    (hpage : v.pages ⟨pid, pageFloor c.piece.addr⟩ = some page)
    (hdirection : c.direction = .fromUser found) :
    v.movePiece pid c = (.fromUser (found ++ slice (page.contents.getD Page.zero)
      (pageOffset c.piece.addr) c.piece.size), v) := by
  rw [movePiece, hpage, hdirection]

theorem movePiece_toUser {page : PageView} {data : Bytes}
    (hpage : v.pages ⟨pid, pageFloor c.piece.addr⟩ = some page)
    (hdirection : c.direction = .toUser data) :
    v.movePiece pid c = (.toUser data, v.setPage ⟨pid, pageFloor c.piece.addr⟩ (some { page with
      contents := some (overlay (page.contents.getD Page.zero) (pageOffset c.piece.addr)
        (data.extract c.piece.start (c.piece.start + c.piece.size))) })) := by
  rw [movePiece, hpage, hdirection]

theorem finish_of_le (h : c.length ≤ c.done) : v.finish pid c = (c.answer, v) := by
  rw [finish, dif_neg (Nat.not_lt.2 h)]

theorem finish_of_error {e : FaultError} (h : c.done < c.length)
    (hfault : v.faultIn pid c.piece.addr c.esp c.writes = (.error e, v₁)) :
    v.finish pid c = (c.failure e, v₁) := by
  rw [finish, dif_pos h, hfault]

theorem finish_of_ok {page : PageView} (h : c.done < c.length)
    (hfault : v.faultIn pid c.piece.addr c.esp c.writes = (.ok page, v₁)) :
    v.finish pid c = (v₁.movePiece pid c).2.finish pid
      { c with direction := (v₁.movePiece pid c).1, done := c.done + c.piece.size } := by
  rw [finish, dif_pos h, hfault]

end Outlook

namespace PagerM

open Pager (Steps Change)

/-! ### Requests one after the other -/

theorem ensures_readPieces_finish (pid start length esp done : Nat) (found : Bytes) (t : Traced)
    (ht : t.pager.Sound) :
    Ensures (readPieces pid start length esp done found) (fun r t' =>
      t.pager.outlook.finish pid ⟨.fromUser found, start, length, esp, done⟩
        = (.bytes r, t'.pager.outlook) ∧ t'.pager.Sound) t := by
  by_cases h : done < length
  · rw [readPieces_of_lt h]
    simp only [ensures_bind]
    refine (follows_readPiece pid _ esp t ht).mono ?_
    rintro r t₁ ⟨hseen, ht₁⟩
    have hseen := Option.some.inj hseen
    rw [Outlook.readPiece] at hseen
    cases hfault : t.pager.outlook.faultIn pid (Piece.next start length done).addr esp false with
    | mk seen v₁ =>
      rw [hfault] at hseen
      cases seen with
      | error e =>
        cases hseen
        exact ensures_pure.2 ⟨Outlook.finish_of_error h hfault, ht₁⟩
      | ok page =>
        cases hseen
        have := Piece.next_size_pos start h
        refine (ensures_readPieces_finish pid start length esp _ _ t₁ ht₁).mono ?_
        rintro r t' ⟨hfinish, ht'⟩
        refine ⟨?_, ht'⟩
        have hpage := Outlook.pages_of_faultIn hfault
        rw [Outlook.finish_of_ok h hfault, Outlook.movePiece_fromUser hpage rfl]
        exact hfinish
  · rw [readPieces_of_le (Nat.le_of_not_lt h)]
    exact ensures_pure.2 ⟨Outlook.finish_of_le (Nat.le_of_not_lt h), ht⟩
  termination_by length - done

theorem ensures_writePieces_finish (pid start : Nat) (data : Bytes) (esp done : Nat) (t : Traced)
    (ht : t.pager.Sound) :
    Ensures (writePieces pid start data esp done) (fun r t' =>
      t.pager.outlook.finish pid ⟨.toUser data, start, data.size, esp, done⟩
        = (.resolved r, t'.pager.outlook) ∧ t'.pager.Sound) t := by
  by_cases h : done < data.size
  · rw [writePieces_of_lt h]
    simp only [ensures_bind]
    refine (follows_writePiece pid _ data esp t ht).mono ?_
    rintro r t₁ ⟨hseen, ht₁⟩
    have hseen := Option.some.inj hseen
    rw [Outlook.writePiece] at hseen
    cases hfault : t.pager.outlook.faultIn pid (Piece.next start data.size done).addr esp true with
    | mk seen v₁ =>
      rw [hfault] at hseen
      cases seen with
      | error e =>
        cases hseen
        exact ensures_pure.2 ⟨Outlook.finish_of_error h hfault, ht₁⟩
      | ok page =>
        obtain ⟨rfl, hwritten⟩ := Prod.mk.inj hseen
        have := Piece.next_size_pos start h
        refine (ensures_writePieces_finish pid start data esp _ t₁ ht₁).mono ?_
        rintro r t' ⟨hfinish, ht'⟩
        refine ⟨?_, ht'⟩
        have hpage := Outlook.pages_of_faultIn hfault
        rw [Outlook.finish_of_ok h hfault, Outlook.movePiece_toUser hpage rfl]
        rw [← hwritten] at hfinish
        exact hfinish
  · rw [writePieces_of_le (Nat.le_of_not_lt h)]
    exact ensures_pure.2 ⟨Outlook.finish_of_le (Nat.le_of_not_lt h), ht⟩
  termination_by data.size - done

/-- A request of a thread, carried out as one operation, is answered from the outlook. -/
theorem ensures_perform_request (pid : Nat) (r : ThreadRequest) (t : Traced)
    (ht : t.pager.Sound) :
    Ensures (Pager.perform (r.op pid)) (fun a t' =>
      t.pager.outlook.request pid r = (a, t'.pager.outlook) ∧ t'.pager.Sound) t := by
  cases r with
  | declare page writable =>
    simp only [ThreadRequest.op, Pager.perform, Pager.tryDeclareZero, ensures_bind, ensures_pure]
    refine (follows_tryDeclare pid page .zero writable t ht).mono ?_
    rintro added t' ⟨hseen, ht'⟩
    rw [Outlook.request, Option.some.inj hseen]
    exact ⟨rfl, ht'⟩
  | fault addr esp =>
    simp only [ThreadRequest.op, Pager.perform, ensures_bind, ensures_pure]
    refine (follows_pageFault pid addr esp t ht).mono ?_
    rintro result t' ⟨hseen, ht'⟩
    obtain ⟨rfl, hsame⟩ := Prod.mk.inj (Option.some.inj hseen)
    exact ⟨Prod.ext rfl hsame, ht'⟩
  | read start length esp =>
    have hrange : t.pager.outlook.layout.isUserRange start length
        = t.pager.config.isUserRange start length := rfl
    simp only [ThreadRequest.op, Pager.perform, Pager.copyFromUser, ensures_bind, ensures_pager,
      ensures_ite, ensures_lift, ensures_pure, Outlook.request, Outlook.copy, hrange]
    constructor
    · intro huser _ _
      rw [if_pos huser]
      exact ensures_readPieces_finish pid start length esp 0 #[] t ht
    · intro hkernel
      rw [if_neg hkernel]
      exact ⟨rfl, ht⟩
  | write start data esp =>
    have hrange : t.pager.outlook.layout.isUserRange start data.size
        = t.pager.config.isUserRange start data.size := rfl
    simp only [ThreadRequest.op, Pager.perform, Pager.copyToUser, ensures_bind, ensures_pager,
      ensures_ite, ensures_pure, Outlook.request, Outlook.copy, hrange]
    constructor
    · intro huser
      rw [if_pos huser]
      exact ensures_writePieces_finish pid start data esp 0 t ht
    · intro hkernel
      rw [if_neg hkernel]
      exact ⟨rfl, ht⟩
  | destroy =>
    simp only [ThreadRequest.op, Pager.perform, ensures_bind, ensures_pure]
    refine (follows_destroy pid t ht).mono ?_
    rintro _ t' ⟨hseen, ht'⟩
    exact ⟨Prod.ext rfl (Prod.mk.inj (Option.some.inj hseen)).2, ht'⟩

/-- So are requests that are carried out one after the other. -/
theorem ensures_run_answers (pid : Nat) (requests : List ThreadRequest) (t : Traced)
    (ht : t.pager.Sound) :
    Ensures (Pager.run (requests.map (ThreadRequest.op pid)))
      (fun answers _ => answers = t.pager.outlook.answers pid requests) t := by
  induction requests generalizing t with
  | nil => exact ensures_pure.2 rfl
  | cons r rest ih =>
    rw [List.map_cons, Pager.run]
    simp only [ensures_bind, ensures_pure]
    refine (ensures_perform_request pid r t ht).mono ?_
    rintro a t₁ ⟨hseen, ht₁⟩
    refine (ih t₁ ht₁).mono fun answers t' hrest => ?_
    rw [Outlook.answers, hseen, hrest]

end PagerM

end DemandPaging
