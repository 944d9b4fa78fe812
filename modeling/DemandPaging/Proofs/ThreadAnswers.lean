import DemandPaging.Proofs.ThreadOutlook
import DemandPaging.Proofs.ThreadSteps

/-!
# What a thread is answered

A thread has been given some answers, and `PagerThread.expects` says what it will be answered yet
if its process is left alone, from the middle of a copy too. A step of the thread turns an answer
that it expects into one that it was given, so the two together stay as they are. A step of another
thread does not change what this one expects, since it touches the pages of another process.

## Main definitions

* `PagerThread.expects` — the answers that a thread has yet to get.
* `PagerThread.Holds` — the page that a thread has pinned is where it was.

## Main results

* `PagerThread.Takes.answers_append` — what a thread is answered in the end does not change.
* `PagerThread.Takes.alone_eq` — a step is not seen by another process.
* `PagerThread.Takes.ready` — a thread stays ready.
-/

namespace DemandPaging

namespace PagerThread

open Pager (Steps Owned Change)

variable {th th' : PagerThread} {p p' : Pager} {c : UserCopy} {v : Outlook} {pid : Nat}
  {rest : List ThreadRequest} {t : Traced}

/-! ### What is left to be answered -/

/-- What a thread is answered from the end of copy `c` on. -/
def expectsAfter (th : PagerThread) (v : Outlook) (c : UserCopy) : List Answer :=
  (v.finish th.pid c).1 :: (v.finish th.pid c).2.answers th.pid th.requests

/-- What a thread will be answered yet, as long as its process is left alone. -/
def expects (th : PagerThread) (v : Outlook) : List Answer :=
  match th.phase with
  | .between => v.answers th.pid th.requests
  | .pinning c => th.expectsAfter v c
  | .moving c _ => th.expectsAfter (v.movePiece th.pid c).2
      { c with direction := (v.movePiece th.pid c).1, done := c.done + c.piece.size }
  | .unpinning c _ => th.expectsAfter v { c with done := c.done + c.piece.size }

theorem expects_of_between (h : th.phase = .between) :
    th.expects v = v.answers th.pid th.requests := by
  rw [expects, h]

theorem expects_of_pinning (h : th.phase = .pinning c) : th.expects v = th.expectsAfter v c := by
  rw [expects, h]

theorem expects_of_moving {f : Nat} (h : th.phase = .moving c f) :
    th.expects v = th.expectsAfter (v.movePiece th.pid c).2
      { c with direction := (v.movePiece th.pid c).1, done := c.done + c.piece.size } := by
  rw [expects, h]

theorem expects_of_unpinning {f : Nat} (h : th.phase = .unpinning c f) :
    th.expects v = th.expectsAfter v { c with done := c.done + c.piece.size } := by
  rw [expects, h]

/-- A thread that goes on with a copy is answered as the copy ends. -/
theorem answers_continuing (th : PagerThread) (v : Outlook) (c : UserCopy) :
    (th.continuing c).answers ++ (th.continuing c).expects v
      = th.answers ++ th.expectsAfter v c := by
  unfold continuing
  split
  · rfl
  · rename_i hdone
    rw [expectsAfter, Outlook.finish_of_le (Nat.le_of_not_lt hdone)]
    exact List.append_assoc th.answers [c.answer] _

/-- A request that starts a copy makes the copy. -/
theorem request_of_copy {request : ThreadRequest} (h : request.copy? = some c) :
    v.request pid request = v.copy pid c := by
  cases request with
  | read => exact congrArg (v.copy pid) (Option.some.inj h)
  | write => exact congrArg (v.copy pid) (Option.some.inj h)
  | _ => simp [ThreadRequest.copy?] at h

/-! ### The page of a pin -/

/-- The page that a thread has pinned is in its frame. -/
def Holds (th : PagerThread) (p : Pager) : Prop :=
  ∀ a ∈ th.pin?, p.residency a.owner = some (.resident a.frame)

/-- Where the bytes of a piece are moved, the page is seen with what its frame holds. -/
theorem Holds.exists_pages {f : Nat} {page : Page} (h : th.Holds p)
    (hphase : th.phase = .moving c f) (held : p.memory.contents f = .ok page) :
    ∃ view, p.residency ⟨th.pid, pageFloor c.piece.addr⟩ = some (.resident f) ∧
      p.outlook.pages ⟨th.pid, pageFloor c.piece.addr⟩ = some view ∧
      view.contents = some page := by
  have hres := h ⟨f, ⟨th.pid, pageFloor c.piece.addr⟩⟩ (pin?_of_moving hphase)
  obtain ⟨view, hview⟩ := Pager.exists_pages_of_resident hres
  exact ⟨view, hres, hview, Pager.contents_of_resident hres hview held⟩

/-! ### A step and the answers -/

/-- A step turns what a thread expects into what it was answered. -/
theorem Takes.answers_append (h : th.Takes p th' p') (hp : p.Sound) (hready : th.Ready p)
    (hholds : th.Holds p) :
    th'.answers ++ th'.expects (p'.outlook.alone th.pid)
      = th.answers ++ th.expects (p.outlook.alone th.pid) := by
  have hstarted : ∀ {a : Answer} {v' : Outlook} {r : ThreadRequest} {rest : List ThreadRequest},
      th.phase = .between → th.requests = r :: rest →
      (p.outlook.alone th.pid).request th.pid r = (a, v') →
      ({ th with requests := rest }.answered a).answers
          ++ ({ th with requests := rest }.answered a).expects v'
        = th.answers ++ th.expects (p.outlook.alone th.pid) := by
    intro a v' r rest hphase hrequests hrequest
    rw [expects_of_between hphase, hrequests, Outlook.answers, hrequest]
    exact List.append_assoc th.answers [a] _
  cases h with
  | idle => rfl
  | declared phase requests steps seen =>
    refine hstarted phase requests ?_
    rw [Outlook.request, Outlook.declare_alone, seen]
  | @faulted addr esp rest r p' phase requests fault =>
    refine hstarted phase requests ?_
    obtain ⟨seen, hseen, hshows⟩ := fault.outlook hp
    rw [Outlook.request, Outlook.faultIn_alone, hseen]
    cases r with
    | error e => rw [hshows.of_error]; rfl
    | ok f =>
      obtain ⟨page, rfl, -⟩ := hshows.of_ok
      rfl
  | @begun request rest c phase requests copy user =>
    have huser : (p.outlook.alone th.pid).layout.isUserRange c.start c.length = true := user
    rw [answers_continuing, expects_of_between phase, requests, Outlook.answers,
      request_of_copy copy, Outlook.copy, if_pos huser]
    rfl
  | refused phase requests copy user =>
    have huser : (p.outlook.alone th.pid).layout.isUserRange _ _ = false := user
    refine hstarted phase requests ?_
    rw [request_of_copy copy, Outlook.copy, huser]
    rfl
  | destroyed phase requests steps processes seen =>
    have horderly := hready.orderly
    rw [requests] at horderly
    obtain rfl : _ = [] := horderly
    rw [expects_of_between phase, requests]
    exact List.append_assoc th.answers [.done] []
  | @failed c e p' phase fault =>
    obtain ⟨seen, hseen, hshows⟩ := fault.outlook hp
    rw [hshows.of_error] at hseen
    have hfault := Outlook.faultIn_alone p.outlook th.pid c.piece.addr c.esp c.writes
    rw [hseen] at hfault
    rw [expects_of_pinning phase, expectsAfter,
      Outlook.finish_of_error (hready.pending c phase) hfault]
    exact List.append_assoc th.answers [c.failure e] _
  | @pinned c f p₁ frames phase fault pin =>
    obtain ⟨seen, hseen, hshows⟩ := fault.outlook hp
    obtain ⟨page, rfl, -⟩ := hshows.of_ok
    have hfault := Outlook.faultIn_alone p.outlook th.pid c.piece.addr c.esp c.writes
    rw [hseen] at hfault
    rw [expects_of_pinning phase, expectsAfter,
      Outlook.finish_of_ok (hready.pending c phase) hfault]
    rfl
  | @read c f found page phase direction held =>
    obtain ⟨view, -, hview, hcontents⟩ := hholds.exists_pages phase held
    have halone := (Outlook.pages_alone p.outlook _ _).trans hview
    rw [expects_of_moving phase, Outlook.movePiece_fromUser halone direction, hcontents]
    rfl
  | @written c f data page memory phase direction held written =>
    obtain ⟨view, hres, hview, hcontents⟩ := hholds.exists_pages phase held
    have halone := (Outlook.pages_alone p.outlook _ _).trans hview
    rw [expects_of_moving phase, Outlook.movePiece_toUser halone direction, hcontents,
      Pager.outlook_of_write hp.owned hres hview written, Outlook.alone_setPage, ← direction]
    rfl
  | unpinned phase unpin =>
    rw [answers_continuing, expects_of_unpinning phase]
    rfl

/-! ### What a step changes -/

/-- A step changes pages of its own process only, or it is the last one and the process goes. -/
theorem Takes.touches (h : th.Takes p th' p') (hp : p.Sound) (hready : th.Ready p)
    (hholds : th.Holds p) :
    Outlook.Touches th.pid p.outlook p'.outlook ∨
      (p'.outlook = p.outlook.removeProcess th.pid ∧ th'.phase = .between ∧ th'.requests = []) := by
  cases h with
  | idle | begun | refused | read => exact .inl (.refl _)
  | @declared page writable added rest p' phase requests steps seen =>
    have htouches := Outlook.declare_touches p.outlook th.pid page .zero writable
    rw [seen] at htouches
    exact .inl htouches
  | faulted phase requests fault => exact .inl (fault.touches hp.owned hp.room)
  | destroyed phase requests steps processes seen =>
    have horderly := hready.orderly
    rw [requests] at horderly
    exact .inr ⟨seen, rfl, horderly⟩
  | failed phase fault => exact .inl (fault.touches hp.owned hp.room)
  | pinned phase fault pin =>
    have htouches := fault.touches hp.owned hp.room
    exact .inl htouches
  | @written c f data page memory phase direction held written =>
    obtain ⟨view, hres, hview, -⟩ := hholds.exists_pages phase held
    rw [Pager.outlook_of_write hp.owned hres hview written]
    exact .inl (.setPage _ _ _ _)
  | unpinned phase unpin => exact .inl (.refl _)

/-- Another process does not see the step. -/
theorem Takes.alone_eq (h : th.Takes p th' p') (hp : p.Sound) (hready : th.Ready p)
    (hholds : th.Holds p) (hpid : th.pid ≠ pid) :
    p'.outlook.alone pid = p.outlook.alone pid := by
  rcases h.touches hp hready hholds with htouches | ⟨hseen, -⟩
  · exact htouches.alone_eq hpid
  · rw [hseen, Outlook.alone_removeProcess_of_ne _ hpid]

theorem Takes.config_eq (h : th.Takes p th' p') (hp : p.Sound) : p'.config = p.config :=
  (h.steps.owned hp.owned).config_eq

theorem Takes.orderly (h : th.Takes p th' p') {config : Config}
    (horderly : ThreadRequest.Orderly config th.requests) :
    ThreadRequest.Orderly config th'.requests := by
  have hcopy : ∀ {r : ThreadRequest} {rest : List ThreadRequest} {c : UserCopy},
      th.requests = r :: rest → r.copy? = some c → ThreadRequest.Orderly config rest := by
    intro r rest c hrequests hcopy
    rw [hrequests] at horderly
    cases r with
    | read => exact horderly
    | write => exact horderly
    | _ => simp [ThreadRequest.copy?] at hcopy
  cases h with
  | idle | pinned | read | written | failed => exact horderly
  | declared phase requests =>
    rw [requests] at horderly
    exact horderly.2.2
  | faulted phase requests =>
    rw [requests] at horderly
    exact horderly
  | begun phase requests copy =>
    rw [requests_continuing]
    exact hcopy requests copy
  | refused phase requests copy => exact hcopy requests copy
  | destroyed phase requests =>
    rw [requests] at horderly
    obtain rfl : _ = [] := horderly
    exact trivial
  | unpinned =>
    rw [requests_continuing]
    exact horderly

theorem Takes.pending (h : th.Takes p th' p') (hready : th.Ready p)
    (hphase : th'.phase = .pinning c) : c.done < c.length := by
  have hcontinuing : ∀ {th : PagerThread} {c' : UserCopy}, (th.continuing c').phase = .pinning c →
      c.done < c.length := by
    intro th c' hphase
    unfold continuing at hphase
    split at hphase
    · rename_i hdone
      obtain rfl := CopyPhase.pinning.inj hphase
      exact hdone
    · cases hphase
  cases h with
  | idle => exact hready.pending c hphase
  | begun | unpinned => exact hcontinuing hphase
  | _ => cases hphase

/-- A thread stays ready when it steps. -/
theorem Takes.ready (h : th.Takes p th' p') (hp : p.Sound) (hready : th.Ready p)
    (hholds : th.Holds p) : th'.Ready p' where
  orderly := h.config_eq hp ▸ h.orderly hready.orderly
  registered := by
    rcases h.touches hp hready hholds with ⟨pages, hsame, -⟩ | ⟨-, hlast⟩
    · rw [h.pid_eq, hsame]
      rcases hready.registered with ⟨hphase, hrequests⟩ | hregistered
      · cases h with
        | idle => exact .inl ⟨hphase, hrequests⟩
        | declared _ requests | faulted _ requests | begun _ requests | refused _ requests
        | destroyed _ requests => simp [requests] at hrequests
        | failed phase | pinned phase | read phase | written phase | unpinned phase =>
          simp [phase] at hphase
      · exact .inr hregistered
    · exact .inl hlast
  pending c hphase := h.pending hready hphase

/-- A thread stays ready when the others step. -/
theorem Ready.congr (h : th.Ready p) (hconfig : p'.config = p.config)
    (halone : p'.outlook.alone th.pid = p.outlook.alone th.pid) : th.Ready p' where
  orderly := hconfig ▸ h.orderly
  registered := by
    have hmappings := congrArg (fun v => v.mappings th.pid) halone
    simp only [Outlook.alone, if_true] at hmappings
    rw [hmappings]
    exact h.registered
  pending := h.pending

end PagerThread

end DemandPaging
