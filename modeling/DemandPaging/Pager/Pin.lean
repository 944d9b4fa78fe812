import DemandPaging.Address.Run
import DemandPaging.Pager.Fault

/-!
# Pinning user memory

A pin keeps the pages of a range resident while a device or a system call works on them. Every
page of the range is faulted in and pinned; if one cannot be, the pins taken so far are dropped
again. Pins are taken off by address: the frames that back the range at that moment lose one pin
each.

## Main definitions

* `PagerM.pinPages`, `Pager.pin` — pinning a range.
* `PagerM.unpinPages`, `Pager.unpin` — taking the pins off again.
* `PagerM.pinPage` — one page, for a copy.
-/

namespace DemandPaging

namespace PagerM

/-- Takes one pin off each of the frames. -/
def unpinFrames : List Nat → PagerM Unit
  | [] => pure ()
  | frame :: rest => do
    unpinFrame frame
    unpinFrames rest

/-- Faults in and pins `count` pages from `page` on, for an access that starts at `start`. The
frames in `pinned` were pinned before, oldest first, and are unpinned again if a page fails. -/
def pinPages (pid start esp : Nat) (forWrite : Bool) (page : Nat) :
    (count : Nat) → (pinned : List Nat) → PagerM (Except FaultError Unit)
  | 0, _ => return .ok ()
  | count + 1, pinned => do
    match ← faultIn pid (max page start) esp forWrite with
    | .error e =>
      unpinFrames pinned
      return .error e
    | .ok frame =>
      pinFrame frame
      pinPages pid start esp forWrite (page + pageSize) count (pinned ++ [frame])

/-- Takes one pin off the frame of each resident page among `count` pages from `page` on. -/
def unpinPages (pages : PageMap) (page : Nat) : (count : Nat) → PagerM Unit
  | 0 => return ()
  | count + 1 => do
    match (pages.lookup page).bind PageEntry.frame? with
    | some frame => unpinFrame frame
    | none => pure ()
    unpinPages pages (page + pageSize) count

/-- Faults in the page that covers `addr` and pins its frame. -/
def pinPage (pid addr esp : Nat) (forWrite : Bool) : PagerM (Except FaultError Nat) := do
  match ← faultIn pid addr esp forWrite with
  | .error e => return .error e
  | .ok frame =>
    pinFrame frame
    return .ok frame

end PagerM

namespace Pager

open PagerM

/-- Faults in every page of `size` bytes at `start` and pins them until `unpin`. On failure
nothing stays pinned. -/
def pin (pid start size esp : Nat) (forWrite : Bool) : PagerM (Except FaultError Unit) := do
  if size = 0 then return .ok ()
  unless (← pager).config.isUserRange start size do return .error .kernelAddress
  let run := PageRun.spanning start size
  pinPages pid start esp forWrite run.first run.count []

/-- Takes off the pins of a successful `pin` of the same range. -/
def unpin (pid start size : Nat) : PagerM Unit := do
  if size = 0 then return ()
  match (← pager).processes[pid]? with
  | none => return ()
  | some p =>
    let run := PageRun.spanning start size
    unpinPages p.pages run.first run.count

end Pager

end DemandPaging
