import DemandPaging.Pager.Mapping

/-!
# Processes and their pages

## Main definitions

* `Pager.register`, `Pager.destroy` — the life of a process.
* `Pager.tryDeclareZero`, `Pager.tryDeclareImage` and the versions without `try` — declaring
  pages. The versions without `try` treat a page that is declared already as a bug.
-/

namespace DemandPaging

namespace PagerM

/-- Declares a user page unless it is declared already, and answers whether it did. -/
def tryDeclare (pid page : Nat) (source : PageSource) (writable : Bool) : PagerM Bool := do
  unless (← pager).config.isUser page do throw (.declaringKernelPage pid page)
  let p ← process pid
  let (added, pages) ← p.pages.tryDeclare page source writable
  setProcess pid { p with pages }
  return added

/-- Unmaps every one of the mappings from process `p`. -/
def unmapAll : List Mapping → Process → PagerM Process
  | [], p => return p
  | m :: rest, p => do
    unmapAll rest (← unmapPages m m.pages.first m.pages.count p)

/-- Gives back what every one of the pages holds. -/
def releaseAll : List (Nat × PageEntry) → AddressSpace → PagerM AddressSpace
  | [], space => return space
  | (page, entry) :: rest, space => do
    releaseAll rest (← releaseEntry page entry space)

end PagerM

namespace Pager

open PagerM

/-- Starts tracking pages for `pid`. Registering a process twice is a bug in the caller. -/
def register (pid : Nat) : PagerM Unit := do
  if (← pager).processes.contains pid then throw (.registeredTwice pid)
  setProcess pid .fresh

/-- Declares a page that reads as zeros until it is written, unless the page is declared. -/
def tryDeclareZero (pid page : Nat) (writable : Bool) : PagerM Bool :=
  tryDeclare pid page .zero writable

/-- Declares a page that reads as zeros until it is written. -/
def declareZero (pid page : Nat) (writable : Bool) : PagerM Unit := do
  unless ← tryDeclareZero pid page writable do throw (.processPageDeclaredTwice pid page)

/-- Declares a page whose first `read` bytes come from `file` at `offset`, unless the page is
declared. The rest of the page is zero. -/
def tryDeclareImage (pid page : Nat) (file : Handle) (offset read : Nat) (writable : Bool) :
    PagerM Bool := do
  tryDeclare pid page (.image file offset read)
    (writable || (← pager).config.writableImages)

/-- Declares a page whose first `read` bytes come from `file` at `offset`. -/
def declareImage (pid page : Nat) (file : Handle) (offset read : Nat) (writable : Bool) :
    PagerM Unit := do
  unless ← tryDeclareImage pid page file offset read writable do
    throw (.processPageDeclaredTwice pid page)

/-- Tears down a process that exits. Its mappings go first, so their files are closed before
anything else of the process is given back. -/
def destroy (pid : Nat) : PagerM Unit := do
  let p ← process pid
  update fun s => { s with processes := s.processes.erase pid }
  let (mappings, table) := p.mappings.takeAll
  let p ← unmapAll mappings { p with mappings := table }
  let pages := p.pages.toList
  discard <| releaseAll pages p.space
  emit (.released pid pages.length)

/-- Gives the address space of `pid` a plan of which requests to install a page it refuses. -/
def refuseBy (pid : Nat) (refuses : Nat → Bool) : PagerM Unit :=
  update fun s =>
    { s with processes := s.processes.modify pid fun p =>
        { p with space := p.space.plan refuses } }

/-- Makes the address space of `pid` refuse every new page, or take them again. -/
def refuse (pid : Nat) (refusing : Bool) : PagerM Unit := refuseBy pid fun _ => refusing

/-- Makes every later read of a file fail, or work again. -/
def failReads (id : Nat) (on : Bool) : PagerM Unit :=
  update fun s => { s with failing := fun file => if file = id then on else s.failing file }

end Pager

end DemandPaging
