import DemandPaging.Address.Run
import DemandPaging.Pager.Basic

/-!
# Mapping files

A mapping reopens the file it is made from, so it outlives the handle it was made through, and
declares one page per page of file. Nothing is read until a page is first touched. A request that
finds a page of its range in use takes back the pages it has declared, and with them the handle:
nothing refers to it any more, so its number is still free.

## Main definitions

* `PageMap.declareMapped`, `PageMap.removeRun` — declaring a mapping's pages and taking them back.
* `Pager.mapFile`, `Pager.unmapFile` — the requests.
* `PagerM.releaseEntry`, `PagerM.unmapPages` — giving back what pages hold.
-/

namespace DemandPaging

namespace PageMap

/-- Declares `count` pages from `page` on as the pages of mapping `id` from its page `i` on. Stops
at a page that is in use already and answers it. -/
def declareMapped (id : Nat) (file : Handle) (page i : Nat) :
    (count : Nat) → PageMap → Except Panic (Option Nat × PageMap)
  | 0, m => return (none, m)
  | count + 1, m => do
    let (added, m) ← m.tryDeclare page (.mapped id file (i * pageSize)) true
    if added then declareMapped id file (page + pageSize) (i + 1) count m
    else return (some page, m)

/-- Detaches `count` pages from `page` on. -/
def removeRun (page : Nat) : (count : Nat) → PageMap → PageMap
  | 0, m => m
  | count + 1, m => removeRun (page + pageSize) count (m.remove page).2

end PageMap

namespace PagerM

/-- Gives back what a detached page holds: its frame and its translation if it is resident, its
swap slot if it is in swap. -/
def releaseEntry (page : Nat) (entry : PageEntry) (space : AddressSpace) : PagerM AddressSpace := do
  match entry.residency with
  | .resident frame =>
    let space ← space.clearPage page
    releaseFrame frame
    return space
  | .swapped slot =>
    setSwap (← (← pager).swap.release slot)
    return space
  | .notPopulated => return space

/-- Whether a page belongs to a mapping. -/
def belongsTo (entry : PageEntry) (m : Mapping) : Bool :=
  match entry.source with
  | .mapped id file _ => id == m.id && file.sameOpening m.file
  | _ => false

/-- Detaches `count` pages of a mapping from `page` on from process `p` and gives back what they
hold. -/
def unmapPages (m : Mapping) (page : Nat) : (count : Nat) → Process → PagerM Process
  | 0, p => return p
  | count + 1, p => do
    let (found, pages) := p.pages.remove page
    match found with
    | none => unmapPages m (page + pageSize) count { p with pages }
    | some entry =>
      unless belongsTo entry m do throw .assertion
      let space ← releaseEntry page entry p.space
      unmapPages m (page + pageSize) count { p with pages, space }

end PagerM

namespace Pager

open PagerM

/-- Maps all of a file at `addr` in the memory of `pid` and answers the mapping's number. -/
def mapFile (pid : Nat) (file : Handle) (addr : Nat) : PagerM (Except MmapError Nat) := do
  if addr = 0 then return .error .nullAddress
  if pageOffset addr ≠ 0 then return .error .unaligned
  let length := file.file.length
  if length = 0 then return .error .emptyFile
  unless (← pager).config.isUserRange addr length do return .error .kernelAddress
  unless file.file.reopens do return .error .reopen
  let serial := (← pager).nextSerial
  let p ← process pid
  let id := p.mappings.nextId
  let m : Mapping := { id, file := { file with serial }, base := addr, length }
  match ← p.pages.declareMapped id m.file m.pages.first 0 m.pages.count with
  | (some page, pages) =>
    let declared := PageRun.spanning addr (page - addr)
    setProcess pid { p with pages := pages.removeRun declared.first declared.count }
    emit (.mappingOverlaps pid addr page)
    return .error .overlap
  | (none, pages) =>
    setProcess pid { p with pages, mappings := ← p.mappings.insert m }
    update ({ · with nextSerial := serial + 1 })
    emit (.fileMapped pid id addr length)
    return .ok id

/-- Removes mapping `id` and every page it covers. A number that `pid` does not hold is a bug in
the caller. -/
def unmapFile (pid id : Nat) : PagerM Unit := do
  let p ← process pid
  match p.mappings.remove id with
  | (none, _) => throw (.unknownMapping pid id)
  | (some m, mappings) =>
    setProcess pid (← unmapPages m m.pages.first m.pages.count { p with mappings })
    emit (.fileUnmapped pid id m.base)

end Pager

end DemandPaging
