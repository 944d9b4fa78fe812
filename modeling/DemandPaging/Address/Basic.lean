import DemandPaging.Panic

/-!
# Addresses and pages

A page is 4096 bytes. The offset of an address is its place within its page, its floor the
address of that page. Both are total; the ceiling adds before it rounds and so can leave the
64-bit word.

## Main definitions

* `pageSize`, `pageOffset`, `pageFloor`, `pageCeil` — pages and rounding.
* `kernelBase`, `isUserAddress` — the default border between user and kernel.
* `saturatingAdd`, `checkedEnd?` — the two ways in which an end of a range is computed.

## Main results

* `pageFloor_add_pageOffset` — an address is its page plus its offset.
* `pageFloor_eq_iff` — the addresses on a page are one run of 4096.
-/

namespace DemandPaging

/-- A kilobyte. -/
def kilobyte : Nat := 1024

/-- A megabyte. -/
def megabyte : Nat := kilobyte * kilobyte

/-- The size of a page and of a frame in bytes. -/
def pageSize : Nat := 4096

/-- The first kernel address of the default layout; user stacks grow down from it. -/
def kernelBase : Nat := 0xC0000000

/-- The default bound on the region below the kernel that a stack may grow into. -/
def defaultMaxStack : Nat := 8 * megabyte

/-- The default distance below the stack pointer at which an access still counts as stack
growth: a push of all registers touches 32 bytes below the pointer before moving it. -/
def defaultStackSlack : Nat := 32

/-- The default number of frames in the user pool. -/
def defaultUserFrames : Nat := 256

/-- The default bound on the number of slots in the swap area. -/
def defaultSwapSlots : Nat := 8192

/-- The physical address of the first frame of the user pool. -/
def poolBase : Nat := 0x01000000

/-- The place of an address within its page. -/
def pageOffset (addr : Nat) : Nat := addr % pageSize

/-- The address of the page that contains `addr`. -/
def pageFloor (addr : Nat) : Nat := addr - addr % pageSize

/-- The least page boundary not below `addr`. The sum is formed in 64 bits before it is
rounded, so the last page of the address space has no ceiling. -/
def pageCeil (addr : Nat) : Except Panic Nat := do
  let past ← checkedAdd 64 addr pageSize
  return pageFloor (past - 1)

/-- Whether an address lies below the kernel in the default layout. -/
def isUserAddress (addr : Nat) : Bool := decide (addr < kernelBase)

/-- A sum that stops at the largest 64-bit number. -/
def saturatingAdd (a b : Nat) : Nat := min (a + b) (Nat.pow 2 64 - 1)

/-- The end of the range of `length` bytes at `start`, if it fits in 64 bits. -/
def checkedEnd? (start : Nat) (length : Nat) : Option Nat :=
  if start + length < Nat.pow 2 64 then some (start + length) else none

/-! ### Rounding -/

theorem pageOffset_lt (addr : Nat) : pageOffset addr < pageSize :=
  Nat.mod_lt _ (by decide)

theorem pageFloor_add_pageOffset (addr : Nat) : pageFloor addr + pageOffset addr = addr :=
  Nat.sub_add_cancel (Nat.mod_le addr pageSize)

theorem pageFloor_le (addr : Nat) : pageFloor addr ≤ addr := Nat.sub_le _ _

theorem pageFloor_eq_mul (addr : Nat) : pageFloor addr = pageSize * (addr / pageSize) := by
  have h : pageSize * (addr / pageSize) + addr % pageSize = addr := Nat.div_add_mod addr pageSize
  exact Nat.sub_eq_of_eq_add h.symm

@[simp] theorem pageOffset_pageFloor (addr : Nat) : pageOffset (pageFloor addr) = 0 := by
  rw [pageOffset, pageFloor_eq_mul, Nat.mul_mod_right]

@[simp] theorem pageFloor_pageFloor (addr : Nat) : pageFloor (pageFloor addr) = pageFloor addr := by
  have := pageFloor_add_pageOffset (pageFloor addr)
  rwa [pageOffset_pageFloor, Nat.add_zero] at this

theorem pageFloor_eq_iff {addr page : Nat} (h : pageOffset page = 0) :
    pageFloor addr = page ↔ page ≤ addr ∧ addr < page + pageSize := by
  simp only [pageOffset, pageFloor, pageSize] at *
  omega

end DemandPaging
