import DemandPaging.Address.Basic

/-!
# Tunables of the pager

## Main definitions

* `Config` — the tunables; the defaults are the layout the kernel runs with.
* `Config.withMaxStack` — the one tunable that is checked when it is set.
* `Config.stackLimit`, `Config.isUser`, `Config.isStackAccess` — the rules they define.
-/

namespace DemandPaging

/-- The tunables of the pager. -/
structure Config where
  /-- The number of frames in the user pool. -/
  userFrames : Nat := defaultUserFrames
  /-- A bound on the number of swap slots; the device may lower it further. -/
  swapSlots : Nat := defaultSwapSlots
  /-- The first kernel address. User pages lie below it and the stack grows down from it. -/
  physBase : Nat := kernelBase
  /-- The size of the region the stack may grow into. -/
  maxStack : Nat := defaultMaxStack
  /-- How far below the stack pointer an access still counts as stack growth. -/
  stackSlack : Nat := defaultStackSlack
  /-- Install every page of an executable writable, whatever its segment says. -/
  writableImages : Bool := true
  deriving DecidableEq, Repr

namespace Config

/-- Sets the size of the stack region, which has to be a whole number of pages. -/
def withMaxStack (c : Config) (maxStack : Nat) : Except Panic Config :=
  if pageOffset maxStack = 0 then .ok { c with maxStack } else .error .assertion

/-- The lowest address the stack may grow down to. -/
def stackLimit (c : Config) : Except Panic Nat := checkedSub c.physBase c.maxStack

/-- Whether an address lies below the kernel. -/
def isUser (c : Config) (addr : Nat) : Bool := decide (addr < c.physBase)

/-- Whether `length` bytes at `start` lie entirely below the kernel. -/
def isUserRange (c : Config) (start length : Nat) : Bool :=
  (checkedEnd? start length).any fun limit => decide (limit ≤ c.physBase)

/-- Whether an access to `addr` with the stack pointer at `esp` looks like the stack growing: in
the stack region, and no lower than the slack below the pointer. -/
def isStackAccess (c : Config) (addr esp : Nat) : Except Panic Bool := do
  unless c.isUser addr do return false
  let limit ← c.stackLimit
  return decide (limit ≤ addr) && decide (esp ≤ saturatingAdd addr c.stackSlack)

end Config

end DemandPaging
