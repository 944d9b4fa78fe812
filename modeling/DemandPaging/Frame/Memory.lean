import DemandPaging.Bytes.Basic

/-!
# The memory of the user frames

The frames lie one behind the other in physical memory from `poolBase` on.

## Main definitions

* `FrameMemory`, `FrameMemory.reserve` — the contents of the frames.
* `FrameMemory.address`, `FrameMemory.frameAt?` — frame numbers and physical addresses.
* `FrameMemory.contents`, `FrameMemory.setContents` — one frame's bytes.
-/

namespace DemandPaging

/-- The physical address of a frame. The address is formed in 64 bits, for any frame number. -/
def frameAddress (frame : Nat) : Except Panic Nat := do
  checkedAdd 64 poolBase (← checkedMul 64 frame pageSize)

/-- The contents of the user frames. -/
structure FrameMemory where
  frames : Array Page

namespace FrameMemory

/-- The memory of `frames` frames, all zeros. -/
def ofSize (frames : Nat) : FrameMemory := ⟨Array.replicate frames Page.zero⟩

/-- Memory for `frames` frames, as long as they fit in one buffer. -/
def reserve (frames : Nat) : Except Panic FrameMemory := do
  checkBuffer frames pageSize
  return ofSize frames

/-- The number of frames. -/
def size (m : FrameMemory) : Nat := m.frames.size

/-- The frame whose memory holds the physical address. -/
def frameAt? (m : FrameMemory) (addr : Nat) : Option Nat :=
  if addr < poolBase then none
  else
    let frame := (addr - poolBase) / pageSize
    if frame < m.size then some frame else none

/-- The bytes of a frame. -/
def contents (m : FrameMemory) (frame : Nat) : Except Panic Page :=
  match m.frames[frame]? with
  | some page => .ok page
  | none => .error .bounds

/-- Replaces the bytes of a frame. -/
def setContents (m : FrameMemory) (frame : Nat) (page : Page) : Except Panic FrameMemory :=
  if frame < m.size then .ok ⟨m.frames.setIfInBounds frame page⟩ else .error .bounds

end FrameMemory

end DemandPaging
