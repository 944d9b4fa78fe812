import DemandPaging.Block.Device

/-!
# Block devices

A block device puts a name, a usage and statistics around a driver and checks every transfer before
the driver sees it: the sector must exist, the buffer must be one sector long, and a device that
belongs to another system is never written. The statistics count successful transfers in 32 bits;
a count past that is a panic, not a wrap.

## Main definitions

* `BlockUsage`, `Block`, `Block.attach` — a device and what it is for.
* `Block.read`, `Block.write` — checked transfers.
* `Block.summary` — the one-line description of a device.
* `Block.Request`, `Block.serve` — transfers with the caller's buffer, as one step function.
-/

namespace DemandPaging

/-- What a block device is used for. -/
inductive BlockUsage
  | swap
  /-- The device belongs to another system. -/
  | foreign
  deriving DecidableEq, Repr

/-- The name of a usage. -/
def BlockUsage.label : BlockUsage → String
  | swap => "Swap"
  | foreign => "Foreign"

/-- A block device. -/
structure Block where
  name : String
  usage : BlockUsage
  device : Device
  /-- The capacity in sectors, as the driver reported it when the device was attached. -/
  size : Nat
  /-- Successful reads so far. -/
  reads : Nat
  /-- Successful writes so far. -/
  writes : Nat

namespace Block

/-- A device as it is found at boot. -/
def attach (usage : BlockUsage) (name : String) (device : Device) : Block where
  name := name
  usage := usage
  device := device
  size := device.sectors
  reads := 0
  writes := 0

/-- Reads a sector into a buffer of `length` bytes. -/
def read (b : Block) (sector length : Nat) :
    Except Panic (Except BlockError (Sector × Block)) := do
  if b.size ≤ sector then return .error .sectorOutOfBounds
  if length ≠ sectorSize then return .error .bufferInvalid
  match ← b.device.read sector length with
  | .error e => return .error e
  | .ok s => return .ok (s, { b with reads := ← checkedAdd 32 b.reads 1 })

/-- Writes a sector. -/
def write (b : Block) (sector : Nat) (data : Bytes) :
    Except Panic (Except BlockError Block) := do
  if b.size ≤ sector then return .error .sectorOutOfBounds
  if data.size ≠ sectorSize then return .error .bufferInvalid
  if b.usage = .foreign then return .error .readOnly
  match ← b.device.write sector data with
  | .error e => return .error e
  | .ok device => return .ok { b with device, writes := ← checkedAdd 32 b.writes 1 }

/-- Name, use, capacity and statistics on one line. -/
def summary (b : Block) : String :=
  s!"\"{b.name}\" ({b.usage.label}): {zeroPadded 4 b.size} sectors, " ++
    s!"{zeroPadded 4 b.reads} read, {zeroPadded 4 b.writes} write"

/-! ### Transfers as a step function -/

/-- A transfer together with the caller's buffer. -/
inductive Request
  | read (sector : Nat) (buffer : Bytes)
  | write (sector : Nat) (buffer : Bytes)

/-- The answer to a transfer: how it went, and the caller's buffer afterwards. -/
structure Reply where
  status : Except BlockError Unit
  buffer : Bytes

/-- Carries out one transfer. A failed transfer leaves device and buffer as they were. -/
def serve (b : Block) : Request → Except Panic (Reply × Block)
  | .read sector buffer => do
    match ← b.read sector buffer.size with
    | .error e => return (⟨.error e, buffer⟩, b)
    | .ok (s, b) => return (⟨.ok (), s.toArray⟩, b)
  | .write sector buffer => do
    match ← b.write sector buffer with
    | .error e => return (⟨.error e, buffer⟩, b)
    | .ok b => return (⟨.ok (), buffer⟩, b)

end Block

end DemandPaging
