import DemandPaging.Block.Run
import DemandPaging.Proofs.Contents
import DemandPaging.Proofs.Histories
import DemandPaging.Proofs.Outcomes

/-!
# The accounts of a block device

A block device in front of a disk in memory is simple to describe from outside. Whether a transfer
goes through is a matter of the transfer, of the device's size and of its usage, and the first check
that fails says why not. A transfer that is refused changes nothing. One that goes through moves the
sector that was stored last, and the statistics count it.

The statistics are also what breaks the rule. A count is a 32-bit word and the sum is checked, so the
transfer that would bring one of the two counts to `2 ^ 32` stops the system, although it passes all
the checks and the disk has carried it out. That is the only way for a run to panic, and since the
checks do not look at the state it is decided by the list of transfers alone.

## Main definitions

* `Block.Request.refusal?` — the first check that a transfer fails.
* `Block.lastStored`, `Block.Request.reply` — what the history says of a sector and of a reply.
* `Block.Accounts` — what a caller may rely on after a run.

## Main results

* `Block.Accounts.step` — the accounts are kept by one more transfer.
* `Block.accounts_or_overflows` — a run keeps the accounts or has one transfer too many for them.
* `Block.read_panics_after_reads` — one sector, read `2 ^ 32` times.
-/

namespace DemandPaging

theorem checkedAdd_eq_ite (width a b : Nat) :
    checkedAdd width a b = if a + b < 2 ^ width then .ok (a + b) else .error .arithmetic := rfl

namespace Block

variable {b b' : Block} {usage : BlockUsage} {size : Nat} {request : Request} {history : List Event}

/-! ### Checks -/

/-- The sector that a transfer moves. -/
def Request.sector : Request → Nat
  | .read sector _ | .write sector _ => sector

/-- The caller's buffer. -/
def Request.buffer : Request → Bytes
  | .read _ buffer | .write _ buffer => buffer

/-- Whether a transfer goes from the disk to the caller. -/
def Request.isRead : Request → Bool
  | .read .. => true
  | .write .. => false

/-- The checks on a transfer in their order, each with the error for which it stands. -/
def Request.checks (usage : BlockUsage) (size : Nat) (request : Request) :
    List (Bool × BlockError) :=
  [(decide (request.sector < size), .sectorOutOfBounds),
    (decide (request.buffer.size = sectorSize), .bufferInvalid),
    (request.isRead || decide (usage = .swap), .readOnly)]

/-- The error of the first check that a transfer fails. -/
def Request.refusal? (usage : BlockUsage) (size : Nat) (request : Request) : Option BlockError :=
  ((request.checks usage size).find? fun check => !check.1).map Prod.snd

theorem Request.refusal?_eq (usage : BlockUsage) (size : Nat) (request : Request) :
    request.refusal? usage size =
      if size ≤ request.sector then some .sectorOutOfBounds
      else if request.buffer.size ≠ sectorSize then some .bufferInvalid
      else if request.isRead = false ∧ usage = .foreign then some .readOnly
      else none := by
  rw [refusal?, checks]
  by_cases hsector : size ≤ request.sector
  · have := Nat.not_lt.2 hsector
    simp [hsector, this]
  have hlt := Nat.lt_of_not_le hsector
  by_cases hbuffer : request.buffer.size = sectorSize
  · cases hread : request.isRead <;> cases usage <;> simp [hlt, hsector, hbuffer]
  · simp [hlt, hsector, hbuffer]

/-- A transfer passes all checks if its sector exists, its buffer has the length of a sector and it
does not write to a device of another system. -/
theorem Request.refusal?_eq_none : request.refusal? usage size = none ↔
    request.sector < size ∧ request.buffer.size = sectorSize ∧
      (request.isRead = false → usage = .swap) := by
  rw [refusal?_eq]
  by_cases hsector : size ≤ request.sector
  · simp [hsector, Nat.not_lt.2 hsector]
  · by_cases hbuffer : request.buffer.size = sectorSize <;>
      cases usage <;> simp [hsector, hbuffer, Nat.lt_of_not_le hsector]

/-! ### What a history says -/

/-- The bytes that a transfer would put into `sector`. -/
def Request.put? (request : Request) (sector : Nat) : Option Bytes :=
  match request with
  | .read .. => none
  | .write i buffer => if i = sector then some buffer else none

/-- The bytes that a transfer did put into `sector`. -/
def Event.put? (e : Event) (sector : Nat) : Option Bytes :=
  match e.reply.status with
  | .ok () => e.request.put? sector
  | .error _ => none

/-- The bytes that were last stored in a sector, zeros if none ever were. -/
def lastStored (history : List Event) (sector : Nat) : Bytes :=
  (History.last? (·.put? sector) history).getD Sector.zero.toArray

/-- The reply to a transfer after `history`. -/
def Request.reply (usage : BlockUsage) (size : Nat) (history : List Event) (request : Request) :
    Reply :=
  match request.refusal? usage size with
  | some e => ⟨.error e, request.buffer⟩
  | none =>
    ⟨.ok (), if request.isRead then lastStored history request.sector else request.buffer⟩

/-- Whether a transfer is one of the reads that went through, or one of the writes. -/
def Event.counts (read : Bool) (e : Event) : Bool := e.request.isRead == read && e.reply.status.isOk

/-- The number of reads that went through, or of writes. -/
def transfers (read : Bool) (history : List Event) : Nat := history.countP (·.counts read)

/-- The statistics, by the kind of transfer. -/
def count (b : Block) (read : Bool) : Nat := if read then b.reads else b.writes

theorem lastStored_concat (history : List Event) (e : Event) (sector : Nat) :
    lastStored (history ++ [e]) sector = (e.put? sector).getD (lastStored history sector) := by
  rw [lastStored, History.last?_concat]
  cases e.put? sector <;> rfl

theorem transfers_concat (read : Bool) (history : List Event) (e : Event) :
    transfers read (history ++ [e]) = transfers read history + if e.counts read then 1 else 0 := by
  rw [transfers, List.countP_append, List.countP_singleton, transfers]

/-! ### One transfer -/

/-- A transfer that is refused changes neither the device nor the caller's buffer. -/
theorem serve_of_refusal {e : BlockError} (h : request.refusal? b.usage b.size = some e) :
    b.serve request = .ok (⟨.error e, request.buffer⟩, b) := by
  rw [Request.refusal?_eq] at h
  cases request with
  | read sector buffer =>
    simp only [Request.sector, Request.buffer, Request.isRead, Bool.true_eq_false, false_and,
      if_false] at h ⊢
    rw [serve, read]
    split at h
    case isTrue hsector =>
      cases h
      rw [if_pos hsector]
      rfl
    case isFalse hsector =>
      rw [if_neg hsector]
      split at h
      case isTrue hbuffer =>
        cases h
        rw [if_pos hbuffer]
        rfl
      case isFalse => cases h
  | write sector buffer =>
    simp only [Request.sector, Request.buffer, Request.isRead, true_and] at h ⊢
    rw [serve, write]
    split at h
    case isTrue hsector =>
      cases h
      rw [if_pos hsector]
      rfl
    case isFalse hsector =>
      rw [if_neg hsector]
      split at h
      case isTrue hbuffer =>
        cases h
        rw [if_pos hbuffer]
        rfl
      case isFalse hbuffer =>
        rw [if_neg hbuffer]
        split at h
        case isTrue husage =>
          cases h
          rw [if_pos husage]
          rfl
        case isFalse => cases h

section Ram

variable {disk : RamDisk} (sector : Nat) (buffer : Bytes) (s : Sector)

theorem serve_read (hdevice : b.device = .ram disk) (hsectors : disk.sectors = b.size)
    (hsector : sector < b.size) (hbuffer : buffer.size = sectorSize) :
    b.serve (.read sector buffer) = if b.reads + 1 < 2 ^ 32 then
      .ok (⟨.ok (), (disk.contents sector).toArray⟩, { b with reads := b.reads + 1 })
      else .error .arithmetic := by
  have hread : b.device.read sector buffer.size = .ok (.ok (disk.contents sector)) := by
    rw [hdevice, Device.read, RamDisk.read, if_neg (by omega), if_pos hbuffer]
  rw [serve, read, if_neg (by omega), if_neg (not_not.2 hbuffer), hread]
  simp only [except_ok_bind]
  rw [checkedAdd_eq_ite]
  split <;> rfl

theorem serve_write (hdevice : b.device = .ram disk) (hsectors : disk.sectors = b.size)
    (hsector : sector < b.size) (husage : b.usage = .swap) :
    b.serve (.write sector s.toArray) = if b.writes + 1 < 2 ^ 32 then
      .ok (⟨.ok (), s.toArray⟩, { b with
        device := .ram { disk with written := disk.written.insert sector s }
        writes := b.writes + 1 })
      else .error .arithmetic := by
  have hwrite : b.device.write sector s.toArray
      = .ok (.ok (.ram { disk with written := disk.written.insert sector s })) := by
    rw [hdevice, Device.write, RamDisk.write, if_neg (by omega)]
    simp [Sector.ofBytes?, Except.map]
  rw [serve, write, if_neg (by omega), if_neg (by simp), if_neg (by simp [husage]), hwrite]
  simp only [except_ok_bind]
  rw [checkedAdd_eq_ite]
  split <;> rfl

end Ram

/-- `b'` is `b` after a transfer has been carried out and counted. -/
structure Moved (request : Request) (b b' : Block) : Prop where
  usage_eq : b'.usage = b.usage
  size_eq : b'.size = b.size
  ram : ∃ disk, b'.device = .ram disk ∧ disk.sectors = b'.size
  contents : ∀ sector, (b'.device.contents sector).toArray =
    (request.put? sector).getD (b.device.contents sector).toArray
  counts : ∀ read, b'.count read = b.count read + if request.isRead = read then 1 else 0

/-- A transfer that passes all checks is carried out by a disk in memory, and then it is counted,
which is the only thing that can fail. -/
theorem serve_of_passes (hram : ∃ disk, b.device = .ram disk ∧ disk.sectors = b.size)
    (h : request.refusal? b.usage b.size = none) : ∃ b', Moved request b b' ∧ b.serve request =
      if b.count request.isRead + 1 < 2 ^ 32 then
        .ok (⟨.ok (), if request.isRead then (b.device.contents request.sector).toArray
          else request.buffer⟩, b')
      else .error .arithmetic := by
  obtain ⟨disk, hdevice, hsectors⟩ := hram
  obtain ⟨hsector, hbuffer, husage⟩ := Request.refusal?_eq_none.1 h
  cases request with
  | read sector buffer =>
    refine ⟨{ b with reads := b.reads + 1 }, ⟨rfl, rfl, ⟨disk, hdevice, hsectors⟩, ?_, ?_⟩, ?_⟩
    · exact fun _ => rfl
    · rintro (_ | _) <;> simp [count, Request.isRead]
    · simpa [Request.isRead, Request.sector, count, hdevice, Device.contents] using
        serve_read sector buffer hdevice hsectors hsector hbuffer
  | write sector buffer =>
    refine ⟨{ b with
      device := .ram { disk with written := disk.written.insert sector ⟨buffer, hbuffer⟩ }
      writes := b.writes + 1 }, ⟨rfl, rfl, ⟨_, rfl, hsectors⟩, ?_, ?_⟩, ?_⟩
    · intro i
      simp only [Device.contents, RamDisk.contents_insert, hdevice, Request.put?]
      split <;> rfl
    · rintro (_ | _) <;> simp [count, Request.isRead]
    · exact serve_write sector ⟨buffer, hbuffer⟩ hdevice hsectors hsector (husage rfl)

/-! ### Runs -/

/-- What a caller may rely on after a run of transfers on a disk that was blank at first. -/
structure Accounts (usage : BlockUsage) (size : Nat) (history : List Event) (b : Block) : Prop where
  usage_eq : b.usage = usage
  size_eq : b.size = size
  ram : ∃ disk, b.device = .ram disk ∧ disk.sectors = b.size
  /-- Each transfer got the reply that the history before it asks for. -/
  replies : History.Throughout (fun earlier e => e.reply = e.request.reply usage size earlier)
    history
  contents : ∀ sector, (b.device.contents sector).toArray = lastStored history sector
  counts : ∀ read, b.count read = transfers read history
  fits : ∀ read, b.count read < 2 ^ 32

/-- The number of reads, or of writes, that pass the checks. -/
def passing (usage : BlockUsage) (size : Nat) (read : Bool) (requests : List Request) : Nat :=
  requests.countP fun request => request.isRead == read && (request.refusal? usage size).isNone

theorem Request.counts_reply (usage : BlockUsage) (size : Nat) (read : Bool) (history : List Event)
    (request : Request) : (⟨request, request.reply usage size history⟩ : Event).counts read =
      (request.isRead == read && (request.refusal? usage size).isNone) := by
  rw [Event.counts, Request.reply]
  cases request.refusal? usage size <;> rfl

namespace Accounts

theorem attach (name : String) (usage : BlockUsage) (sectors : Nat) :
    Accounts usage sectors [] (attach usage name (.ram (.blank sectors))) where
  usage_eq := rfl
  size_eq := rfl
  ram := ⟨_, rfl, rfl⟩
  replies := History.throughout_nil
  contents sector := by simp [Block.attach, Device.contents, lastStored, History.last?]
  counts read := by cases read <;> rfl
  fits read := by cases read <;> simp [Block.attach, count]

/-- The accounts after one more transfer, from what the transfer did to the device. -/
theorem concat (h : Accounts usage size history b) (request : Request) (husage : b'.usage = usage)
    (hsize : b'.size = size) (hram : ∃ disk, b'.device = .ram disk ∧ disk.sectors = b'.size)
    (hcontents : ∀ sector, (b'.device.contents sector).toArray =
      ((⟨request, request.reply usage size history⟩ : Event).put? sector).getD
        (b.device.contents sector).toArray)
    (hcounts : ∀ read, b'.count read = b.count read +
      if request.isRead == read && (request.refusal? usage size).isNone then 1 else 0)
    (hfits : ∀ read, b'.count read < 2 ^ 32) :
    Accounts usage size (history ++ [⟨request, request.reply usage size history⟩]) b' where
  usage_eq := husage
  size_eq := hsize
  ram := hram
  replies := h.replies.concat rfl
  contents sector := by rw [hcontents, lastStored_concat, h.contents]
  counts read := by rw [hcounts, transfers_concat, h.counts, Request.counts_reply]
  fits := hfits

/-- One more transfer keeps the accounts, or it is one too many of its kind. -/
theorem step (h : Accounts usage size history b) (request : Request) :
    (∃ b', b.serve request = .ok (request.reply usage size history, b') ∧
      Accounts usage size (history ++ [⟨request, request.reply usage size history⟩]) b') ∨
    (b.serve request = .error .arithmetic ∧ request.refusal? usage size = none ∧
      2 ^ 32 ≤ transfers request.isRead history + 1) := by
  rcases hrefusal : request.refusal? usage size with _ | e
  case none =>
    have hpasses : request.refusal? b.usage b.size = none := by rw [h.usage_eq, h.size_eq, hrefusal]
    obtain ⟨b', hmoved, hserve⟩ := serve_of_passes h.ram hpasses
    by_cases hfits : b.count request.isRead + 1 < 2 ^ 32
    · refine .inl ⟨b', ?_, h.concat request (hmoved.usage_eq.trans h.usage_eq)
        (hmoved.size_eq.trans h.size_eq) hmoved.ram (fun i => ?_) (fun read => ?_)
        (fun read => ?_)⟩
      · rw [hserve, if_pos hfits, h.contents, Request.reply, hrefusal]
      · rw [hmoved.contents, Request.reply, hrefusal, Event.put?]
      · rw [hmoved.counts]
        simp [hrefusal]
      · rw [hmoved.counts]
        split
        case isTrue heq => rwa [← heq]
        case isFalse => exact h.fits read
    · refine .inr ⟨by rw [hserve, if_neg hfits], rfl, ?_⟩
      rw [← h.counts]
      omega
  case some =>
    have hrefused : request.refusal? b.usage b.size = some e := by
      rw [h.usage_eq, h.size_eq, hrefusal]
    have hreply : request.reply usage size history = ⟨.error e, request.buffer⟩ := by
      rw [Request.reply, hrefusal]
    refine .inl ⟨b, ?_, h.concat request h.usage_eq h.size_eq h.ram (fun i => ?_) (fun read => ?_)
      h.fits⟩
    · rw [serve_of_refusal hrefused, hreply]
    · rw [hreply]
      rfl
    · simp [hrefusal]

/-- A transfer went through exactly if it passes the checks. -/
theorem status_eq_ok_iff (h : Accounts usage size history b) {e : Event} (he : e ∈ history) :
    e.reply.status = .ok () ↔ e.request.sector < size ∧ e.request.buffer.size = sectorSize ∧
      (e.request.isRead = false → usage = .swap) := by
  obtain ⟨earlier, hreply⟩ := h.replies.of_mem he
  rw [← Request.refusal?_eq_none, hreply, Request.reply]
  cases e.request.refusal? usage size <;> simp

/-- The transfers that the statistics count are those that pass the checks. -/
theorem transfers_eq (h : Accounts usage size history b) (read : Bool) :
    transfers read history = passing usage size read (history.map Event.request) := by
  rw [transfers, passing, List.countP_map]
  refine List.countP_congr fun e he => ?_
  obtain ⟨earlier, hreply⟩ := h.replies.of_mem he
  have he : e = ⟨e.request, e.request.reply usage size earlier⟩ := by rw [← hreply]
  rw [he, Request.counts_reply]
  rfl

/-- The run goes on with accounts, or it stops at a transfer that is one too many of its kind. -/
theorem run (h : Accounts usage size history b) (requests : List Request) :
    (∃ events b', Block.run requests b = .ok (events, b') ∧
      events.map Event.request = requests ∧ Accounts usage size (history ++ events) b') ∨
    (Block.run requests b = .error .arithmetic ∧
      ∃ read, 2 ^ 32 ≤ transfers read history + passing usage size read requests) := by
  induction requests generalizing history b with
  | nil => exact .inl ⟨[], b, rfl, rfl, by rwa [List.append_nil]⟩
  | cons request rest ih =>
    rw [Block.run]
    rcases h.step request with ⟨b₁, hserve, h₁⟩ | ⟨hserve, hpasses, hfull⟩
    · rw [hserve]
      simp only [except_ok_bind]
      rcases ih h₁ with ⟨events, b₂, hrun, hrequests, h₂⟩ | ⟨hrun, read, hfull⟩
      · refine .inl ⟨_, b₂, by rw [hrun]; rfl, by rw [List.map_cons, hrequests], ?_⟩
        rwa [List.append_assoc] at h₂
      · refine .inr ⟨by rw [hrun]; rfl, read, ?_⟩
        rw [transfers_concat, Request.counts_reply] at hfull
        rw [passing, List.countP_cons, ← passing]
        omega
    · refine .inr ⟨by rw [hserve]; rfl, request.isRead, ?_⟩
      rw [passing, List.countP_cons, if_pos (by simp [hpasses])]
      omega

end Accounts

/-- A run of transfers on a blank disk of any size and usage keeps its accounts, whatever was
refused on the way, unless more transfers of one kind pass the checks than 32 bits can count; then
the statistics stop it. -/
theorem accounts_or_overflows (name : String) (usage : BlockUsage) (sectors : Nat)
    (requests : List Request) :
    (∃ history b, run requests (attach usage name (.ram (.blank sectors))) = .ok (history, b) ∧
      history.map Event.request = requests ∧ Accounts usage sectors history b ∧
      (∀ e ∈ history, e.reply.status = .ok () ↔
        e.request.sector < sectors ∧ e.request.buffer.size = sectorSize ∧
          (e.request.isRead = false → usage = .swap)) ∧
      (∀ request e, request.refusal? usage sectors = some e →
        b.serve request = .ok (⟨.error e, request.buffer⟩, b)) ∧
      ∀ read, passing usage sectors read requests < 2 ^ 32) ∨
    (run requests (attach usage name (.ram (.blank sectors))) = .error .arithmetic ∧
      ∃ read, 2 ^ 32 ≤ passing usage sectors read requests) := by
  rcases (Accounts.attach name usage sectors).run requests with
    ⟨history, b, hrun, hrequests, h⟩ | ⟨hrun, read, hfull⟩
  · rw [List.nil_append] at h
    refine .inl ⟨history, b, hrun, hrequests, h, fun e he => h.status_eq_ok_iff he,
      fun request e hrefusal => ?_, fun read => ?_⟩
    · exact serve_of_refusal (by rw [h.usage_eq, h.size_eq, hrefusal])
    · rw [← hrequests, ← h.transfers_eq, ← h.counts]
      exact h.fits read
  · exact .inr ⟨hrun, read, by simpa [transfers] using hfull⟩

theorem passing_replicate (read : Bool) (n : Nat) (hpasses : request.refusal? usage size = none) :
    passing usage size read (List.replicate n request) =
      if request.isRead = read then n else 0 := by
  rw [passing, List.countP_replicate, hpasses]
  cases request.isRead <;> cases read <;> rfl

/-- A transfer that passes the checks goes through `2 ^ 32 - 1` times on a blank disk, and the next
time it stops the system. -/
theorem panics_after_replicate (name : String) (hpasses : request.refusal? usage size = none) :
    ∃ history b, run (List.replicate (2 ^ 32 - 1) request)
        (attach usage name (.ram (.blank size))) = .ok (history, b) ∧
      (∀ e ∈ history, e.reply.status = .ok ()) ∧ b.serve request = .error .arithmetic := by
  -- the number stays a variable, since a list of that length must not be built
  obtain ⟨n, hn⟩ : ∃ n, n = 2 ^ 32 - 1 := ⟨_, rfl⟩
  rw [← hn]
  rcases (Accounts.attach name usage size).run (List.replicate n request) with
    ⟨history, b, hrun, hrequests, h⟩ | ⟨-, read, hfull⟩
  · rw [List.nil_append] at h
    refine ⟨history, b, hrun, fun e he => ?_, ?_⟩
    · have heq : e.request = request :=
        List.eq_of_mem_replicate (hrequests ▸ List.mem_map_of_mem he)
      exact (h.status_eq_ok_iff he).2 (Request.refusal?_eq_none.1 (heq ▸ hpasses))
    · rcases h.step request with ⟨b', -, h'⟩ | ⟨hserve, -⟩
      · have hfits := h'.fits request.isRead
        rw [h'.counts, transfers_concat, Request.counts_reply, h.transfers_eq, hrequests,
          passing_replicate _ _ hpasses, hpasses] at hfits
        simp only [beq_self_eq_true, Option.isNone_none, Bool.and_self, if_true] at hfits
        omega
      · exact hserve
  · rw [passing_replicate _ _ hpasses, transfers, List.countP_nil] at hfull
    split at hfull <;> omega

/-- The only sector of a disk can be read `2 ^ 32 - 1` times, but not once more. -/
theorem read_panics_after_reads :
    (Request.read 0 (Array.replicate 512 0)).refusal? .swap 1 = none ∧
    ∃ history b, run (List.replicate (2 ^ 32 - 1) (.read 0 (Array.replicate 512 0)))
        (attach .swap "ram" (.ram (.blank 1))) = .ok (history, b) ∧
      (∀ e ∈ history, e.reply.status = .ok ()) ∧
      b.serve (.read 0 (Array.replicate 512 0)) = .error .arithmetic :=
  have hpasses : (Request.read 0 (Array.replicate 512 0)).refusal? .swap 1 = none := by
    simp [Request.refusal?_eq_none, Request.sector, Request.buffer, sectorSize]
  ⟨hpasses, panics_after_replicate "ram" hpasses⟩

end Block

end DemandPaging
