import DemandPaging.Proofs.Outcomes
import DemandPaging.Proofs.SwapSlots

/-!
# Transfers that do not fail

A disk in memory that is attached for swapping takes every sector below its size. The one thing
that stops it is the count of its transfers, which has 32 bits: a page is eight transfers, so it
can be moved as long as the count has room for eight more.

## Main definitions

* `Block.Healthy` — a disk in memory, attached for swapping.

## Main results

* `Swap.counts_of_store`, `Swap.counts_of_fetch` — what a page moved adds to the counts.
* `Swap.exists_store`, `Swap.exists_fetch` — a page can be moved while the counts have room.
* `Swap.exists_fetch_again` — on any device, a page that was read can be read again.
-/

namespace DemandPaging

namespace Block

variable {b b' : Block} {sector length : Nat} {data : Bytes} {s : Sector}

/-- The device is a disk in memory that may be written and that has the sectors it was attached
with, as many as can be numbered in 32 bits. -/
structure Healthy (b : Block) : Prop where
  usage_eq : b.usage = .swap
  ram : ∃ disk, b.device = .ram disk ∧ disk.sectors = b.size
  size_le : b.size ≤ 2 ^ 32

theorem write_eq_ok (h : b.write sector data = .ok (.ok b')) :
    ∃ device, b.device.write sector data = .ok (.ok device) ∧
      b' = { b with device, writes := b.writes + 1 } := by
  simp only [Block.write, except_ite_eq_ok, except_bind_eq_ok, except_pure_eq_ok, reduceCtorEq,
    and_false, false_or] at h
  obtain ⟨-, -, -, result, hw, h⟩ := h
  cases result with
  | error e => simp at h
  | ok device =>
    simp only [except_bind_eq_ok, except_pure_eq_ok, checkedAdd_eq_ok, Except.ok.injEq] at h
    obtain ⟨_, ⟨-, rfl⟩, rfl⟩ := h
    exact ⟨device, hw, rfl⟩

theorem read_eq_ok (h : b.read sector length = .ok (.ok (s, b'))) :
    b' = { b with reads := b.reads + 1 } := by
  simp only [Block.read, except_ite_eq_ok, except_bind_eq_ok, except_pure_eq_ok, reduceCtorEq,
    and_false, false_or] at h
  obtain ⟨-, -, result, -, h⟩ := h
  cases result with
  | error e => simp at h
  | ok found =>
    simp only [except_bind_eq_ok, except_pure_eq_ok, checkedAdd_eq_ok, Except.ok.injEq,
      Prod.mk.injEq] at h
    obtain ⟨_, ⟨-, rfl⟩, -, rfl⟩ := h
    rfl

/-- Whether a sector can be read does not depend on how many were read before. -/
theorem read_of_reads {reads : Nat} (h : b.read sector length = .ok (.ok (s, b')))
    (hreads : reads + 1 < 2 ^ 32) :
    ({ b with reads } : Block).read sector length
      = .ok (.ok (s, { b with reads := reads + 1 })) := by
  simp only [Block.read, except_ite_eq_ok, except_bind_eq_ok, except_pure_eq_ok, reduceCtorEq,
    and_false, false_or] at h ⊢
  obtain ⟨hsector, hlength, result, hr, h⟩ := h
  refine ⟨hsector, hlength, result, hr, ?_⟩
  cases result with
  | error e => simp at h
  | ok found =>
    simp only [except_bind_eq_ok, except_pure_eq_ok, checkedAdd_eq_ok, Except.ok.injEq,
      Prod.mk.injEq] at h ⊢
    obtain ⟨_, -, rfl, -⟩ := h
    exact ⟨reads + 1, ⟨hreads, rfl⟩, rfl, rfl⟩

namespace Healthy

theorem attach (name : String) {disk : RamDisk} (hdisk : disk.sectors ≤ 2 ^ 32) :
    (Block.attach .swap name (.ram disk)).Healthy :=
  ⟨rfl, ⟨disk, rfl, rfl⟩, hdisk⟩

theorem write (h : b.Healthy) (hw : b.write sector data = .ok (.ok b')) : b'.Healthy := by
  obtain ⟨disk, hdevice, hsectors⟩ := h.ram
  obtain ⟨device, hwrite, rfl⟩ := write_eq_ok hw
  refine ⟨h.usage_eq, ?_, h.size_le⟩
  rw [hdevice] at hwrite
  simp only [Device.write, except_bind_eq_ok, except_pure_eq_ok] at hwrite
  obtain ⟨result, hram, hresult⟩ := hwrite
  cases result with
  | error e => cases hresult
  | ok disk' =>
    cases hresult
    refine ⟨disk', rfl, ?_⟩
    rw [RamDisk.write] at hram
    split at hram
    · simp at hram
    · split at hram
      · cases hram
        exact hsectors
      · simp at hram

theorem exists_write (h : b.Healthy) (hsector : sector < b.size) (hcount : b.writes + 1 < 2 ^ 32)
    (s : Sector) : ∃ b', b.write sector s.toArray = .ok (.ok b') := by
  obtain ⟨disk, hdevice, hsectors⟩ := h.ram
  have hdisk : disk.write sector s.toArray
      = .ok (.ok { disk with written := disk.written.insert sector s }) := by
    rw [RamDisk.write, if_neg (by omega)]
    simp [Sector.ofBytes?]
  have hforeign : b.usage ≠ .foreign := by
    rw [h.usage_eq]
    decide
  refine ⟨{ b with
    device := .ram { disk with written := disk.written.insert sector s }
    writes := b.writes + 1 }, ?_⟩
  rw [Block.write, if_neg (Nat.not_le.2 hsector), if_neg (by simp), if_neg hforeign, hdevice]
  simp only [Device.write, hdisk, except_ok_bind, checkedAdd_of_lt hcount]
  rfl

theorem exists_read (h : b.Healthy) (hsector : sector < b.size) (hcount : b.reads + 1 < 2 ^ 32) :
    ∃ s, b.read sector sectorSize = .ok (.ok (s, { b with reads := b.reads + 1 })) := by
  obtain ⟨disk, hdevice, hsectors⟩ := h.ram
  have hdisk : disk.read sector sectorSize = .ok (.ok (disk.contents sector)) := by
    rw [RamDisk.read, if_neg (by omega), if_pos rfl]
  refine ⟨disk.contents sector, ?_⟩
  rw [Block.read, if_neg (Nat.not_le.2 hsector), if_neg (by simp), hdevice]
  simp only [Device.read, hdisk, except_ok_bind, checkedAdd_of_lt hcount]
  rfl

end Healthy

end Block

namespace Swap

variable {s s' : Swap} {device device' : Block} {slot k count : Nat} {page : Page}

/-! ### What a transfer counts -/

theorem counts_of_storeSectors (h : storeSectors device slot page k count = .ok device') :
    device'.size = device.size ∧ device'.reads = device.reads ∧
      device'.writes = device.writes + count ∧ (device.Healthy → device'.Healthy) := by
  induction count generalizing device k with
  | zero =>
    cases h
    exact ⟨rfl, rfl, rfl, id⟩
  | succ count ih =>
    simp only [storeSectors, except_bind_eq_ok] at h
    obtain ⟨_, -, result, hw, h⟩ := h
    cases result with
    | error e => cases h
    | ok b =>
      obtain ⟨hsize, hreads, hwrites, hhealthy⟩ := ih h
      obtain ⟨_, -, rfl⟩ := Block.write_eq_ok hw
      exact ⟨hsize, hreads, by rw [hwrites, Nat.add_assoc, Nat.add_comm 1],
        fun hb => hhealthy (hb.write hw)⟩

theorem counts_of_fetchSectors {sectors : List Sector}
    (h : fetchSectors device slot k count = .ok (sectors, device')) :
    device' = { device with reads := device.reads + count } := by
  induction count generalizing device k sectors with
  | zero =>
    cases h
    rfl
  | succ count ih =>
    simp only [fetchSectors, except_bind_eq_ok] at h
    obtain ⟨_, -, result, hr, h⟩ := h
    cases result with
    | error e => cases h
    | ok found =>
      obtain ⟨first, b⟩ := found
      simp only [except_bind_eq_ok, except_pure_eq_ok, Prod.mk.injEq] at h
      obtain ⟨⟨rest, b'⟩, hrest, -, rfl⟩ := h
      rw [ih hrest, Block.read_eq_ok hr, Nat.add_assoc, Nat.add_comm 1]

/-- A page that is stored is eight sectors written. -/
theorem counts_of_store (h : s.store slot page = .ok s') :
    s'.device.size = s.device.size ∧ s'.device.reads = s.device.reads ∧
      s'.device.writes = s.device.writes + sectorsPerPage ∧
      (s.device.Healthy → s'.device.Healthy) := by
  obtain ⟨device, hd, rfl⟩ := store_eq_ok h
  exact counts_of_storeSectors hd

/-- A page that is fetched is eight sectors read. -/
theorem counts_of_fetch (h : s.fetch slot = .ok (page, s')) :
    s'.device = { s.device with reads := s.device.reads + sectorsPerPage } := by
  obtain ⟨sectors, device, hd, -, rfl⟩ := fetch_eq_ok h
  exact counts_of_fetchSectors hd

/-! ### Transfers end -/

theorem firstSector_add_lt (hroom : slot * sectorsPerPage + k < device.size)
    (hsize : device.size ≤ 2 ^ 32) :
    checkedAdd 32 (firstSector slot) k = .ok (slot * sectorsPerPage + k) := by
  have hfirst : firstSector slot = slot * sectorsPerPage := Nat.mod_eq_of_lt (by
    show slot * sectorsPerPage < 2 ^ 32
    omega)
  rw [hfirst]
  exact checkedAdd_of_lt (by
    show slot * sectorsPerPage + k < 2 ^ 32
    omega)

theorem exists_storeSectors (hd : device.Healthy)
    (hroom : slot * sectorsPerPage + k + count ≤ device.size)
    (hcount : device.writes + count < 2 ^ 32) (page : Page) :
    ∃ device', storeSectors device slot page k count = .ok device' := by
  induction count generalizing device k with
  | zero => exact ⟨device, rfl⟩
  | succ count ih =>
    have hsector : slot * sectorsPerPage + k < device.size := by omega
    obtain ⟨b, hw⟩ := hd.exists_write hsector (by omega) (page.sector k)
    obtain ⟨_, -, hb⟩ := Block.write_eq_ok hw
    have hsize : b.size = device.size := by rw [hb]
    have hwrites : b.writes = device.writes + 1 := by rw [hb]
    obtain ⟨device', h⟩ := ih (k := k + 1) (hd.write hw) (by omega) (by omega)
    refine ⟨device', ?_⟩
    rw [storeSectors, firstSector_add_lt hsector hd.size_le]
    simp only [except_ok_bind, hw, h]

theorem exists_fetchSectors (hd : device.Healthy)
    (hroom : slot * sectorsPerPage + k + count ≤ device.size)
    (hcount : device.reads + count < 2 ^ 32) :
    ∃ r, fetchSectors device slot k count = .ok r := by
  induction count generalizing device k with
  | zero => exact ⟨_, rfl⟩
  | succ count ih =>
    have hsector : slot * sectorsPerPage + k < device.size := by omega
    obtain ⟨first, hr⟩ := hd.exists_read hsector (by omega)
    have hnext : Block.Healthy { device with reads := device.reads + 1 } :=
      ⟨hd.usage_eq, hd.ram, hd.size_le⟩
    obtain ⟨r, h⟩ := ih (k := k + 1) hnext (by simp only; omega) (by simp only; omega)
    refine ⟨(first :: r.1, r.2), ?_⟩
    rw [fetchSectors, firstSector_add_lt hsector hd.size_le]
    simp only [except_ok_bind, hr, h]
    rfl

theorem exists_fetchSectors_again {sectors : List Sector} {reads : Nat}
    (h : fetchSectors device slot k count = .ok (sectors, device'))
    (hreads : reads + count < 2 ^ 32) :
    ∃ r, fetchSectors { device with reads } slot k count = .ok r := by
  induction count generalizing device device' k sectors reads with
  | zero => exact ⟨_, rfl⟩
  | succ count ih =>
    simp only [fetchSectors, except_bind_eq_ok] at h
    obtain ⟨sector, hsector, result, hr, h⟩ := h
    cases result with
    | error e => cases h
    | ok found =>
      obtain ⟨first, b⟩ := found
      simp only [except_bind_eq_ok] at h
      obtain ⟨⟨rest, b'⟩, hrest, -⟩ := h
      rw [Block.read_eq_ok hr] at hrest
      have hnext : reads + 1 + count < 2 ^ 32 := by omega
      have hfirst : reads + 1 < 2 ^ 32 := by omega
      obtain ⟨r, hagain⟩ := ih hrest hnext
      refine ⟨(first :: r.1, r.2), ?_⟩
      rw [fetchSectors, hsector]
      simp only [except_ok_bind, Block.read_of_reads hr hfirst, hagain]
      rfl

/-- Whatever the device, a page that was fetched can be fetched again while the count has room. -/
theorem exists_fetch_again (h : s.fetch slot = .ok (page, s'))
    (hreads : s'.device.reads + sectorsPerPage < 2 ^ 32) : ∃ r, s'.fetch slot = .ok r := by
  obtain ⟨sectors, device, hd, -, rfl⟩ := fetch_eq_ok h
  obtain ⟨r, hagain⟩ := exists_fetchSectors_again hd hreads
  rw [counts_of_fetchSectors hd] at hagain ⊢
  exact ⟨(Page.ofSectors r.1, { s with device := r.2 }), by rw [fetch, hagain]; rfl⟩

/-- The slots lie on a device that takes and delivers their sectors. -/
structure Backed (s : Swap) : Prop where
  healthy : s.device.Healthy
  room : s.slots * sectorsPerPage ≤ s.device.size

theorem Backed.slot_le (h : s.Backed) (hslot : slot < s.slots) :
    slot * sectorsPerPage + 0 + sectorsPerPage ≤ s.device.size := by
  have := Nat.mul_le_mul_right sectorsPerPage (Nat.succ_le_of_lt hslot)
  rw [Nat.succ_mul] at this
  have := h.room
  omega

theorem Backed.exists_store (h : s.Backed) (hslot : slot < s.slots)
    (hcount : s.device.writes + sectorsPerPage < 2 ^ 32) (page : Page) :
    ∃ s', s.store slot page = .ok s' := by
  obtain ⟨device, hd⟩ := exists_storeSectors h.healthy (h.slot_le hslot) hcount page
  exact ⟨{ s with device }, by rw [store, hd]; rfl⟩

theorem Backed.exists_fetch (h : s.Backed) (hslot : slot < s.slots)
    (hcount : s.device.reads + sectorsPerPage < 2 ^ 32) : ∃ r, s.fetch slot = .ok r := by
  obtain ⟨r, hd⟩ := exists_fetchSectors h.healthy (h.slot_le hslot) hcount
  exact ⟨(Page.ofSectors r.1, { s with device := r.2 }), by rw [fetch, hd]; rfl⟩

theorem Backed.congr (h : s.Backed) (hdevice : s'.device = s.device) (hslots : s'.slots = s.slots) :
    s'.Backed :=
  ⟨hdevice ▸ h.healthy, by rw [hslots, hdevice]; exact h.room⟩

/-- A transfer leaves every slot its sectors. -/
theorem Backed.store (h : s.Backed) (hstore : s.store slot page = .ok s') : s'.Backed := by
  obtain ⟨hsize, -, -, hhealthy⟩ := counts_of_store hstore
  obtain ⟨_, -, rfl⟩ := store_eq_ok hstore
  exact ⟨hhealthy h.healthy, hsize ▸ h.room⟩

theorem Backed.fetch (h : s.Backed) (hfetch : s.fetch slot = .ok (page, s')) : s'.Backed := by
  have hdevice := counts_of_fetch hfetch
  obtain ⟨_, _, -, -, rfl⟩ := fetch_eq_ok hfetch
  constructor
  · rw [hdevice]
    exact ⟨h.healthy.usage_eq, h.healthy.ram, h.healthy.size_le⟩
  · rw [hdevice]
    exact h.room

theorem backed_ofBlock {device : Block} (h : device.Healthy) (maxSlots : Nat) :
    (ofBlock device maxSlots).Backed := by
  refine ⟨h, ?_⟩
  calc min (device.size / sectorsPerPage) maxSlots * sectorsPerPage
    _ ≤ device.size / sectorsPerPage * sectorsPerPage :=
      Nat.mul_le_mul_right _ (Nat.min_le_left _ _)
    _ ≤ device.size := Nat.div_mul_le_self _ _

end Swap

end DemandPaging
