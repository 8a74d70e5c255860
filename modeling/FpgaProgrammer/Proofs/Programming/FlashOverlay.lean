import FpgaProgrammer.Proofs.Calls.FlashPages
import FpgaProgrammer.Proofs.Calls.Simulated

/-!
# The embedded flash after a write

A write lays the pages of an image over what the embedded flash of the simulated device holds, at
the address and with the bytes that they have in the image. It closes the gate at its end, so an
erase that was begun before it may take then, and leave nothing.

* `Overlaid` — pages of an image over what was stored before.
* `begun` — the device when the first page is sent. Only the pause before that page may be an erase
  pulse, and only if the log does not look at the status first.
* `ends_writeFlash_pages` — what is stored after a write, however it ends.
* `run_writeFlash` — the pages that are sent, and what is stored after them.
-/

namespace FpgaProgrammer.Simulator

open Device.EmbeddedFlash (pageSize pageContent pageAddress)

variable {filter : LogFilter} {sim after : Simulator} {base : UInt32} {image : Image}

/-! ## Pages over what was stored before -/

/-- The pages are those of an image that is stored from a word address on, and those of before
elsewhere. -/
structure Overlaid (base : UInt32) (image : Image) (before after : Std.ExtTreeMap UInt32 Bytes) :
    Prop where
  /-- Each page of the image is at its address. -/
  stored : ∀ i < Bytes.blockCount 256 image.storableBytes.length, ∀ address : UInt32,
    address.toNat = base.toNat + 64 * i →
      after[address]? = some (imagePage base image.storableBytes i)
  /-- At all other addresses there is what was there before. -/
  kept : ∀ address : UInt32,
    (∀ i < Bytes.blockCount 256 image.storableBytes.length,
      address.toNat ≠ base.toNat + 64 * i) → after[address]? = before[address]?

/-- Storing the pages of an image lays them over what was stored before. -/
theorem overlaid_pagesStored (sim : Simulator)
    (hfit : ∀ i < Bytes.blockCount 256 image.storableBytes.length, base.toNat + 64 * i < 2 ^ 32) :
    Overlaid base image sim.pages
      (sim.pagesStored base (Bytes.blocks pageSize image.storableBytes) 0).pages := by
  have hcount : (Bytes.blocks pageSize image.storableBytes).length =
      Bytes.blockCount 256 image.storableBytes.length := Bytes.length_blocks ..
  refine ⟨fun i hi address haddress => ?stored, fun address hother => ?kept⟩
  case stored =>
    -- The addresses stay below the top, so there are few enough pages for them to differ.
    have hbound : 0 + (Bytes.blocks pageSize image.storableBytes).length ≤ 2 ^ 26 := by
      have hlast := hfit (Bytes.blockCount 256 image.storableBytes.length - 1) (by omega)
      rw [hcount]
      omega
    have hpage : (sim.pagesStored base (Bytes.blocks pageSize image.storableBytes) 0).pages[
        pageAddress base (0 + i)]? = _ :=
      pages_pagesStored hbound (Bytes.getElem?_blocks hi)
    have hsame : pageAddress base i = address := by
      apply UInt32.toNat_inj.mp
      rw [toNat_pageAddress (hfit i hi), haddress]
    rwa [Nat.zero_add, pageContent_eq (hfit i hi), hsame] at hpage
  case kept =>
    apply pages_pagesStored_of_ne
    intro i hi hsame
    rw [hcount] at hi
    apply hother i hi
    rw [← hsame, Nat.zero_add, toNat_pageAddress (hfit i hi)]

/-! ## The write -/

/-- The device when the first page of an image is sent, if there is one. The pause before it may be
an erase pulse, unless the log looks at the status first and leaves Shift-DR. -/
def begun (filter : LogFilter) (base : UInt32) (image : Image) (sim : Simulator) : Simulator :=
  if filter.records .debug = true ∨ image.storableBytes = [] then sim else sim.paused base

/-- The pause before the first page changes nothing but what is counted. -/
theorem read_begun {γ : Type} (filter : LogFilter) (base : UInt32) (image : Image) (sim : Simulator)
    (field : Simulator → γ)
    (hfield : ∀ (sim : Simulator) cycles, field (sim.toggleClock cycles) = field sim) :
    field (sim.begun filter base image) = field sim := by
  unfold begun paused
  split
  · rfl
  · split
    · rfl
    · exact hfield ..

/-- The pages are sent to a device whose status may have been read for the log. -/
theorem ends_writePages_begun (filter : LogFilter) (profile : Profile)
    (hstuck : sim.config.stuckEditMode = false) (base : UInt32) (image : Image) :
    ∃ logged filled,
      Ends filter (Device.logStatus "before write flash") sim (.ok ()) logged ∧
      Ends filter (Device.EmbeddedFlash.writePages (Device.EmbeddedFlash.delays profile) base
        (Bytes.blocks pageSize image.storableBytes) 0) logged (.ok ()) filled ∧
      Watched ((sim.begun filter base image).pagesStored base
        (Bytes.blocks pageSize image.storableBytes) 0) filled := by
  obtain ⟨hsilent, hlog⟩ | ⟨hrecords, _, logged, hread, hlog⟩ :=
    ends_logStatus_cases filter sim "before write flash"
  · -- Nothing is read, so the first page meets the device as it was left before.
    by_cases hnone : image.storableBytes = []
    · have hblocks : Bytes.blocks pageSize image.storableBytes = [] := by
        rw [hnone]
        rfl
      rw [begun, if_pos (.inr hnone), hblocks]
      exact ⟨sim, sim, hlog, ends_pure .., .refl sim⟩
    · have hfirst : pageAddress base 0 = base := by simp [Device.EmbeddedFlash.pageAddress]
      rw [begun, if_neg (by simp [hsilent, hnone])]
      cases hblocks : Bytes.blocks pageSize image.storableBytes with
      | nil =>
        have hflat := Bytes.flatten_blocks (by decide : 0 < pageSize) image.storableBytes
        rw [hblocks] at hflat
        exact absurd hflat.symm hnone
      | cons data pages =>
        obtain ⟨filled, hfill, hfilled⟩ := ends_writePages_cons filter hstuck
          (Device.EmbeddedFlash.delays profile) base data pages 0
        rw [hfirst] at hfilled
        exact ⟨sim, filled, hlog, hfill, hfilled.watched⟩
  · -- The read ends outside of Shift-DR, where no pause is a pulse.
    rw [begun, if_pos (.inl hrecords)]
    have hwatched : Watched sim logged := hread.watched_of_readStatus
    have hquiet : logged.eraseArmed = false ∨ logged.tap ≠ .shiftDr := by
      rw [hread.eq_of_readStatus]
      exact .inr TapState.noConfusion
    obtain ⟨filled, hfill, hfilled⟩ := ends_writePages filter
      (by rw [hwatched.read config fun _ => rfl]; exact hstuck) hquiet
      (Device.EmbeddedFlash.delays profile) base (Bytes.blocks pageSize image.storableBytes) 0
    exact ⟨logged, filled, hlog, hfill, (hwatched.pagesStored base _ 0).trans hfilled.watched⟩

/-- After a write, however it ends, the pages are stored that were sent, unless an erase takes when
the gate is closed. -/
theorem ends_writeFlash_pages (filter : LogFilter) (profile : Profile)
    (hstuck : sim.config.stuckEditMode = false) (limit : Nat) (base : UInt32) (image : Image) :
    ∃ result after,
      Ends filter (Device.EmbeddedFlash.write profile limit base image) sim result after ∧
      after.pages = (((sim.begun filter base image).pagesStored base
        (Bytes.blocks pageSize image.storableBytes) 0).execute .configDisable).pages := by
  obtain ⟨logged, filled, hlog, hfill, hfilled⟩ :=
    ends_writePages_begun filter profile hstuck base image
  have hclosed := (hfilled.execute .configDisable).read pages fun _ => rfl
  have hwrite : ∀ {result : Except Error Unit} {after : Simulator},
      Ends filter (Host.finishWrite limit) filled result after →
      Ends filter (Device.EmbeddedFlash.write profile limit base image) sim result after :=
    fun hfinish => (ends_log ..).bind (hlog.bind ((hfill.reporting ..).bind hfinish))
  -- A host that may not look at all fails, but it has closed the gate before.
  cases limit with
  | zero =>
    obtain ⟨after, hfinish, hfinished⟩ := ends_finishWrite_of_blind filter filled
    exact ⟨_, after, hwrite hfinish, (hfinished.read pages fun _ => rfl).trans hclosed⟩
  | succ limit =>
    obtain ⟨after, hfinish, hfinished⟩ := ends_finishWrite filter filled limit.succ_pos
    exact ⟨_, after, hwrite hfinish, (hfinished.read pages fun _ => rfl).trans hclosed⟩

/-- A write to a device that is not stuck sends the pages of an image one after the other, and lays
them over what the embedded flash holds. Only if an erase was begun before that takes when the gate
is closed at the end, no page is left. -/
theorem run_writeFlash (filter : LogFilter) (profile : Profile) (sim : Simulator)
    (hstuck : sim.config.stuckEditMode = false) (limit : Nat) (base : UInt32) (image : Image)
    (hfit : ∀ i < Bytes.blockCount 256 image.storableBytes.length,
      base.toNat + 64 * i < 2 ^ 32) :
    let outcome := Host.run cable filter (Device.EmbeddedFlash.write profile limit base image) sim
    (∃ rest, Host.callsOf outcome.exchanges = Host.logCalls filter ++
        (List.range (Bytes.blockCount 256 image.storableBytes.length)).flatMap (fun i =>
          Host.pageCalls sim.frequency (Device.EmbeddedFlash.delays profile)
            (base.toNat + 64 * i).toUInt32 (imagePage base image.storableBytes i)) ++ rest ∧
      ∀ call ∈ rest, ∀ instruction, (Request.cable call).instruction? = some instruction →
        instruction ∈ [.configDisable, .noop, .readStatus, .reload]) ∧
    (sim.eraseArmed = true ∧ (sim.begun filter base image).EraseTakes →
      outcome.device.pages = ∅) ∧
    (¬ (sim.eraseArmed = true ∧ (sim.begun filter base image).EraseTakes) →
      Overlaid base image sim.pages outcome.device.pages) := by
  intro outcome
  let stored := (sim.begun filter base image).pagesStored base
    (Bytes.blocks pageSize image.storableBytes) 0
  have hdevice : outcome.device.pages = (stored.execute .configDisable).pages := by
    obtain ⟨_, _, hends, hpages⟩ := ends_writeFlash_pages filter profile hstuck limit base image
    exact (congrArg pages hends.run_eq.2).trans hpages
  -- Neither the pause nor the pages touch the attempt that is under way, except for its pulses.
  have harmed : stored.eraseArmed = sim.eraseArmed :=
    (read_pagesStored _ eraseArmed (fun _ _ _ => rfl) base _ 0).trans
      (read_begun filter base image sim eraseArmed fun _ _ => rfl)
  have htakes : stored.EraseTakes = (sim.begun filter base image).EraseTakes :=
    read_pagesStored _ EraseTakes (fun _ _ _ => rfl) base _ 0
  refine ⟨?sent, fun h => ?emptied, fun h => ?overlaid⟩
  case sent =>
    exact (Host.runs_run cable filter _ sim).of_writeFlash rfl (holds_run filter _ sim) hfit
  case emptied =>
    rw [← harmed, ← htakes] at h
    rw [hdevice, pages_configDisable_of_takes h.1 h.2]
  case overlaid =>
    rw [← harmed, ← htakes] at h
    rw [hdevice, pages_configDisable_of_not_takes h,
      ← read_begun filter base image sim pages fun _ _ => rfl]
    exact overlaid_pagesStored (sim.begun filter base image) hfit

/-- An image of 257 whole bytes becomes a page with the signature at address 0 and a page with one
byte after it. A page that was there before stays behind them. -/
theorem run_writeFlash_signed :
    let sim := (powerUp { idcode := 0x0100381B }).preload 128 (List.replicate 256 0)
    let image : Image :=
      { kind := .bitstream, data := List.replicate 258 0xA5, bitLength := 2060,
        header? := fun _ => none, checksum := 0 }
    let outcome := Host.run cable none (Device.EmbeddedFlash.write sim.profile 100 0 image) sim
    sim.config.stuckEditMode = false ∧
      (∀ i < Bytes.blockCount 256 image.storableBytes.length,
        (0 : UInt32).toNat + 64 * i < 2 ^ 32) ∧
      outcome.device.pages[(0 : UInt32)]? =
        some ([0x47, 0x57, 0x31, 0x4E] ++ List.replicate 252 0xA5) ∧
      outcome.device.pages[(64 : UInt32)]? = some (0xA5 :: List.replicate 255 0xFF) ∧
      outcome.device.pages[(128 : UInt32)]? = some (List.replicate 256 0) := by
  intro sim image outcome
  have hcount : Bytes.blockCount 256 image.storableBytes.length = 2 := by decide +kernel
  have hfit : ∀ i < Bytes.blockCount 256 image.storableBytes.length,
      (0 : UInt32).toNat + 64 * i < 2 ^ 32 := by
    rw [hcount]
    decide
  obtain ⟨-, -, hoverlaid⟩ := run_writeFlash none sim.profile sim rfl 100 0 image hfit
  have hoverlaid := hoverlaid fun h => absurd h.1 Bool.false_ne_true
  refine ⟨rfl, hfit, ?_, ?_, ?_⟩
  · rw [hoverlaid.stored 0 (by rw [hcount]; decide) 0 rfl]
    decide +kernel
  · rw [hoverlaid.stored 1 (by rw [hcount]; decide) 64 rfl]
    decide +kernel
  · rw [hoverlaid.kept 128 (by rw [hcount]; decide)]
    exact Std.ExtTreeMap.getElem?_insert_self

/-- A device may be left with an erase under way that takes, and then a write leaves nothing. -/
theorem run_writeFlash_emptied :
    let sim := (powerUp { idcode := 0x0100381B }).calls
      [.shiftIr [0x15] 8, .shiftIr [0x75] 8, .setState .shiftDr, .toggleClock 32]
    let image : Image :=
      { kind := .raw, data := [1, 2, 3], bitLength := 24, header? := fun _ => none, checksum := 0 }
    let outcome := Host.run cable none (Device.EmbeddedFlash.write sim.profile 100 0 image) sim
    sim.Reachable ∧ sim.config.stuckEditMode = false ∧
      outcome.result = .error (.writeFailed .flash) ∧
      outcome.device.pages[(0 : UInt32)]? = none := by
  intro sim image outcome
  have hrun : outcome.result = .error (.writeFailed .flash) ∧
      outcome.device.pages[(0 : UInt32)]? = none := by
    decide +kernel
  exact ⟨(Reachable.powerUp _).calls _, rfl, hrun⟩

end FpgaProgrammer.Simulator
