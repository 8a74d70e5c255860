import FpgaProgrammer.Proofs.Programming.FlashErase
import FpgaProgrammer.Proofs.Programming.FlashWrite
import FpgaProgrammer.Proofs.Programming.SramProgram

/-!
# Programming the embedded flash of the simulated device

A session closes the gate and looks at the status; if a design runs, or if the device has just been
powered up, it erases the embedded flash, writes the image and boots from it.

* `storedPage`: the page that is stored for each 256 bytes of an image.
* `pages_written`, `pages_written_of_ne`: after a write to an erased flash, these are the pages.
* `ends_lookAtStatus`: what is looked at is the status after the gate was closed.
* `program_embeddedFlash`: the operation as a whole.
-/

namespace FpgaProgrammer.Simulator

open Device.EmbeddedFlash (pageSize pageContent pageAddress)

variable (filter : LogFilter) {sim after : Simulator}

/-! ## The pages of an image -/

/-- The page with the given index of an image: its bytes, continued with erased ones. The first
page starts with the signature instead. -/
def storedPage (data : Bytes) (index : Nat) : Bytes :=
  let page := Bytes.fitWith 0xFF 256 (data.drop (256 * index))
  if index = 0 then [0x47, 0x57, 0x31, 0x4E] ++ page.drop 4 else page

/-- The pages of an image lie 64 words apart. -/
theorem pageAddress_zero (index : Nat) : pageAddress 0 index = (64 * index).toUInt32 := by
  have hwords : pageSize * index / 4 = 64 * index := by
    unfold Device.EmbeddedFlash.pageSize
    omega
  unfold Device.EmbeddedFlash.pageAddress
  rw [hwords, UInt32.add_zero]

/-- What the host sends for a block of the image is the page with its index. -/
theorem pageContent_block (data : Bytes) {index : Nat} (h : index < 2 ^ 26) :
    pageContent (pageAddress 0 index) ((data.drop (pageSize * index)).take pageSize) =
      storedPage data index := by
  rw [pageContent_eq (by rw [UInt32.toNat_zero]; omega), imagePage, storedPage]
  simp

/-- After a write to an erased flash, the pages of the image are at their addresses. -/
theorem pages_written {image : Image} (hfit : image.storableBytes.length ≤ 2 ^ 34) {index : Nat}
    (h : index < Bytes.blockCount 256 image.storableBytes.length) :
    (sim.written 0 image).pages[(64 * index).toUInt32]? =
      some (storedPage image.storableBytes index) := by
  have hcount : Bytes.blockCount 256 image.storableBytes.length ≤ 2 ^ 26 := by
    unfold Bytes.blockCount
    omega
  have hbound : 0 + (Bytes.blocks pageSize image.storableBytes).length ≤ 2 ^ 26 := by
    rw [Bytes.length_blocks, Nat.zero_add]
    exact hcount
  have hpage : (sim.pagesStored 0 _ 0).pages[_]? = _ :=
    pages_pagesStored hbound (Bytes.getElem?_blocks h)
  rw [Nat.zero_add] at hpage
  rw [← pageAddress_zero, ← pageContent_block _ (Nat.lt_of_lt_of_le h hcount)]
  exact hpage

/-- After a write to an erased flash, there is nothing elsewhere. -/
theorem pages_written_of_ne {image : Image} (hempty : sim.pages = ∅) {address : UInt32}
    (h : ∀ i < Bytes.blockCount 256 image.storableBytes.length, (64 * i).toUInt32 ≠ address) :
    (sim.written 0 image).pages[address]? = none := by
  have hothers : ∀ i < (Bytes.blocks pageSize image.storableBytes).length,
      pageAddress 0 (0 + i) ≠ address := by
    intro i hi
    rw [Bytes.length_blocks] at hi
    rw [Nat.zero_add, pageAddress_zero]
    exact h i hi
  refine (pages_pagesStored_of_ne hothers).trans ?_
  rw [hempty]
  exact Std.ExtTreeMap.getElem?_empty

/-- A device with an image in its embedded flash boots from it. -/
theorem doneFinal_written {image : Image} (hfit : image.storableBytes.length ≤ 2 ^ 34)
    (hsome : image.storableBytes ≠ []) : (sim.written 0 image).doneFinal = true := by
  have hcount : 0 < Bytes.blockCount 256 image.storableBytes.length := by
    have := List.length_pos_iff.mpr hsome
    unfold Bytes.blockCount
    omega
  have hpage : (sim.written 0 image).pages[(0 : UInt32)]? =
      some (storedPage image.storableBytes 0) := pages_written hfit hcount
  have hsigned : (sim.written 0 image).isSigned = true := by
    unfold isSigned
    rw [hpage]
    rfl
  show (sim.written 0 image).hasBootSource = true
  rw [hasBootSource, hsigned, Bool.true_or]

/-- Writing no page to an erased flash leaves it erased; then the device may only boot from its SPI
flash. -/
theorem written_of_empty {image : Image} (hempty : sim.pages = ∅)
    (hnone : image.storableBytes = []) :
    (sim.written 0 image).pages = ∅ ∧
      (sim.written 0 image).doneFinal = (sim.flash.memory.byte? 0).any (· != 0xFF) := by
  have hwritten : sim.written 0 image = { sim with editMode := false }.reload := by
    unfold written
    rw [hnone]
    rfl
  have hunsigned : sim.isSigned = false := by
    unfold isSigned
    rw [hempty, Std.ExtTreeMap.getElem?_empty]
  rw [hwritten]
  refine ⟨hempty, ?_⟩
  show (sim.isSigned || (sim.flash.memory.byte? 0).any (· != Nor.erasedByte)) = _
  rw [hunsigned, Bool.false_or]
  rfl

/-! ## The operation as a whole -/

/-- The session looks at the status after it closed the gate. -/
theorem ends_lookAtStatus {α : Type} (sim : Simulator) :
    ∃ looked, Watched (sim.execute .configDisable) looked ∧
      ∀ {next : Status → Host α} {result : Except Error α} {after : Simulator},
        Ends filter (next (sim.execute .configDisable).readStatus.1) looked result after →
        Ends filter
          (do
            let _ ← Host.setClockFrequency Session.flashClock
            Device.send .configDisable
            Device.sendOpcode 0x00
            Host.setState .testLogicReset
            let status ← Device.readStatus
            next status) sim result after := by
  have hclocked : Traffic sim { sim with frequency := Session.flashClock } := ⟨rfl, rfl, rfl⟩
  have hnothing : Instruction.ofOpcode? 0x00 = none := by decide
  have hclosed := ((hclocked.took .configDisable).trans (traffic_took_of_none _ hnothing)).trans
    (traffic_inState _ .testLogicReset)
  obtain ⟨looked, hlook, hlooked⟩ := ends_readStatus_of_traffic filter hclosed
  exact ⟨looked, (Watched.of_readStatus _).trans hlooked.watched, fun hnext =>
    (ends_setClockFrequency ..).bind ((ends_send ..).bind ((ends_sendOpcode ..).bind
      ((ends_setState ..).bind (hlook.bind hnext))))⟩

/-- A device that runs no design and was not just powered up is left as it is. -/
theorem ends_programEmbeddedFlash_of_notReady (session : Session) (image : Image)
    (hnot : ((sim.execute .configDisable).readStatus.1.has .gowinValid ||
      (sim.execute .configDisable).readStatus.1.has .powerOnReset) = false) :
    ∃ after, Ends filter (session.programEmbeddedFlash image) sim
        (.error (.notReady (sim.execute .configDisable).readStatus.1.bits)) after ∧
      Watched (sim.execute .configDisable) after := by
  obtain ⟨looked, hlooked, hlook⟩ := ends_lookAtStatus filter sim
  obtain ⟨after, hlog, hlogged⟩ := ends_logStatus filter looked "before program flash"
  refine ⟨after, ?_, hlooked.trans hlogged⟩
  unfold Session.programEmbeddedFlash
  refine hlook ?_
  rw [hnot]
  exact (ends_log ..).bind (hlog.bind (ends_throw ..))

/-- A session erases the flash at once, if the next attempt takes on the device once its gate was
closed. -/
theorem ends_eraseFlash_of_looked {looked : Simulator} (session : Session)
    (hprofile : session.profile = sim.profile) (hstuck : sim.config.stuckEditMode = false)
    (hlimit : 0 < session.limit)
    (hlatency : (sim.execute .configDisable).gowinValid = true →
      sim.config.eraseLatency < session.limit)
    (hlog : sim.config.stubbornErases ≤ (sim.execute .configDisable).eraseLog.size)
    (hlooked : Watched (sim.execute .configDisable) looked) :
    ∃ erased, Ends filter (Device.EmbeddedFlash.erase session.profile session.limit) looked (.ok ())
        erased ∧
      erased.lasting =
        ((sim.execute .configDisable).flashErased session.profile.erasePulses).lasting ∧
      erased.config = sim.config ∧ erased.Settled := by
  have hconfig : looked.config = sim.config :=
    (hlooked.read config fun _ => rfl).trans (config_execute ..)
  have hsettled : looked.Settled := (settled_configDisable sim).watched hlooked
  have hvalid : looked.gowinValid = (sim.execute .configDisable).gowinValid :=
    hlooked.read gowinValid fun _ => rfl
  -- The session gives the pulses of the family that the device is of.
  have htakes : (looked.armed session.profile.erasePulses).EraseTakes := by
    have hsize : looked.eraseLog.size = (sim.execute .configDisable).eraseLog.size :=
      hlooked.read (·.eraseLog.size) fun _ => rfl
    refine ⟨?_, ?_⟩
    · show (Profile.ofIdcode looked.config.idcode).erasePulses ≤ _
      rw [hconfig, hprofile]
      exact Nat.le_refl _
    · show looked.config.stubbornErases ≤ looked.eraseLog.size
      rw [hconfig, hsize]
      exact hlog
  obtain ⟨erased, herase, herased⟩ := ends_eraseFlash filter session.profile
    (by rw [hconfig]; exact hstuck) hlimit (fun hruns => hconfig ▸ hlatency (hvalid ▸ hruns))
    hsettled htakes
  exact ⟨erased, herase, herased.trans (lasting_flashErased hlooked.lasting_eq _),
    (read_lasting herased config fun _ => rfl).trans hconfig,
    read_lasting herased eraseArmed fun _ => rfl,
    (read_lasting herased sramValid fun _ => rfl).trans hsettled.unloaded⟩

/-- Once everything is written, the session compares the usercode. That what was written is not read
back is no more than a warning. -/
theorem ends_concludeFlash (sim : Simulator) (session : Session) (image : Image) :
    ∃ after, Ends filter
        (do
          if session.job.verify then
            Host.log .warn "writing verification not supported"
          let check ← session.verifyUsercode image
          Device.logStatus "after program flash"
          pure check) sim (.ok (session.verdict image sim.usercode)) after ∧
      Watched sim after := by
  obtain ⟨verified, hverify, hverified⟩ := ends_verifyUsercode filter sim session image
  obtain ⟨after, hlast, hlogged⟩ := ends_logStatus filter verified "after program flash"
  refine ⟨after, ?_, hverified.watched.trans hlogged⟩
  cases session.job.verify with
  | true => exact (ends_log ..).bind (hverify.bind (hlast.bind (ends_pure ..)))
  | false => exact hverify.bind (hlast.bind (ends_pure ..))

/-- Otherwise the flash is erased and the image written to it. -/
theorem ends_programEmbeddedFlash_of_ready (session : Session) (image : Image)
    (hprofile : session.profile = sim.profile) (hfirmware : session.job.firmware? = none)
    (hstuck : sim.config.stuckEditMode = false) (hlimit : sim.config.eraseLatency < session.limit)
    (hlog : sim.config.stubbornErases ≤ (sim.execute .configDisable).eraseLog.size)
    (hready : ((sim.execute .configDisable).readStatus.1.has .gowinValid ||
      (sim.execute .configDisable).readStatus.1.has .powerOnReset) = true) :
    ∃ erased after : Simulator, Ends filter (session.programEmbeddedFlash image) sim
        (if (erased.written 0 image).doneFinal then .ok (session.verdict image sim.usercode)
          else .error (.writeFailed .flash)) after ∧
      erased.lasting =
        ((sim.execute .configDisable).flashErased session.profile.erasePulses).lasting ∧
      Watched (erased.written 0 image) after := by
  obtain ⟨looked, hlooked, hlook⟩ := ends_lookAtStatus filter sim
  obtain ⟨erased, herase, herased, hconfig, hsettled⟩ :=
    ends_eraseFlash_of_looked filter session hprofile hstuck (Nat.zero_lt_of_lt hlimit)
      (fun _ => hlimit) hlog hlooked
  obtain ⟨filled, hwrite, hfilled⟩ := ends_writeFlash filter session.profile
    (by rw [hconfig]; exact hstuck) (Nat.zero_lt_of_lt hlimit) hsettled 0 image
  -- No instruction of the operation touches the usercode.
  have husercode : filled.usercode = sim.usercode := by
    calc filled.usercode
      _ = (erased.written 0 image).usercode := hfilled.read usercode fun _ => rfl
      _ = erased.usercode := usercode_written ..
      _ = (sim.execute .configDisable).usercode := read_lasting herased usercode fun _ => rfl
      _ = sim.usercode := usercode_configDisable sim
  unfold Session.programEmbeddedFlash
  cases hboots : (erased.written 0 image).doneFinal with
  | false =>
    rw [hboots] at hwrite
    refine ⟨erased, filled, hlook ?_, herased, hfilled⟩
    rw [hready, hboots]
    exact herase.bind hwrite.bind_error
  | true =>
    rw [hboots] at hwrite
    obtain ⟨after, hconclude, hconcluded⟩ := ends_concludeFlash filter filled session image
    rw [husercode] at hconclude
    refine ⟨erased, after, hlook ?_, herased, hfilled.trans hconcluded⟩
    rw [hready, hfirmware, hboots]
    exact herase.bind (hwrite.bind hconclude)

/-- Programming the embedded flash of any device that is not stuck, in whatever state it was left,
if the next attempt to erase it takes. The status after the gate was closed decides: unless it
shows a running design or a device that was just powered up, the session fails with it and changes
neither SRAM nor flash any more. Otherwise exactly the pages of the image are stored, and the device
boots from them; with an image of no whole byte the flash is erased, and the device boots only if
there is something to boot from in its SPI flash. -/
theorem program_embeddedFlash (job : Job) (htarget : job.target = .flash) {image : Image}
    (himage : job.image? = some image) (hfirmware : job.firmware? = none)
    (hembedded : (Session.ofJob sim.config.idcode job).usesExternalFlash = false)
    (hoffered : sim.profile.withoutFlashWrite = false) (hstuck : sim.config.stuckEditMode = false)
    (hlimit : sim.config.eraseLatency < job.pollLimit.toNat)
    (hlog : sim.config.stubbornErases ≤ (sim.execute .configDisable).eraseLog.size)
    (hfit : image.storableBytes.length ≤ 2 ^ 34) (offset : UInt32) :
    let session := Session.ofJob sim.config.idcode job
    let outcome := Host.run cable filter (session.program offset) sim
    let closed := sim.execute .configDisable
    let status := closed.readStatus.1
    let count := Bytes.blockCount 256 image.storableBytes.length
    ((status.has .gowinValid || status.has .powerOnReset) = false →
      outcome.result = .error (.notReady status.bits) ∧
      outcome.device.sram = closed.sram ∧ outcome.device.pages = closed.pages) ∧
    ((status.has .gowinValid || status.has .powerOnReset) = true →
      (image.storableBytes ≠ [] →
        outcome.result = .ok (session.verdict image sim.usercode) ∧
        (∀ i < count, outcome.device.pages[(64 * i).toUInt32]? =
          some (storedPage image.storableBytes i)) ∧
        (∀ address, (∀ i < count, (64 * i).toUInt32 ≠ address) →
          outcome.device.pages[address]? = none) ∧
        outcome.device.doneFinal = true ∧ outcome.device.gowinValid = true ∧
        outcome.device.editMode = false) ∧
      (image.storableBytes = [] →
        outcome.result =
          (if (sim.flash.memory.byte? 0).any (· != 0xFF) then
            .ok (session.verdict image sim.usercode)
          else .error (.writeFailed .flash)) ∧
        outcome.device.pages = ∅)) := by
  intro session outcome closed status count
  have hprogram : session.program offset = session.programEmbeddedFlash image := by
    have hoffered' : session.profile.withoutFlashWrite = false := hoffered
    have hembedded' : session.usesExternalFlash = false := hembedded
    unfold Session.program
    rw [show session.job.image? = some image from himage,
      show session.job.target = .flash from htarget, hoffered', hembedded']
    rfl
  refine ⟨fun hnot => ?notReady, fun hready => ?ready⟩
  case notReady =>
    obtain ⟨after, hends, hafter⟩ :=
      ends_programEmbeddedFlash_of_notReady filter session image hnot
    rw [← hprogram] at hends
    obtain ⟨hresult, hdevice⟩ := hends.run_eq
    rw [show outcome.result = _ from hresult, show outcome.device = _ from hdevice]
    exact ⟨rfl, hafter.read sram fun _ => rfl, hafter.read pages fun _ => rfl⟩
  case ready =>
    obtain ⟨erased, after, hends, herased, hafter⟩ := ends_programEmbeddedFlash_of_ready filter
      session image rfl hfirmware hstuck hlimit hlog hready
    rw [← hprogram] at hends
    obtain ⟨hresult, hdevice⟩ := hends.run_eq
    rw [show outcome.result = _ from hresult, show outcome.device = _ from hdevice]
    -- The write starts from an erased flash, so nothing of an older design is left.
    have hempty : erased.pages = ∅ := read_lasting herased pages fun _ => rfl
    have hpages : after.pages = (erased.written 0 image).pages := hafter.read pages fun _ => rfl
    rw [hpages]
    refine ⟨fun hsome => ?some, fun hnone => ?none⟩
    case some =>
      have hboots : (erased.written 0 image).doneFinal = true := doneFinal_written hfit hsome
      rw [if_pos hboots]
      exact ⟨rfl, fun i hi => pages_written hfit hi, fun address h => pages_written_of_ne hempty h,
        (hafter.read doneFinal fun _ => rfl).trans hboots,
        (hafter.read gowinValid fun _ => rfl).trans hboots, hafter.read editMode fun _ => rfl⟩
    case none =>
      have hflash : erased.flash = sim.flash :=
        (read_lasting herased flash fun _ => rfl).trans (flash_configDisable sim)
      obtain ⟨hunwritten, hboots⟩ := written_of_empty hempty hnone
      rw [hunwritten, hboots, hflash]
      exact ⟨rfl, rfl⟩

/-- Neither a page of an older design, nor an erase that was begun and fails when the gate closes,
nor a page half received keeps an image of two pages from being stored. -/
theorem program_embeddedFlash_leftover :
    let data := List.replicate 300 0xAB
    let job : Job := { target := .flash, image? := some (Bitstream.ofData data).toImage }
    let blank := powerUp { idcode := 0x0100381B, stubbornErases := 1 }
    let sim : Simulator :=
      { blank.preload 640 (List.replicate 256 0) with
        editMode := true, eraseArmed := true, pageWrite? := some ⟨some 64, [1, 2, 3]⟩ }
    let outcome := Host.run cable none ((Session.ofJob 0x0100381B job).program 0) sim
    (∃ check, outcome.result = .ok check) ∧
      outcome.device.pages[(64 : UInt32)]? = some (storedPage data 1) ∧
      outcome.device.pages[(640 : UInt32)]? = none := by
  intro data job blank sim outcome
  have hbytes : (Bitstream.ofData data).toImage.storableBytes = data := by
    simp [Image.storableBytes, Bitstream.toImage, Bitstream.ofData]
  have hlength : data.length = 300 := List.length_replicate
  have hstuck : sim.config.stuckEditMode = false := rfl
  obtain ⟨-, hready⟩ := program_embeddedFlash none job rfl rfl rfl rfl rfl hstuck
    (by decide) (by decide) (by rw [hbytes, hlength]; decide) 0
  rw [hbytes, hlength] at hready
  obtain ⟨hresult, hpages, hothers, -⟩ :=
    (hready (by decide)).1 (List.ne_nil_of_length_pos (by rw [hlength]; decide))
  exact ⟨⟨_, hresult⟩, hpages 1 (by decide), hothers 640 (by decide)⟩

end FpgaProgrammer.Simulator
