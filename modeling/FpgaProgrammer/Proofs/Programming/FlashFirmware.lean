import FpgaProgrammer.Proofs.Programming.FlashEmptied
import FpgaProgrammer.Proofs.Programming.FlashProgram

/-!
# Firmware in the embedded flash

After the image of a design, a session may write firmware for an embedded processor. It always goes
to the same address, which is the one of page 14 of the image (`pageAddress_firmware`), and the
length of the image is compared with it nowhere. So from page 14 on the firmware takes the place of
as many pages of the image as it has itself; all others are left alone
(`program_embeddedFlash_firmware`).
-/

namespace FpgaProgrammer

/-- The bytes of a raw image are stored as they are. -/
@[simp]
theorem Image.storableBytes_ofRaw (data : Bytes) : (Image.ofRaw data).storableBytes = data := by
  simp [Image.storableBytes, Image.ofRaw]

/-- The bytes of a bitstream are stored as they are. -/
@[simp]
theorem Bitstream.storableBytes_toImage (bitstream : Bitstream) :
    bitstream.toImage.storableBytes = bitstream.data := by
  simp [Image.storableBytes, Bitstream.toImage]

namespace Simulator

open Device.EmbeddedFlash (pageSize pageContent pageAddress)

variable {filter : LogFilter} {sim after : Simulator}

/-! ## Where firmware goes -/

/-- The pages of firmware follow on the first 14 pages of an image. -/
theorem pageAddress_firmware (index : Nat) :
    pageAddress Session.firmwareAddress index = pageAddress 0 (14 + index) := by
  have hwords : pageSize * (14 + index) / 4 = pageSize * index / 4 + 896 := by
    unfold Device.EmbeddedFlash.pageSize
    omega
  unfold Device.EmbeddedFlash.pageAddress
  rw [hwords, UInt32.add_zero]
  exact (UInt32.ofNat_add ..).symm

/-- Each page of firmware is stored at its address, continued with erased bytes. -/
theorem pages_written_firmware {firmware : Image}
    (hfit : firmware.storableBytes.length + 256 * 14 ≤ 2 ^ 34) {index : Nat}
    (h : index < Bytes.blockCount 256 firmware.storableBytes.length) :
    (sim.written Session.firmwareAddress firmware).pages[(64 * (14 + index)).toUInt32]? =
      some (Bytes.fitWith 0xFF 256 (firmware.storableBytes.drop (256 * index))) := by
  have hcount : 14 + Bytes.blockCount 256 firmware.storableBytes.length ≤ 2 ^ 26 := by
    unfold Bytes.blockCount
    omega
  have hbound : 0 + (Bytes.blocks pageSize firmware.storableBytes).length ≤ 2 ^ 26 := by
    rw [Bytes.length_blocks]
    unfold Device.EmbeddedFlash.pageSize
    omega
  have hpage : (sim.pagesStored Session.firmwareAddress _ 0).pages[_]? = _ :=
    pages_pagesStored hbound (Bytes.getElem?_blocks h)
  rw [Nat.zero_add] at hpage
  have haddress : pageAddress Session.firmwareAddress index = (64 * (14 + index)).toUInt32 :=
    (pageAddress_firmware index).trans (pageAddress_zero _)
  -- No page of firmware is at address zero, so none of them is signed.
  have hunsigned : (pageAddress Session.firmwareAddress index == 0) = false := by
    rw [beq_eq_false_iff_ne, pageAddress_firmware]
    intro hzero
    have := pageAddress_inj (i := 14 + index) (j := 0) (by omega) (by decide) (hzero.trans rfl)
    omega
  rw [← haddress]
  refine hpage.trans ?_
  unfold Device.EmbeddedFlash.pageContent
  rw [hunsigned, Bytes.fitWith_take]
  rfl

/-- A page of the image is overwritten only if it is one of those that the firmware takes. -/
theorem pages_written_firmware_of_outside {firmware : Image}
    (hfit : firmware.storableBytes.length + 256 * 14 ≤ 2 ^ 34) {index : Nat}
    (hindex : index < 2 ^ 26)
    (h : index < 14 ∨ 14 + Bytes.blockCount 256 firmware.storableBytes.length ≤ index) :
    (sim.written Session.firmwareAddress firmware).pages[(64 * index).toUInt32]? =
      sim.pages[(64 * index).toUInt32]? := by
  refine pages_pagesStored_of_ne fun i hi hsame => ?_
  have hi' : i < Bytes.blockCount 256 firmware.storableBytes.length := by
    rw [Bytes.length_blocks] at hi
    exact hi
  have hbound : 14 + i < 2 ^ 26 := by
    unfold Bytes.blockCount at hi'
    omega
  rw [Nat.zero_add, pageAddress_firmware, ← pageAddress_zero index] at hsame
  have := pageAddress_inj hbound hindex hsame
  omega

/-! ## The operation as a whole -/

/-- A write that succeeds has stored its pages, and leaves nothing pending. -/
theorem Ends.of_writeFlash {profile : Profile} {limit : Nat} {base : UInt32} {image : Image}
    (hstuck : sim.config.stuckEditMode = false) (hlimit : 0 < limit) (hsettled : sim.Settled)
    (h : Ends filter (Device.EmbeddedFlash.write profile limit base image) sim (.ok ()) after) :
    after.pages = (sim.written base image).pages ∧ after.config = sim.config ∧ after.Settled := by
  obtain ⟨_, hends, hwatched⟩ := ends_writeFlash filter profile hstuck hlimit hsettled base image
  obtain ⟨-, rfl⟩ := hends.unique h
  have hstored : ∀ {γ : Type} (field : Simulator → γ),
      (∀ sim address page, field ({ sim with editMode := true }.stored address page) = field sim) →
      field (sim.pagesStored base (Bytes.blocks pageSize image.storableBytes) 0) = field sim :=
    fun field hfield => read_pagesStored sim field hfield base _ 0
  refine ⟨hwatched.read pages fun _ => rfl, ?_, ?_, ?_⟩
  · exact (hwatched.read config fun _ => rfl).trans (hstored config fun _ _ _ => rfl)
  · exact (hwatched.read eraseArmed fun _ => rfl).trans
      ((hstored eraseArmed fun _ _ _ => rfl).trans hsettled.unarmed)
  · exact (hwatched.read sramValid fun _ => rfl).trans
      ((hstored sramValid fun _ _ _ => rfl).trans hsettled.unloaded)

/-- What a session does after its look at the status, it does with the gate closed. -/
theorem Ends.of_lookAtStatus {α : Type} {next : Status → Host α} {result : Except Error α}
    (h : Ends filter
      (do
        let _ ← Host.setClockFrequency Session.flashClock
        Device.send .configDisable
        Device.sendOpcode 0x00
        Host.setState .testLogicReset
        let status ← Device.readStatus
        next status) sim result after) :
    ∃ status looked, Watched (sim.execute .configDisable) looked ∧
      Ends filter (next status) looked result after := by
  obtain ⟨looked, hlooked, hlook⟩ := ends_lookAtStatus filter sim
  rcases hnext : Host.eval (Host.surroundings cable filter)
    (next (sim.execute .configDisable).readStatus.1) looked with ⟨result', after'⟩
  obtain ⟨rfl, rfl⟩ := h.unique (hlook hnext)
  exact ⟨_, looked, hlooked, hnext⟩

/-- A session that succeeds has written the image to an erased device, and then the firmware. -/
theorem pages_of_programEmbeddedFlash {session : Session} {image firmware : Image}
    {check : Device.UsercodeCheck} (hprofile : session.profile = sim.profile)
    (hfirmware : session.job.firmware? = some firmware)
    (h : Ends filter (session.programEmbeddedFlash image) sim (.ok check) after) :
    ∃ erased filled : Simulator, filled.pages = (erased.written 0 image).pages ∧
      after.pages = (filled.written Session.firmwareAddress firmware).pages := by
  unfold Session.programEmbeddedFlash at h
  rw [hfirmware] at h
  obtain ⟨status, looked, hlooked, h⟩ := h.of_lookAtStatus
  -- The gate was closed before, so the erase would not succeed on a device that is stuck.
  have hgated : looked.Gated := fun _ =>
    (hlooked.read editMode fun _ => rfl).trans (editMode_configDisable sim)
  have hlookedProfile : session.profile = looked.profile := by
    rw [hprofile]
    unfold profile
    rw [hlooked.read config fun _ => rfl, config_execute]
  extract_lets compare finish work at h
  -- What follows the writes does not touch the pages.
  have hfinish : ∀ {middle : Simulator}, Ends filter (finish ()) middle (.ok check) after →
      after.pages = middle.pages := by
    intro middle hends
    obtain ⟨concluded, hconclude, hconcluded⟩ := ends_concludeFlash filter middle session image
    obtain ⟨-, rfl⟩ := hends.unique hconclude
    exact hconcluded.read pages fun _ => rfl
  split at h
  · -- A session that does not find the device ready fails.
    obtain ⟨_, _, -, h⟩ := (h.rest (ends_log ..)).of_bind
    obtain ⟨_, _, hthrow, -⟩ := h.of_bind
    cases (hthrow.unique (ends_throw ..)).1
  · obtain ⟨_, erased, herase, h⟩ := h.of_bind
    obtain ⟨_, filled, hfill, h⟩ := h.of_bind
    obtain ⟨_, done, hdone, h⟩ := h.of_bind
    rw [hlookedProfile] at herase
    obtain ⟨hstuck, hlimit, htried, -⟩ := tried_of_eraseFlash hgated herase
    rw [← htried.config_eq] at hstuck
    obtain ⟨hfilled, hconfig, hsettled⟩ := hfill.of_writeFlash hstuck hlimit htried.settled
    rw [← hconfig] at hstuck
    obtain ⟨hpages, -, -⟩ := hdone.of_writeFlash hstuck hlimit hsettled
    exact ⟨erased, filled, hfilled, (hfinish h).trans hpages⟩

/-- A device boots from an image also after firmware was written. -/
theorem doneFinal_written_firmware {image firmware : Image} {filled : Simulator}
    (hfit : image.storableBytes.length ≤ 2 ^ 34) (hsome : image.storableBytes ≠ [])
    (hfit' : firmware.storableBytes.length + 256 * 14 ≤ 2 ^ 34)
    (hfilled : filled.pages = (sim.written 0 image).pages) :
    (filled.written Session.firmwareAddress firmware).doneFinal = true := by
  have hcount : 0 < Bytes.blockCount 256 image.storableBytes.length := by
    have := List.length_pos_iff.mpr hsome
    unfold Bytes.blockCount
    omega
  -- The first page is not among those that the firmware takes.
  have hpage : (filled.written Session.firmwareAddress firmware).pages[(0 : UInt32)]? =
      some (storedPage image.storableBytes 0) := by
    have hkept : (filled.written Session.firmwareAddress firmware).pages[(64 * 0).toUInt32]? =
        filled.pages[(64 * 0).toUInt32]? :=
      pages_written_firmware_of_outside hfit' (by decide) (.inl (by decide))
    exact hkept.trans (hfilled ▸ pages_written hfit hcount)
  have hsigned : (filled.written Session.firmwareAddress firmware).isSigned = true := by
    unfold isSigned
    rw [hpage]
    rfl
  show (filled.written Session.firmwareAddress firmware).hasBootSource = true
  rw [hasBootSource, hsigned, Bool.true_or]

/-- With an embedded flash, this is what a session of a device with a processor does. -/
theorem program_of_embedded {job : Job} (hidcode : sim.config.idcode = 0x0100981B)
    (htarget : job.target = .flash)
    (hembedded : (Session.ofJob sim.config.idcode job).usesExternalFlash = false) {image : Image}
    (himage : job.image? = some image) (offset : UInt32) :
    (Session.ofJob sim.config.idcode job).program offset =
      (Session.ofJob sim.config.idcode job).programEmbeddedFlash image := by
  have hoffered : (Session.ofJob sim.config.idcode job).profile.withoutFlashWrite = false := by
    rw [hidcode]
    rfl
  unfold Session.program
  rw [show (Session.ofJob sim.config.idcode job).job = job from rfl, himage, htarget, hoffered,
    hembedded]
  rfl

/-- A device that is ready takes an image of some bytes, and the firmware if there is any. -/
theorem ends_programEmbeddedFlash_of_some {session : Session} {image : Image}
    (hprofile : session.profile = sim.profile) (hstuck : sim.config.stuckEditMode = false)
    (hlimit : 0 < session.limit)
    (hlatency : (sim.execute .configDisable).gowinValid = true →
      sim.config.eraseLatency < session.limit)
    (hlog : sim.config.stubbornErases ≤ (sim.execute .configDisable).eraseLog.size)
    (hready : ((sim.execute .configDisable).readStatus.1.has .gowinValid ||
      (sim.execute .configDisable).readStatus.1.has .powerOnReset) = true)
    (hfit : image.storableBytes.length ≤ 2 ^ 34) (hsome : image.storableBytes ≠ [])
    (hfit' : ∀ firmware, session.job.firmware? = some firmware →
      firmware.storableBytes.length + 256 * 14 ≤ 2 ^ 34) :
    ∃ after, Ends filter (session.programEmbeddedFlash image) sim
      (.ok (session.verdict image sim.usercode)) after := by
  obtain ⟨looked, hlooked, hlook⟩ := ends_lookAtStatus filter sim
  obtain ⟨erased, herase, herased, hconfig, hsettled⟩ :=
    ends_eraseFlash_of_looked filter session hprofile hstuck hlimit hlatency hlog hlooked
  rw [← hconfig] at hstuck
  obtain ⟨filled, hfill, hwatched⟩ :=
    ends_writeFlash filter session.profile hstuck hlimit hsettled 0 image
  rw [if_pos (doneFinal_written hfit hsome)] at hfill
  -- The usercode is that of the device at the start: neither memory changes it.
  have husercode : filled.usercode = sim.usercode := by
    calc filled.usercode
      _ = (erased.written 0 image).usercode := hwatched.read usercode fun _ => rfl
      _ = erased.usercode := usercode_written ..
      _ = (sim.execute .configDisable).usercode := read_lasting herased usercode fun _ => rfl
      _ = sim.usercode := usercode_configDisable sim
  unfold Session.programEmbeddedFlash
  cases hfirmware : session.job.firmware? with
  | none =>
    obtain ⟨after, hconclude, -⟩ := ends_concludeFlash filter filled session image
    rw [husercode] at hconclude
    refine ⟨after, hlook ?_⟩
    rw [hready]
    exact herase.bind (hfill.bind hconclude)
  | some firmware =>
    obtain ⟨hfilled, hconfig', hsettled'⟩ := hfill.of_writeFlash hstuck hlimit hsettled
    obtain ⟨done, hdone, hwatched'⟩ := ends_writeFlash filter session.profile
      (by rw [hconfig']; exact hstuck) hlimit hsettled' Session.firmwareAddress firmware
    rw [if_pos (doneFinal_written_firmware hfit hsome (hfit' firmware hfirmware) hfilled)] at hdone
    have husercode' : done.usercode = sim.usercode :=
      ((hwatched'.read usercode fun _ => rfl).trans (usercode_written ..)).trans husercode
    obtain ⟨after, hconclude, -⟩ := ends_concludeFlash filter done session image
    rw [husercode'] at hconclude
    refine ⟨after, hlook ?_⟩
    rw [hready]
    exact herase.bind (hfill.bind (hdone.bind hconclude))

/-- A device that is ready takes image and firmware. -/
theorem run_program_firmware (hidcode : sim.config.idcode = 0x0100981B) {job : Job}
    (htarget : job.target = .flash)
    (hembedded : (Session.ofJob sim.config.idcode job).usesExternalFlash = false)
    {image firmware : Image} (himage : job.image? = some image)
    (hfirmware : job.firmware? = some firmware) (hstuck : sim.config.stuckEditMode = false)
    (hlimit : sim.config.eraseLatency < job.pollLimit.toNat)
    (hlog : sim.config.stubbornErases ≤ (sim.execute .configDisable).eraseLog.size)
    (hready : ((sim.execute .configDisable).readStatus.1.has .gowinValid ||
      (sim.execute .configDisable).readStatus.1.has .powerOnReset) = true)
    (hfit : image.storableBytes.length ≤ 2 ^ 34) (hsome : image.storableBytes ≠ [])
    (hfit' : firmware.storableBytes.length + 256 * 14 ≤ 2 ^ 34) (offset : UInt32) :
    ∃ check, (Host.run cable filter ((Session.ofJob sim.config.idcode job).program offset)
      sim).result = .ok check := by
  have hfirmware' : ∀ given, job.firmware? = some given →
      given.storableBytes.length + 256 * 14 ≤ 2 ^ 34 := by
    intro given hgiven
    obtain rfl : firmware = given := Option.some_inj.mp (hfirmware.symm.trans hgiven)
    exact hfit'
  let session := Session.ofJob sim.config.idcode job
  have hprofile : session.profile = sim.profile := rfl
  obtain ⟨after, hends⟩ : ∃ after, Ends filter (session.programEmbeddedFlash image) sim
      (.ok (session.verdict image sim.usercode)) after :=
    ends_programEmbeddedFlash_of_some hprofile hstuck (Nat.zero_lt_of_lt hlimit) (fun _ => hlimit)
      hlog hready hfit hsome hfirmware'
  rw [← program_of_embedded hidcode htarget hembedded himage offset] at hends
  exact ⟨_, hends.run_eq.1⟩

/-- A device that has just been built in is ready. -/
theorem run_program_firmware_powerUp {data firmware : Bytes} (hsome : data ≠ [])
    (hfit : data.length ≤ 2 ^ 34) (hfit' : firmware.length + 256 * 14 ≤ 2 ^ 34) :
    let job : Job :=
      { target := .flash
        image? := some (Bitstream.ofData data).toImage
        firmware? := some (.ofRaw firmware) }
    let sim := powerUp { idcode := 0x0100981B }
    ∃ check, (Host.run cable none ((Session.ofJob sim.config.idcode job).program 0) sim).result =
      .ok check := by
  intro job sim
  have hlimit : sim.config.eraseLatency < job.pollLimit.toNat := by
    show 2 < (100000000 : UInt32).toNat
    decide
  have hlog : sim.config.stubbornErases ≤ (sim.execute .configDisable).eraseLog.size := by decide
  have hready : ((sim.execute .configDisable).readStatus.1.has .gowinValid ||
      (sim.execute .configDisable).readStatus.1.has .powerOnReset) = true := by decide
  refine run_program_firmware rfl rfl rfl rfl rfl rfl hlimit hlog hready ?_ ?_ ?_ 0
  · rw [Bitstream.storableBytes_toImage]
    exact hfit
  · rw [Bitstream.storableBytes_toImage]
    exact hsome
  · rw [Image.storableBytes_ofRaw]
    exact hfit'

/-- A session that succeeds in programming the embedded flash with an image and firmware has stored
every page of the firmware, and every page of the image except those whose place the firmware
takes. -/
theorem program_embeddedFlash_firmware (hidcode : sim.config.idcode = 0x0100981B) {job : Job}
    (htarget : job.target = .flash)
    (hembedded : (Session.ofJob sim.config.idcode job).usesExternalFlash = false)
    {image firmware : Image} (himage : job.image? = some image)
    (hfirmware : job.firmware? = some firmware) (hfit : image.storableBytes.length ≤ 2 ^ 34)
    (hfit' : firmware.storableBytes.length + 4 * 0x380 ≤ 2 ^ 34) (offset : UInt32)
    {check : Device.UsercodeCheck}
    (hok : (Host.run cable filter ((Session.ofJob sim.config.idcode job).program offset)
      sim).result = .ok check) :
    let outcome := Host.run cable filter ((Session.ofJob sim.config.idcode job).program offset) sim
    let count := Bytes.blockCount 256 firmware.storableBytes.length
    (∀ j < count, outcome.device.pages[(0x380 + 64 * j).toUInt32]? =
      some (Bytes.fitWith 0xFF 256 (firmware.storableBytes.drop (256 * j)))) ∧
    (∀ i < Bytes.blockCount 256 image.storableBytes.length, i < 14 ∨ 14 + count ≤ i →
      outcome.device.pages[(64 * i).toUInt32]? = some (storedPage image.storableBytes i)) := by
  intro outcome count
  have hends : Ends filter _ sim (.ok check) outcome.device := .of_run hok
  rw [program_of_embedded hidcode htarget hembedded himage] at hends
  obtain ⟨erased, filled, hfilled, hpages⟩ := pages_of_programEmbeddedFlash rfl hfirmware hends
  have hcount : Bytes.blockCount 256 image.storableBytes.length ≤ 2 ^ 26 := by
    unfold Bytes.blockCount
    omega
  rw [hpages]
  refine ⟨fun j hj => ?_, fun i hi houtside => ?_⟩
  · -- The firmware begins in the place of page 14.
    have haddress : 0x380 + 64 * j = 64 * (14 + j) := by omega
    rw [haddress]
    exact pages_written_firmware hfit' hj
  · rw [pages_written_firmware_of_outside hfit' (by omega) houtside, hfilled]
    exact pages_written hfit hi

/-- An image that ends with page 13 and firmware of one page are both stored. -/
theorem program_embeddedFlash_firmware_page :
    let data := List.replicate 3584 0xAB
    let job : Job :=
      { target := .flash
        image? := some (Bitstream.ofData data).toImage
        firmware? := some (.ofRaw (List.replicate 256 0xA5)) }
    let sim := powerUp { idcode := 0x0100981B }
    let outcome := Host.run cable none ((Session.ofJob sim.config.idcode job).program 0) sim
    (∃ check, outcome.result = .ok check) ∧
      outcome.device.pages[(0x380 : UInt32)]? = some (List.replicate 256 0xA5) ∧
      outcome.device.pages[(832 : UInt32)]? = some (storedPage data 13) := by
  intro data job
  dsimp only
  have hlength : data.length = 3584 := List.length_replicate
  have hfirmware : (Image.ofRaw (List.replicate 256 0xA5)).storableBytes =
      List.replicate 256 0xA5 := Image.storableBytes_ofRaw _
  have hbytes : (Bitstream.ofData data).toImage.storableBytes = data :=
    Bitstream.storableBytes_toImage _
  have hfit : (Bitstream.ofData data).toImage.storableBytes.length ≤ 2 ^ 34 := by
    rw [hbytes, hlength]
    decide
  have hfit' : (Image.ofRaw (List.replicate 256 0xA5)).storableBytes.length + 4 * 0x380 ≤
      2 ^ 34 := by
    rw [hfirmware, List.length_replicate]
    decide
  have hsmall : (List.replicate 256 (0xA5 : UInt8)).length + 256 * 14 ≤ 2 ^ 34 := by
    rw [List.length_replicate]
    decide
  obtain ⟨check, hok⟩ :=
    run_program_firmware_powerUp (List.ne_nil_of_length_pos (by rw [hlength]; decide))
      (by rw [hlength]; decide) hsmall
  have hidcode : (powerUp { idcode := 0x0100981B }).config.idcode = 0x0100981B := rfl
  obtain ⟨hpages, himage⟩ :=
    program_embeddedFlash_firmware hidcode rfl rfl rfl rfl hfit hfit' 0 hok
  rw [hfirmware, List.length_replicate] at hpages himage
  rw [hbytes, hlength] at himage
  have hfirst := hpages 0 (by decide)
  have hlast := himage 13 (by decide) (.inl (by decide))
  have hpage : Bytes.fitWith 0xFF 256 ((List.replicate 256 0xA5).drop (256 * 0)) =
      List.replicate 256 0xA5 := by decide +kernel
  rw [hpage] at hfirst
  exact ⟨⟨check, hok⟩, hfirst, hlast⟩

/-- The firmware takes the place of page 14 of an image that has one. If an external flash is asked
for, neither the image nor the firmware comes into the embedded flash. -/
theorem program_embeddedFlash_firmware_overwrites :
    (let data := List.replicate 3840 0xAB
    let job : Job :=
      { target := .flash
        image? := some (Bitstream.ofData data).toImage
        firmware? := some (.ofRaw (List.replicate 256 0xA5)) }
    let sim := powerUp { idcode := 0x0100981B }
    let outcome := Host.run cable none ((Session.ofJob sim.config.idcode job).program 0) sim
    (∃ check, outcome.result = .ok check) ∧
      outcome.device.pages[(896 : UInt32)]? ≠ some (storedPage data 14)) ∧
    (let job : Job :=
      { target := .flash
        externalFlash := true
        image? := some (Bitstream.ofData [1, 2, 3]).toImage
        firmware? := some (.ofRaw [4, 5, 6])
        chipDriver? := some fun _ _ _ => pure () }
    let sim := powerUp { idcode := 0x0100981B }
    let outcome := Host.run cable none ((Session.ofJob sim.config.idcode job).program 0) sim
    outcome.result = .ok .skipped ∧ outcome.device.pages[(0 : UInt32)]? = none) := by
  refine ⟨?overwritten, ?external⟩
  case overwritten =>
    intro data job
    dsimp only
    have hlength : data.length = 3840 := List.length_replicate
    have hfirmware : (Image.ofRaw (List.replicate 256 0xA5)).storableBytes =
        List.replicate 256 0xA5 := Image.storableBytes_ofRaw _
    have hsmall : (List.replicate 256 (0xA5 : UInt8)).length + 256 * 14 ≤ 2 ^ 34 := by
      rw [List.length_replicate]
      decide
    have hfit : (Image.ofRaw (List.replicate 256 0xA5)).storableBytes.length + 256 * 14 ≤
        2 ^ 34 := by
      rw [hfirmware]
      exact hsmall
    obtain ⟨check, hok⟩ :=
      run_program_firmware_powerUp (List.ne_nil_of_length_pos (by rw [hlength]; decide))
        (by rw [hlength]; decide) hsmall
    have hidcode : (powerUp { idcode := 0x0100981B }).config.idcode = 0x0100981B := rfl
    rw [program_of_embedded hidcode rfl rfl rfl] at hok ⊢
    obtain ⟨_, filled, -, hpages⟩ := pages_of_programEmbeddedFlash rfl rfl (.of_run hok)
    -- The first page of the firmware is at the address of page 14 of the image.
    have hfirst : 0 < Bytes.blockCount 256
        (Image.ofRaw (List.replicate 256 0xA5)).storableBytes.length := by
      rw [hfirmware, List.length_replicate]
      decide
    have hpage : (filled.written Session.firmwareAddress _).pages[_]? = _ :=
      pages_written_firmware hfit hfirst
    refine ⟨⟨check, hok⟩, fun hsame => ?_⟩
    rw [hpages] at hsame
    exact absurd (hpage.symm.trans hsame) (by decide +kernel)
  case external =>
    intro job sim outcome
    exact ⟨by decide +kernel, by decide +kernel⟩

end Simulator

end FpgaProgrammer
