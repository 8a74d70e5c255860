import FpgaProgrammer.Proofs.Device.Profile
import FpgaProgrammer.Proofs.Programming.FlashFirmware
import FpgaProgrammer.Simulator.Options

/-!
# Programming a device that has just been built in

A simulated device that is described by options is `Compliant` (`compliant_readOptions`): it has
just been powered up, opens its gate, and lets its flash be erased at the first attempt. What comes
of programming it depends on no more than its family, its usercode and the time that it takes to
erase its SRAM.

* `run_programSram_powerUp`: an image is loaded into SRAM, unless the erase takes too long.
* `run_programEmbeddedFlash_powerUp`: an image is written to the embedded flash, unless it has no
  byte; then there is nothing to boot from.
* `run_program_sram_iff`, `run_program_flash_iff`: when a session without a driver for an external
  flash succeeds and finds the usercode as it should be.
-/

namespace FpgaProgrammer

/-- The device has just been powered up, and does not resist. -/
structure SimulatorConfig.Compliant (config : SimulatorConfig) : Prop where
  /-- It has just been powered up. -/
  powerOn : config.powerOn = true
  /-- Its gate opens. -/
  opens : config.stuckEditMode = false
  /-- Its flash can be erased at the first attempt. -/
  yields : config.stubbornErases = 0

/-- The comparison finds no difference if the usercode stands for the image, and if nothing is
compared. -/
theorem Session.isOk_verdict (session : Session) (image : Image) (usercode : UInt32) :
    (session.verdict image usercode).isOk = true ↔
      session.profile.withoutChecksum = true ∨ Device.usercodeMatches image usercode = true := by
  unfold verdict
  by_cases hwithout : session.profile.withoutChecksum = true
  · simp [hwithout, Device.UsercodeCheck.isOk]
  · by_cases hmatches : Device.usercodeMatches image usercode = true <;>
      simp [hwithout, hmatches, Device.UsercodeCheck.isOk]

/-- A failure is no comparison. -/
theorem Session.not_isOk_of_error (error : Error) :
    ¬ ∃ check : Device.UsercodeCheck, Except.error error = .ok check ∧ check.isOk = true := by
  rintro ⟨check, hthrown, -⟩
  cases hthrown

namespace Simulator

open Session (not_isOk_of_error)

variable {filter : LogFilter} {config after : SimulatorConfig}

/-! ## Options -/

/-- An option sets the idcode, the usercode, the time of an SRAM erase or the SPI flash. -/
theorem applyOption_frame {key value : String}
    (h : applyOption? config key value = some (.ok after)) :
    ∃ idcode usercode? eraseLatency flash,
      after = { config with idcode, usercode?, eraseLatency, flash } := by
  unfold applyOption? at h
  split at h
  · obtain ⟨idcode, -, h⟩ := bind_eq_ok_iff.mp (Option.some_inj.mp h)
    cases h
    exact ⟨_, _, _, _, rfl⟩
  · obtain ⟨usercode, -, h⟩ := bind_eq_ok_iff.mp (Option.some_inj.mp h)
    cases h
    exact ⟨_, _, _, _, rfl⟩
  · obtain ⟨size, -, h⟩ := bind_eq_ok_iff.mp (Option.some_inj.mp h)
    split at h <;> cases h
    exact ⟨_, _, _, _, rfl⟩
  · obtain ⟨eraseLatency, -, h⟩ := bind_eq_ok_iff.mp (Option.some_inj.mp h)
    cases h
    exact ⟨_, _, _, _, rfl⟩
  · cases h

/-- Options describe a device that does not resist. -/
theorem compliant_readOptions {options : List (String × String)}
    (h : (readOptions options).2 = .ok config) : config.Compliant := by
  -- By induction on the options, for every device that the earlier ones can have described.
  have hall : ∀ (options : List (String × String)) (config after : SimulatorConfig),
      config.Compliant → (applyOptions config options).2 = .ok after → after.Compliant := by
    intro options
    induction options with
    | nil =>
      rintro config after hconfig h
      cases h
      exact hconfig
    | cons option options ih =>
      obtain ⟨key, value⟩ := option
      intro config after hconfig h
      unfold applyOptions at h
      split at h
      · exact ih config after hconfig h
      · rename_i applied happly
        obtain ⟨_, _, _, _, hframe⟩ := applyOption_frame happly
        have happlied : applied.Compliant := by
          rw [hframe]
          exact ⟨hconfig.powerOn, hconfig.opens, hconfig.yields⟩
        exact ih applied after happlied h
      · cases h
  exact hall options {} config ⟨rfl, rfl, rfl⟩ h

/-! ## SRAM -/

/-- Nothing is pending on a device that has just been built in. -/
theorem settled_powerUp (config : SimulatorConfig) : (powerUp config).Settled :=
  ⟨rfl, rfl⟩

/-- An image that names its own checksum is loaded into the SRAM of the device, unless the erase
takes longer than the session waits. -/
theorem run_programSram_powerUp (hconfig : config.Compliant) {session : Session}
    (hlimit : 0 < session.limit) {image : Image}
    (hchecksum : image.checksum = checksum16 image.streamedBytes) :
    (Host.run cable filter (session.programSram image) (powerUp config)).result =
      if config.eraseLatency < session.limit then
        .ok (session.verdict image (config.usercode?.getD image.checksum.toUInt32))
      else .error .timeout := by
  have hstuck : (powerUp config).config.stuckEditMode = false := hconfig.opens
  by_cases hlatency : config.eraseLatency < session.limit
  · obtain ⟨_, hends, -⟩ := ends_programSram filter session image hstuck hlatency
    rw [hends.run_eq.1, if_pos hlatency, sramResult,
      if_neg (settled_powerUp config).not_designReturns, if_pos hchecksum]
    rfl
  · obtain ⟨_, hends⟩ := ends_programSram_of_slow filter session image hstuck hlimit
      (Nat.le_of_not_lt hlatency)
    rw [hends.run_eq.1, if_neg hlatency]

/-! ## Embedded flash -/

/-- The flash of the device can be written at once: it has just been powered up. -/
theorem ready_powerUp (hconfig : config.Compliant) :
    (((powerUp config).execute .configDisable).readStatus.1.has .gowinValid ||
      ((powerUp config).execute .configDisable).readStatus.1.has .powerOnReset) = true := by
  rw [(settled_powerUp config).configDisable, has_readStatus _ StatusFlag.noConfusion,
    has_readStatus _ StatusFlag.noConfusion]
  show (false || config.powerOn) = true
  rw [hconfig.powerOn]
  rfl

/-- There is nothing to boot from in the SPI flash of the device. -/
theorem unbootable_powerUp (config : SimulatorConfig) :
    ((powerUp config).flash.memory.byte? 0).any (· != 0xFF) = false := by
  show (Nor.Memory.byte? (.blank config.flash.size) 0).any (· != 0xFF) = false
  unfold Nor.Memory.byte? Nor.Memory.blank
  dsimp only
  rw [Std.ExtTreeMap.getD_empty]
  split <;> rfl

/-- An image is written to the embedded flash of the device. One without any byte leaves it nothing
to boot from. -/
theorem run_programEmbeddedFlash_powerUp (hconfig : config.Compliant) {session : Session}
    (hprofile : session.profile = .ofIdcode config.idcode) (hlimit : 0 < session.limit)
    {image : Image} (hfit : image.storableBytes.length ≤ 2 ^ 34)
    (hfirmware : ∀ firmware, session.job.firmware? = some firmware →
      firmware.storableBytes.length + 256 * 14 ≤ 2 ^ 34) :
    (Host.run cable filter (session.programEmbeddedFlash image) (powerUp config)).result =
      if image.storableBytes = [] then .error (.writeFailed .flash)
      else .ok (session.verdict image (config.usercode?.getD 0)) := by
  let sim := powerUp config
  have hprofile : session.profile = sim.profile := hprofile
  have hstuck : sim.config.stuckEditMode = false := hconfig.opens
  have hlog : sim.config.stubbornErases ≤ (sim.execute .configDisable).eraseLog.size :=
    hconfig.yields.le.trans (Nat.zero_le _)
  -- No design runs, so the time that an erase of the SRAM takes does not matter.
  have hlatency : (sim.execute .configDisable).gowinValid = true →
      sim.config.eraseLatency < session.limit := by
    rw [(settled_powerUp config).configDisable]
    exact fun hruns => absurd hruns Bool.false_ne_true
  by_cases hnone : image.storableBytes = []
  · obtain ⟨looked, hlooked, hlook⟩ := ends_lookAtStatus filter sim
    obtain ⟨erased, herase, herased, hkind, hsettled⟩ := ends_eraseFlash_of_looked filter session
      hprofile hstuck hlimit hlatency hlog hlooked
    obtain ⟨after, hwrite, -⟩ := ends_writeFlash filter session.profile
      (by rw [hkind]; exact hstuck) hlimit hsettled 0 image
    have hflash : erased.flash = sim.flash :=
      (read_lasting herased flash fun _ => rfl).trans (flash_configDisable sim)
    have hempty : erased.pages = ∅ := read_lasting herased pages fun _ => rfl
    rw [(written_of_empty hempty hnone).2, hflash, unbootable_powerUp,
      if_neg Bool.false_ne_true] at hwrite
    have hends : Ends filter (session.programEmbeddedFlash image) sim
        (.error (.writeFailed .flash)) after := by
      unfold Session.programEmbeddedFlash
      refine hlook ?_
      rw [ready_powerUp hconfig]
      exact herase.bind hwrite.bind_error
    rw [hends.run_eq.1, if_pos hnone]
  · obtain ⟨after, hends⟩ : ∃ after, Ends filter (session.programEmbeddedFlash image) sim
        (.ok (session.verdict image sim.usercode)) after :=
      ends_programEmbeddedFlash_of_some hprofile hstuck hlimit hlatency hlog
        (ready_powerUp hconfig) hfit hnone hfirmware
    rw [hends.run_eq.1, if_neg hnone]
    rfl

/-! ## Sessions -/

section Sessions

variable {job : Job} {image : Image}

/-- A session that works on SRAM succeeds, and finds the usercode as it should be, if the erase
comes to its end in time and a usercode that is configured stands for the image. -/
theorem run_program_sram_iff (hconfig : config.Compliant) (htarget : job.target = .sram)
    (himage : job.image? = some image) (hlimit : 0 < job.pollLimit.toNat)
    (hchecksum : image.checksum = checksum16 image.streamedBytes) (offset : UInt32) :
    (∃ check, (Host.run cable filter ((Session.ofJob config.idcode job).program offset)
        (powerUp config)).result = .ok check ∧ check.isOk = true) ↔
      config.eraseLatency < job.pollLimit.toNat ∧
        ((Profile.ofIdcode config.idcode).withoutChecksum = true ∨
          ∀ usercode, config.usercode? = some usercode →
            Device.usercodeMatches image usercode = true) := by
  let session := Session.ofJob config.idcode job
  have hprogram : session.program offset = session.programSram image := by
    unfold Session.program
    rw [show session.job.image? = some image from himage,
      show session.job.target = .sram from htarget]
  have hlimit : 0 < session.limit := hlimit
  rw [hprogram, run_programSram_powerUp hconfig hlimit hchecksum]
  by_cases hlatency : config.eraseLatency < job.pollLimit.toNat
  · rw [show session.limit = job.pollLimit.toNat from rfl, if_pos hlatency]
    -- Without a configured usercode the device reports the checksum, which stands for the image.
    have hmatches : Device.usercodeMatches image (config.usercode?.getD image.checksum.toUInt32) =
        true ↔ ∀ usercode, config.usercode? = some usercode →
          Device.usercodeMatches image usercode = true := by
      cases config.usercode? with
      | none => simp [Device.usercodeMatches]
      | some usercode => simp
    rw [← hmatches]
    simp only [Except.ok.injEq, exists_eq_left', hlatency, true_and]
    exact session.isOk_verdict image _
  · rw [show session.limit = job.pollLimit.toNat from rfl, if_neg hlatency]
    exact iff_of_false (not_isOk_of_error _) fun h => hlatency h.1

/-- A session that works on flash, without a driver for an external one, succeeds and finds the
usercode as it should be if the embedded flash is meant and there is one, the image has a byte, and
the usercode stands for the image. -/
theorem run_program_flash_iff (hconfig : config.Compliant) (htarget : job.target = .flash)
    (himage : job.image? = some image) (hdriver : job.chipDriver? = none)
    (hlimit : 0 < job.pollLimit.toNat) (hfit : image.storableBytes.length ≤ 2 ^ 34)
    (hfirmware : ∀ firmware, job.firmware? = some firmware →
      firmware.storableBytes.length + 256 * 14 ≤ 2 ^ 34) (offset : UInt32) :
    (∃ check, (Host.run cable filter ((Session.ofJob config.idcode job).program offset)
        (powerUp config)).result = .ok check ∧ check.isOk = true) ↔
      job.externalFlash = false ∧ (Profile.ofIdcode config.idcode).externalFlashOnly = false ∧
        image.storableBytes ≠ [] ∧
        Device.usercodeMatches image (config.usercode?.getD 0) = true := by
  let session := Session.ofJob config.idcode job
  by_cases hembedded : session.usesExternalFlash = false
  · obtain ⟨hexternal, honly⟩ : job.externalFlash = false ∧
        (Profile.ofIdcode config.idcode).externalFlashOnly = false :=
      Bool.or_eq_false_iff.mp hembedded
    obtain ⟨hoffered, hreports⟩ := Profile.embedded_of_ofIdcode honly
    have hprogram : session.program offset = session.programEmbeddedFlash image := by
      unfold Session.program
      rw [show session.job.image? = some image from himage,
        show session.job.target = .flash from htarget,
        show session.profile.withoutFlashWrite = false from hoffered, hembedded]
      rfl
    have hlimit : 0 < session.limit := hlimit
    rw [hprogram, run_programEmbeddedFlash_powerUp hconfig rfl hlimit hfit hfirmware]
    -- Without a byte no design comes up after the write.
    by_cases hnone : image.storableBytes = []
    · rw [if_pos hnone]
      exact iff_of_false (not_isOk_of_error _) fun h => h.2.2.1 hnone
    · rw [if_neg hnone]
      simp only [Except.ok.injEq, exists_eq_left', hexternal, honly, hnone, true_and, ne_eq,
        not_false_eq_true]
      rw [session.isOk_verdict, show session.profile.withoutChecksum = false from hreports]
      simp
  · -- Nothing is written to an external flash, nor to one that cannot be written.
    have hrefused : ∃ error after, Ends filter (session.program offset) (powerUp config)
        (.error error) after := by
      unfold Session.program
      rw [show session.job.image? = some image from himage,
        show session.job.target = .flash from htarget]
      dsimp only
      by_cases hoffered : session.profile.withoutFlashWrite = true
      · rw [if_pos hoffered]
        exact ⟨_, _, (ends_log ..).bind (ends_throw ..)⟩
      · rw [if_neg hoffered, if_pos (Bool.eq_true_of_not_eq_false hembedded),
          show session.job.chipDriver? = none from hdriver]
        exact ⟨_, _, ends_throw ..⟩
    obtain ⟨error, _, hends⟩ := hrefused
    rw [hends.run_eq.1]
    exact iff_of_false (not_isOk_of_error _)
      fun h => hembedded (Bool.or_eq_false_iff.mpr ⟨h.1, h.2.1⟩)

end Sessions

end Simulator

end FpgaProgrammer
