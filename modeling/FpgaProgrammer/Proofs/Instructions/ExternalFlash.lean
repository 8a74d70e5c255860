import FpgaProgrammer.Proofs.Instructions.SafeOrder
import FpgaProgrammer.Simulator.Step

/-!
# What surrounds a chip driver

A session that programs an external flash prepares the device, hands over to the chip driver, and
reloads the device from what the driver has written: `programExternalFlash_eq`. The driver is
called once, and only if the preparation succeeded; a failure of the driver ends the session on the
spot (`run_programExternalFlash`).

What has been done when the driver is called is said by `Connected`: the SRAM was erased and no
design was seen running, and then the device was connected to the SPI flash, either by handing over
its pins or by closing the gate.
-/

namespace FpgaProgrammer

variable {programming : Bool}

/-! ## Stages -/

namespace Session

variable (session : Session)

/-- Connects an erased device to the SPI flash. -/
def connectExternalFlash : Host Unit := do
  Device.send .transferDone
  Device.send .noop
  if session.profile.spi.isPassthrough then
    Device.disableConfig session.limit
    Device.send .noop
  else
    Device.send .spiBoundaryScan

/-- All that is done before the chip driver is called. -/
def prepareExternalFlash : Host Unit := do
  let _ ← Host.setClockFrequency externalFlashClock
  try
    Device.enableConfig session.limit
  catch error =>
    Host.log .error "failed to enable configuration"
    throw error
  Device.Sram.erase session.limit
  session.connectExternalFlash

/-- All that is done after the chip driver has succeeded. -/
def closeExternalFlash : Host Unit := do
  if !session.profile.spi.isPassthrough then
    Device.disableConfig session.limit
  Device.send .reload
  Device.send .noop

/-- The chip driver is called between preparing and closing. -/
theorem programExternalFlash_eq (driver : ChipDriver) (offset : UInt32) (image : Image) :
    session.programExternalFlash driver offset image = (do
      session.prepareExternalFlash
      (driver offset image.storableBytes ⟨session.job.verify, session.job.unprotect⟩).onHost
        session.profile.spi
      session.closeExternalFlash) := by
  unfold Session.programExternalFlash prepareExternalFlash connectExternalFlash closeExternalFlash
    Device.reload
  cases session.profile.spi.isPassthrough <;>
    simp only [bind_assoc, Bool.not_true, Bool.not_false, Bool.false_eq_true, if_true, if_false]

end Session

/-! ## The state of the device -/

/-- What has happened when the chip driver is called. After the SRAM erase was seen to leave no
design running, its end was marked once more; then the pins were handed over, or the gate was closed
and seen closed. -/
def Connected : SpiEncoding → List Event → Prop
  | .bitBang _ =>
    After (After (After SramJustCleared (Event.Takes .transferDone) Nothing)
      (Event.Takes .noop) Nothing) (Event.Takes .spiBoundaryScan) Nothing
  | .shiftRegister =>
    After (GateJustClosed (After (After SramJustCleared (Event.Takes .transferDone) Nothing)
      (Event.Takes .noop) Nothing)) (Event.Takes .noop) Nothing

namespace Session

variable {session : Session}

/-- With the SRAM just cleared, the pins are handed over in order, and the device is then connected
to the chip. -/
theorem upholds_connectExternalFlash (session : Session) :
    Upholds (safeOrder programming) SramJustCleared session.connectExternalFlash
      fun _ => Connected session.profile.spi := by
  have hsend : ∀ {pre : List Event → Prop} (instruction : Instruction), instruction ∉ guarded →
      Upholds (safeOrder programming) pre (Device.send instruction)
        fun _ => After pre (Event.Takes instruction) Nothing :=
    fun instruction hfree =>
      upholds_send instruction fun past _ => safeOrder_of_unguarded hfree past
  unfold Session.connectExternalFlash
  refine (hsend .transferDone (by decide)).bind fun _ => (hsend .noop (by decide)).bind fun _ => ?_
  cases session.profile.spi with
  | bitBang pins => exact hsend .spiBoundaryScan (by decide)
  | shiftRegister =>
    exact (upholds_disableConfig_justClosed (fun _ => trivial) (fun _ => trivial)
      (fun _ => trivial) session.limit).bind fun _ => hsend .noop (by decide)

/-- The SRAM is erased before the device is connected to the SPI flash. -/
theorem upholds_prepareExternalFlash (session : Session) :
    Upholds (safeOrder programming) Anything session.prepareExternalFlash
      fun _ => Connected session.profile.spi := by
  unfold Session.prepareExternalFlash
  refine (Upholds.silent (Host.sends_setClockFrequency _) keptBy_anything).bind fun _ => ?_
  refine Upholds.bind ((Upholds.unguarded (Host.sends_enableConfig _) keptBy_anything
    (by decide)).tryCatch fun error => (upholds_log _ _).bind fun _ => .throw error) fun _ => ?_
  exact (upholds_eraseSram_justCleared _).bind fun _ => upholds_connectExternalFlash session

/-- A preparation that succeeds has erased the SRAM, and then connected the device. -/
theorem runs_prepareExternalFlash {exchanges : List (Exchange Request Request.Answer)}
    (h : Host.Runs session.prepareExternalFlash exchanges (.ok ())) :
    ∃ opening erasing connecting, exchanges = opening ++ erasing ++ connecting ∧
      Host.Runs (Device.Sram.erase session.limit) erasing (.ok ()) ∧
      Host.Runs session.connectExternalFlash connecting (.ok ()) := by
  obtain ⟨_, clocking, _, rfl, -, h⟩ := h.of_bind
  obtain ⟨_, enabling, _, rfl, -, h⟩ := h.of_bind
  obtain ⟨_, erasing, connecting, rfl, herase, hconnect⟩ := h.of_bind
  exact ⟨clocking ++ enabling, erasing, connecting, by simp, herase, hconnect⟩

/-- The first thing that is asked of the cable is its clock frequency. -/
theorem clock_of_runs {driver : ChipDriver} {offset : UInt32} {image : Image}
    {exchanges : List (Exchange Request Request.Answer)} {result : Except Error Unit}
    (h : Host.Runs (session.programExternalFlash driver offset image) exchanges result) :
    ∃ answer rest,
      exchanges = ⟨.cable (.setClockFrequency externalFlashClock), answer⟩ :: rest := by
  rcases Host.runs_bind_iff.mp h with ⟨_, _, rest, rfl, hfirst, -⟩ | ⟨_, -, hfirst⟩
  · obtain rfl := Dialogue.runs_put_iff.mp hfirst
    exact ⟨_, rest, rfl⟩
  · obtain rfl := Dialogue.runs_put_iff.mp hfirst
    exact ⟨_, [], rfl⟩

/-- The run of a session on an external flash: the preparation fails, or it succeeds and the driver
is run, and the device is closed if that succeeds too. -/
theorem stages_of_runs {driver : ChipDriver} {offset : UInt32} {image : Image}
    {exchanges : List (Exchange Request Request.Answer)} {result : Except Error Unit}
    (h : Host.Runs (session.programExternalFlash driver offset image) exchanges result) :
    (∃ error, result = .error error ∧
        Host.Runs session.prepareExternalFlash exchanges (.error error)) ∨
      ∃ before during after ending, exchanges = before ++ during ++ after ∧
        Host.Runs session.prepareExternalFlash before (.ok ()) ∧
        Host.Runs ((driver offset image.storableBytes
          ⟨session.job.verify, session.job.unprotect⟩).onHost session.profile.spi) during ending ∧
        match ending with
        | .error error => result = .error error ∧ after = []
        | .ok _ => Host.Runs session.closeExternalFlash after result := by
  rw [programExternalFlash_eq] at h
  rcases Host.runs_bind_iff.mp h with ⟨_, before, rest, rfl, hprepare, hrest⟩ | ⟨error, hresult, h⟩
  · refine .inr ⟨before, ?_⟩
    rcases Host.runs_bind_iff.mp hrest with
      ⟨value, during, after, rfl, hdriver, hclose⟩ | ⟨error, hresult, hdriver⟩
    · exact ⟨during, after, .ok value, (List.append_assoc ..).symm, hprepare, hdriver, hclose⟩
    · exact ⟨rest, [], .error error, (List.append_nil _).symm, hprepare, hdriver, hresult, rfl⟩
  · exact .inl ⟨error, hresult, h⟩

/-- A session in flash mode on an external flash runs its chip driver. -/
theorem program_eq_programExternalFlash {image : Image} (himage : session.job.image? = some image)
    (htarget : session.job.target = .flash) (hexternal : session.usesExternalFlash = true)
    (hwrite : session.profile.withoutFlashWrite = false) (offset : UInt32) :
    session.program offset =
      match session.job.chipDriver? with
      | none => throw .noChipDriver
      | some driver =>
        session.programExternalFlash driver offset image >>= fun _ => pure .skipped := by
  have hoffered : ¬ session.profile.withoutFlashWrite = true := by
    rw [hwrite]
    exact Bool.false_ne_true
  unfold Session.program
  rw [himage, htarget]
  cases session.job.chipDriver? with
  | none => exact (if_neg hoffered).trans (if_pos hexternal)
  | some driver => exact (if_neg hoffered).trans (if_pos hexternal)

/-- Programming an external flash brackets the chip driver. Without one nothing is asked of the
cable. Otherwise the first thing asked is a clock of 10 MHz, and either the preparation fails and
the driver is not called, or it is called once, on an erased device that is connected to the flash,
for the offset, the whole bytes of the image and the options of the job. If it fails, nothing more
happens. If it succeeds, the device is closed and reloaded, and there is no usercode to check. -/
theorem run_programExternalFlash {σ : Type} (cable : Cable σ) (filter : LogFilter) (device : σ)
    {session : Session} {image : Image} (himage : session.job.image? = some image)
    (htarget : session.job.target = .flash) (hexternal : session.usesExternalFlash = true)
    (hwrite : session.profile.withoutFlashWrite = false) (offset : UInt32) :
    let outcome := Host.run cable filter (session.program offset) device
    (session.job.chipDriver? = none →
      outcome.result = .error .noChipDriver ∧ outcome.exchanges = []) ∧
    ∀ driver, session.job.chipDriver? = some driver →
      (∃ answer rest,
        outcome.exchanges = ⟨.cable (.setClockFrequency 10000000), answer⟩ :: rest) ∧
      ((∃ error, outcome.result = .error error ∧
          Host.Runs session.prepareExternalFlash outcome.exchanges (.error error)) ∨
        ∃ before during after ending, outcome.exchanges = before ++ during ++ after ∧
          Host.Runs session.prepareExternalFlash before (.ok ()) ∧
          (∃ opening erasing connecting, before = opening ++ erasing ++ connecting ∧
            Host.Runs (Device.Sram.erase session.limit) erasing (.ok ()) ∧
            Host.Runs session.connectExternalFlash connecting (.ok ())) ∧
          Connected session.profile.spi (({} : Trace).extend before).events ∧
          Host.Runs ((driver offset
              (image.data.take (min (image.bitLength / 8) image.data.length))
              ⟨session.job.verify, session.job.unprotect⟩).onHost session.profile.spi)
            during ending ∧
          match ending with
          | .error error => outcome.result = .error error ∧ after = []
          | .ok _ => ∃ closing, Host.Runs session.closeExternalFlash after closing ∧
            outcome.result = closing.map fun _ => .skipped) := by
  intro outcome
  have hruns : Host.Runs (session.program offset) outcome.exchanges outcome.result :=
    Host.runs_run cable filter (session.program offset) device
  rw [program_eq_programExternalFlash himage htarget hexternal hwrite] at hruns
  refine ⟨fun hnone => ?_, fun driver hdriver => ?_⟩
  · rw [hnone] at hruns
    obtain ⟨hexchanges, hresult⟩ := Host.runs_throw_iff.mp hruns
    exact ⟨hresult, hexchanges⟩
  · rw [hdriver] at hruns
    obtain ⟨finished, hflow, hresult⟩ := hruns.of_bind_pure
    refine ⟨clock_of_runs hflow, ?_⟩
    rcases stages_of_runs hflow with
      ⟨error, rfl, hprepare⟩ | ⟨before, during, after, ending, hsplit, hprepare, hdriver, hend⟩
    · exact .inl ⟨error, hresult, hprepare⟩
    · -- The order knows what a preparation that succeeds has shown, from the start of the run.
      have hupholds : Upholds (safeOrder true) Anything session.prepareExternalFlash
          fun _ => Connected session.profile.spi := upholds_prepareExternalFlash session
      have hconnected : Connected session.profile.spi (({} : Trace).extend before).events :=
        (hupholds hprepare {} trivial).2 () rfl
      refine .inr ⟨before, during, after, ending, hsplit, hprepare,
        runs_prepareExternalFlash hprepare, hconnected, hdriver, ?_⟩
      cases ending with
      | error error => exact ⟨by rw [hresult, hend.1]; rfl, hend.2⟩
      | ok _ => exact ⟨finished, hend, hresult⟩

/-- A driver that sets the write-enable latch of the chip is called on a device whose SPI pins were
handed over, and is given the three bytes of the image. -/
theorem run_programExternalFlash_latch :
    let image := Image.ofRaw [1, 2, 3]
    let driver : ChipDriver := fun _ _ _ => do let _ ← Spi.command 0x06 none none
    let session := ofJob 0x0900281B
      { target := .flash, externalFlash := true, verify := true, image? := some image,
        chipDriver? := some driver }
    let outcome := Host.run Simulator.cable none (session.program 4096) (Simulator.powerUp {})
    outcome.result = .ok .skipped ∧
      ∃ before during after, outcome.exchanges = before ++ during ++ after ∧
        Connected (.bitBang .standard) (({} : Trace).extend before).events ∧
        Host.Runs ((driver 4096 [1, 2, 3] ⟨true, false⟩).onHost (.bitBang .standard)) during
          (.ok ()) ∧
        Host.Runs session.closeExternalFlash after (.ok ()) := by
  intro image driver session outcome
  have hok : outcome.result = .ok .skipped := by decide +kernel
  have himage : session.job.image? = some image := rfl
  obtain ⟨-, hdriver⟩ := run_programExternalFlash Simulator.cable none (Simulator.powerUp {})
    himage rfl rfl rfl 4096
  obtain ⟨-, ⟨error, herror, -⟩ | ⟨before, during, after, ending, hsplit, -, -, hconnected, hduring,
    hend⟩⟩ := hdriver driver rfl
  · cases hok.symm.trans herror
  · refine ⟨hok, before, during, after, hsplit, hconnected, ?_⟩
    cases ending with
    | error error => cases hok.symm.trans hend.1
    | ok _ =>
      obtain ⟨closing, hclosing, hresult⟩ := hend
      cases closing with
      | error error => cases hok.symm.trans hresult
      | ok _ => exact ⟨hduring, hclosing⟩

end Session

end FpgaProgrammer
