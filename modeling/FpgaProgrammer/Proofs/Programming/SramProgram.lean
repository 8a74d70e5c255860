import FpgaProgrammer.Proofs.Programming.SramLoad
import FpgaProgrammer.Session

/-!
# Programming the SRAM of the simulated device

A session that works on SRAM erases it, loads the image and compares the usercode. Whatever state
it finds the device in, its result is `Simulator.sramResult`, and the device is left as
`Simulator.sramOutcome` says:

* `ends_verifyUsercode`: comparing the usercode ends with `Session.verdict`.
* `ends_eraseAndLoad`, `ends_programSram`: the operation as a whole. It is given up if the erase
  takes too long (`ends_programSram_of_slow`).
* `program_sram`: what this means for the result, the flags and the SRAM, and that nothing is left
  pending that could make the next attempt fail as this one may have.
-/

namespace FpgaProgrammer

/-- What comparing a usercode with the checksum of the image comes to. -/
def Session.verdict (session : Session) (image : Image) (usercode : UInt32) :
    Device.UsercodeCheck :=
  if session.profile.withoutChecksum then .skipped
  else if Device.usercodeMatches image usercode then .agrees
  else .differs usercode image.checksum

/-- The usercode that is the checksum of the image stands for it. -/
theorem Session.verdict_checksum (session : Session) (image : Image) :
    session.verdict image image.checksum.toUInt32 =
      if session.profile.withoutChecksum then .skipped else .agrees := by
  have hmatches : Device.usercodeMatches image image.checksum.toUInt32 = true := by
    simp [Device.usercodeMatches]
  unfold verdict
  rw [if_pos hmatches]

namespace Simulator

variable (filter : LogFilter) {sim : Simulator}

/-- Comparing the usercode changes nothing. -/
theorem ends_verifyUsercode (sim : Simulator) (session : Session) (image : Image) :
    ∃ after, Ends filter (session.verifyUsercode image) sim
        (.ok (session.verdict image sim.usercode)) after ∧ Traffic sim after := by
  unfold Session.verifyUsercode Session.verdict
  by_cases hwithout : session.profile.withoutChecksum = true
  · rw [if_pos hwithout, if_pos hwithout]
    exact ⟨sim, ends_pure .., .refl sim⟩
  · rw [if_neg hwithout, if_neg hwithout]
    obtain ⟨after, hread, htraffic⟩ := ends_readUsercode filter sim
    refine ⟨after, hread.bind ?_, htraffic⟩
    by_cases hmatches : Device.usercodeMatches image sim.usercode = true
    · rw [if_pos hmatches, if_pos hmatches]
      exact (ends_log ..).bind (ends_pure ..)
    · rw [if_neg hmatches, if_neg hmatches]
      exact (ends_log ..).bind ((ends_log ..).bind (ends_pure ..))

/-! ## Erasing and loading -/

/-- How programming the SRAM ends. -/
def sramResult (sim : Simulator) (session : Session) (image : Image) :
    Except Error Device.UsercodeCheck :=
  if sim.DesignReturns then .error (.eraseFailed .sram)
  else if image.checksum = checksum16 image.streamedBytes then
    .ok (session.verdict image (sim.config.usercode?.getD image.checksum.toUInt32))
  else .error (.writeFailed .sram)

/-- The device after its SRAM was programmed. -/
def sramOutcome (sim : Simulator) (image : Image) : Simulator :=
  if sim.DesignReturns then sim.cleared.execute .configDisable
  else (sim.cleared.execute .configDisable).loaded image

/-- Once the gate was closed, nothing is pending, also if the load was not begun. -/
theorem settled_sramOutcome (sim : Simulator) (image : Image) :
    (sim.sramOutcome image).Settled := by
  unfold sramOutcome loaded
  split <;> exact settled_configDisable _

/-- Programming the SRAM makes no other device of it. -/
theorem config_sramOutcome (sim : Simulator) (image : Image) :
    (sim.sramOutcome image).config = sim.config := by
  unfold sramOutcome loaded
  split
  · exact config_execute ..
  · rw [config_execute, config_execute]
    exact config_execute ..

/-- The erase makes up for whatever an SRAM erase can make up for: devices which agree once they
are cleared are programmed alike. -/
theorem sramResult_of_cleared {after : Simulator} (h : Traffic sim.cleared after.cleared)
    (session : Session) (image : Image) :
    after.sramResult session image = sim.sramResult session image ∧
      Traffic (sim.sramOutcome image) (after.sramOutcome image) := by
  -- Whether a design returns is read off what lasts, and clearing does not touch it.
  have hreturns : after.DesignReturns = sim.DesignReturns :=
    h.watched.read DesignReturns fun _ => rfl
  have hconfig : after.config = sim.config := h.watched.read config fun _ => rfl
  have herased := h.execute .configDisable
  unfold sramResult sramOutcome
  rw [hconfig]
  by_cases hsim : sim.DesignReturns
  · have hafter : after.DesignReturns := hreturns ▸ hsim
    rw [if_pos hsim, if_pos hsim, if_pos hafter, if_pos hafter]
    exact ⟨rfl, herased⟩
  · have hafter : ¬ after.DesignReturns := hreturns ▸ hsim
    rw [if_neg hsim, if_neg hsim, if_neg hafter, if_neg hafter]
    exact ⟨rfl, herased.loaded image⟩

/-- Erasing the SRAM, loading the image and comparing the usercode. -/
theorem ends_eraseAndLoad (sim : Simulator) (session : Session) (image : Image)
    (hstuck : sim.config.stuckEditMode = false) (hlimit : sim.config.eraseLatency < session.limit) :
    ∃ after, Ends filter
        (do
          Device.Sram.erase session.limit
          Device.Sram.load image
          let check ← session.verifyUsercode image
          Device.logStatus "after program sram"
          pure check) sim (sim.sramResult session image) after ∧
      Traffic (sim.sramOutcome image) after := by
  obtain ⟨erased, herase, herased⟩ := ends_eraseSram filter sim hstuck hlimit
  unfold sramResult sramOutcome
  by_cases hreturns : sim.DesignReturns
  · rw [if_pos hreturns] at herase ⊢
    rw [if_pos hreturns]
    exact ⟨erased, herase.bind_error, herased⟩
  · rw [if_neg hreturns] at herase ⊢
    rw [if_neg hreturns]
    -- No design returned, so the erased device has nothing pending that the load could meet.
    have hconfig : erased.config = sim.config :=
      (herased.watched.read config fun _ => rfl).trans (config_execute ..)
    have hidle := (passing_cleared_configDisable sim).1
    have hsettled := settled_configDisable sim.cleared
    obtain ⟨filled, hload, hfilled⟩ := ends_loadSram filter (by rw [hconfig]; exact hstuck)
      (herased.countdown_eq.trans hidle) image
    have hfilled := (herased.loaded image).trans hfilled
    rw [(herased.loaded image).watched.read doneFinal fun _ => rfl] at hload
    by_cases hchecksum : image.checksum = checksum16 image.streamedBytes
    · rw [loaded_of_eq hsettled hchecksum, if_pos rfl] at hload
      rw [if_pos hchecksum]
      obtain ⟨verified, hverify, hverified⟩ := ends_verifyUsercode filter filled session image
      have husercode : filled.usercode = sim.config.usercode?.getD image.checksum.toUInt32 := by
        rw [hfilled.watched.read usercode fun _ => rfl, loaded_of_eq hsettled hchecksum]
        exact congrArg (fun config => config.usercode?.getD image.checksum.toUInt32)
          (config_execute ..)
      rw [husercode] at hverify
      have hverified := hfilled.trans hverified
      obtain ⟨after, hlog, hlogged⟩ := ends_logStatus_of_idle filter
        (hverified.countdown_eq.trans ((eraseCountdown_loaded _ image).trans hidle))
        "after program sram"
      exact ⟨after, herase.bind (hload.bind (hverify.bind (hlog.bind (ends_pure ..)))),
        hverified.trans hlogged⟩
    · have hdone : ((sim.cleared.execute .configDisable).loaded image).doneFinal = false := by
        rw [loaded_of_ne hsettled hchecksum]
        exact Bool.eq_false_of_not_eq_true
          (mt (doneFinal_cleared_configDisable sim).mp hreturns)
      rw [hdone, if_neg Bool.false_ne_true] at hload
      rw [if_neg hchecksum]
      exact ⟨filled, herase.bind hload.bind_error, hfilled⟩

/-- Programming the SRAM ends like erasing and loading. Families that may go on reporting a bad
command are reloaded before, which changes nothing that the erase does not make up for. -/
theorem ends_prepareSram (sim : Simulator) (session : Session) (image : Image) :
    ∃ prepared, Traffic sim.cleared prepared.cleared ∧
      ∀ {result : Except Error Device.UsercodeCheck} {after : Simulator},
        Ends filter
          (do
            Device.Sram.erase session.limit
            Device.Sram.load image
            let check ← session.verifyUsercode image
            Device.logStatus "after program sram"
            pure check) prepared result after →
        Ends filter (session.programSram image) sim result after := by
  obtain ⟨logged, hlog, hlogged⟩ := ends_logStatus filter sim "before program sram"
  have hcleared := traffic_cleared hlogged.lasting_eq
  unfold Session.programSram
  -- A reload and the wait after it are traffic to a device that is going to be cleared.
  by_cases hreload : session.profile.reloadBeforeLoad = true
  · rw [if_pos hreload]
    obtain ⟨booted, hboot, hbooted, -⟩ := ends_reload filter logged
    have hwaited := (hbooted.trans (traffic_inState booted .runTestIdle)).trans
      (traffic_toggleClock (.inr TapState.noConfusion) 1000000)
    have hprepared := traffic_cleared hwaited.lasting_eq
    exact ⟨_, hcleared.trans hprepared, fun hends =>
      hlog.bind (hboot.bind ((ends_setState ..).bind ((ends_toggleClock ..).bind hends)))⟩
  · rw [if_neg hreload]
    exact ⟨logged, hcleared, fun hends => hlog.bind hends⟩

/-- How programming the SRAM ends, and what device it leaves. -/
theorem ends_programSram (session : Session) (image : Image)
    (hstuck : sim.config.stuckEditMode = false) (hlimit : sim.config.eraseLatency < session.limit) :
    ∃ after, Ends filter (session.programSram image) sim (sim.sramResult session image) after ∧
      Traffic (sim.sramOutcome image) after := by
  obtain ⟨prepared, hprepared, hprepare⟩ := ends_prepareSram filter sim session image
  have hconfig : prepared.config = sim.config := hprepared.watched.read config fun _ => rfl
  obtain ⟨hresult, houtcome⟩ := sramResult_of_cleared hprepared session image
  obtain ⟨after, hends, htraffic⟩ := ends_eraseAndLoad filter prepared session image
    (by rw [hconfig]; exact hstuck) (by rw [hconfig]; exact hlimit)
  exact ⟨after, hprepare (hresult ▸ hends), houtcome.trans htraffic⟩

/-- If the erase takes longer than the session is ready to wait, nothing is loaded. -/
theorem ends_programSram_of_slow (session : Session) (image : Image)
    (hstuck : sim.config.stuckEditMode = false) (hlimit : 0 < session.limit)
    (hslow : session.limit ≤ sim.config.eraseLatency) :
    ∃ after, Ends filter (session.programSram image) sim (.error .timeout) after := by
  obtain ⟨prepared, hprepared, hprepare⟩ := ends_prepareSram filter sim session image
  have hconfig : prepared.config = sim.config := hprepared.watched.read config fun _ => rfl
  obtain ⟨after, herase⟩ := ends_eraseSram_of_slow filter prepared
    (by rw [hconfig]; exact hstuck) hlimit (by rw [hconfig]; exact hslow)
  exact ⟨after, hprepare herase.bind_error⟩

/-! ## The operation as a whole -/

/-- Programming the SRAM of any device that is not stuck, in whatever state it was left. It fails
to erase exactly if closing the gate brings a design up. Otherwise it fails to load exactly if the
checksum of the image is not the one of what was streamed; if it is, the device runs what was
streamed, reports only that, and finds the usercode as it should be unless a fixed one is
configured. In every case the device is left so that no design returns the next time. -/
theorem program_sram (session : Session) (htarget : session.job.target = .sram) {image : Image}
    (himage : session.job.image? = some image) (hstuck : sim.config.stuckEditMode = false)
    (hlimit : sim.config.eraseLatency < session.limit) (offset : UInt32) :
    let outcome := Host.run cable filter (session.program offset) sim
    (outcome.result = .error (.eraseFailed .sram) ↔ sim.DesignReturns) ∧
    (¬ sim.DesignReturns →
      (image.checksum ≠ checksum16 image.streamedBytes →
        outcome.result = .error (.writeFailed .sram)) ∧
      (image.checksum = checksum16 image.streamedBytes →
        (∃ check, outcome.result = .ok check ∧
          (sim.config.usercode? = none →
            check = if session.profile.withoutChecksum then .skipped else .agrees)) ∧
        outcome.device.sram = image.streamedBytes ∧
        outcome.device.statusFlags = [.doneFinal, .gowinValid] ∧
        outcome.device.eraseCountdown? = none)) ∧
    outcome.device.config = sim.config ∧ ¬ outcome.device.DesignReturns := by
  obtain ⟨after, hends, htraffic⟩ := ends_programSram filter session image hstuck hlimit
  have hprogram : session.program offset = session.programSram image := by
    unfold Session.program
    rw [himage, htarget]
  rw [← hprogram] at hends
  obtain ⟨hresult, hdevice⟩ := hends.run_eq
  intro outcome
  rw [show outcome.result = _ from hresult, show outcome.device = _ from hdevice]
  -- Result and device are known in closed form, and each part of the statement reads something of
  -- them.
  refine ⟨?erase, fun hreturns => ⟨fun hchecksum => ?differs, fun hchecksum => ?loads⟩, ?config,
    ?recovers⟩
  case erase =>
    unfold sramResult
    by_cases hreturns : sim.DesignReturns
    · simp [hreturns]
    · rw [if_neg hreturns]
      split <;> simp [hreturns]
  case differs =>
    rw [sramResult, if_neg hreturns, if_neg hchecksum]
  case loads =>
    have hloaded : sim.sramOutcome image = _ := (if_neg hreturns).trans
      (loaded_of_eq (settled_configDisable sim.cleared) hchecksum)
    rw [hloaded] at htraffic
    obtain ⟨hidle, herased⟩ := passing_cleared_configDisable sim
    refine ⟨⟨_, by rw [sramResult, if_neg hreturns, if_pos hchecksum], fun hnone => ?_⟩,
      htraffic.watched.read sram fun _ => rfl, ?_, htraffic.countdown_eq.trans hidle⟩
    · rw [hnone]
      exact session.verdict_checksum image
    · rw [htraffic.statusFlags_eq]
      unfold statusFlags
      simp [received, herased]
  case config => exact (htraffic.watched.read config fun _ => rfl).trans (config_sramOutcome ..)
  case recovers =>
    exact ((settled_sramOutcome sim image).watched htraffic.watched).not_designReturns

/-- An open gate, a running SRAM erase, and an erase of the embedded flash that was begun and never
given a pulse do not keep an image from being loaded. With a load that waits to start, the first
attempt fails to erase. -/
theorem program_sram_leftover :
    let session := Session.ofJob 0x0900281B
      { target := .sram, pollLimit := 3, image? := some (Bitstream.ofData [1, 2, 3]).toImage }
    let sim : Simulator :=
      { powerUp {} with editMode := true, eraseCountdown? := some 9, eraseArmed := true }
    let loads := Host.run cable (some .trace) (session.program 0) sim
    let fails := Host.run cable (some .trace) (session.program 0) { sim with sramValid := true }
    loads.result = .ok .agrees ∧ loads.device.sram = [1, 2, 3] ∧
      fails.result = .error (.eraseFailed .sram) ∧ ¬ fails.device.DesignReturns := by
  intro session sim loads fails
  have hreturns : ¬ sim.DesignReturns := by decide
  have hstuck : sim.config.stuckEditMode = false := rfl
  have hstuck' : ({ sim with sramValid := true } : Simulator).config.stuckEditMode = false := rfl
  obtain ⟨-, hloads, -⟩ := program_sram (some .trace) session rfl rfl hstuck (by decide) 0
  obtain ⟨⟨check, hresult, hcheck⟩, hsram, -⟩ := (hloads hreturns).2 rfl
  obtain ⟨hfails, -, -, hrecovers⟩ :=
    program_sram (some .trace) session rfl rfl hstuck' (by decide) 0
  rw [hcheck rfl] at hresult
  exact ⟨hresult, hsram, hfails.mpr (.inl rfl), hrecovers⟩

end Simulator

end FpgaProgrammer
