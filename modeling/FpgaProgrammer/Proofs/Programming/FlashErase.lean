import FpgaProgrammer.Device.EmbeddedFlash
import FpgaProgrammer.Proofs.Instructions.Sent
import FpgaProgrammer.Proofs.Programming.SramErase

/-!
# Erasing the embedded flash of the simulated device

An attempt opens the gate, arms the erase, gives its pulses and closes the gate again.

* `ends_pulse`: every pulse of an armed device counts, and nothing else of it changes.
* `ends_attemptErase`: an attempt leaves an armed device (`Simulator.armed`) whose gate is closed,
  and returns a status that says whether a design runs on it. If the attempt takes, none does
  (`armed_configDisable_of_takes`).
* `ends_eraseFlash`: if an attempt takes at once, one is made and no page is left.
-/

namespace FpgaProgrammer.Simulator

variable (filter : LogFilter) {sim : Simulator}

/-! ## One attempt -/

/-- The device after it counted more pulses. -/
def pulsed (sim : Simulator) (count : Nat) : Simulator :=
  { sim with pulses := sim.pulses + count }

/-- An armed device counts a walk through Shift-DR as a pulse. -/
theorem traffic_walk (harmed : sim.eraseArmed = true) :
    Traffic (sim.pulsed 1)
      (((sim.inState .shiftDr).toggleClock 32).inState .runTestIdle) := by
  have hpulses : ((sim.inState .shiftDr).toggleClock 32).pulses = sim.pulses + 1 := by
    unfold toggleClock inState
    simp [harmed]
  -- Apart from the count, the walk leaves marks of traffic only.
  have hwalked : ((sim.inState .shiftDr).toggleClock 32).lasting =
      { sim with pulses := ((sim.inState .shiftDr).toggleClock 32).pulses }.lasting := rfl
  refine ⟨?_, rfl, rfl⟩
  rw [hpulses] at hwalked
  exact hwalked

/-- An armed device counts every walk through Shift-DR. -/
theorem ends_pulse (harmed : sim.eraseArmed = true) (htap : sim.tap = .runTestIdle) (count : Nat) :
    ∃ after, Ends filter (Device.EmbeddedFlash.pulse count) sim (.ok ()) after ∧
      Traffic (sim.pulsed count) after ∧ after.tap = .runTestIdle := by
  induction count generalizing sim with
  | zero => exact ⟨sim, ends_pure .., .refl sim, htap⟩
  | succ count ih =>
    have hwalk := (traffic_walk harmed).map (·.pulsed count) (fun _ => rfl) fun _ => ⟨rfl, rfl⟩
    have hsum : (sim.pulsed 1).pulsed count = sim.pulsed (count + 1) := by
      unfold pulsed
      rw [Nat.add_assoc, Nat.add_comm 1]
    have harmed' : (((sim.inState .shiftDr).toggleClock 32).inState
        .runTestIdle).eraseArmed = true := harmed
    obtain ⟨after, hends, htraffic, hidle⟩ := ih harmed' rfl
    exact ⟨after, (ends_setState ..).bind ((ends_toggleClock ..).bind
      ((ends_setState ..).bind hends)), hsum ▸ hwalk.trans htraffic, hidle⟩

/-- The device while an attempt to erase its flash is under way. -/
def armed (sim : Simulator) (pulses : Nat) : Simulator :=
  { sim with editMode := true, eraseArmed := true, pulses }

/-- An attempt to erase the flash runs to its end, whether it takes or not, and returns a status
that shows whether a design runs afterwards. -/
theorem ends_attemptErase (profile : Profile) (hstuck : sim.config.stuckEditMode = false)
    {limit : Nat} (hlimit : 0 < limit) :
    ∃ status after, Ends filter (Device.EmbeddedFlash.attemptErase profile limit) sim
        (.ok status) after ∧
      Watched ((sim.armed profile.erasePulses).execute .configDisable) after ∧
      status.has .doneFinal = after.doneFinal := by
  obtain ⟨logged, hlog, hlogged⟩ := ends_logStatus filter sim "before erase flash"
  have hstuck' : logged.config.stuckEditMode = false :=
    (hlogged.read (config · |>.stuckEditMode) fun _ => rfl).trans hstuck
  obtain ⟨opened, hopen, hopened⟩ := ends_enableConfig filter hstuck' hlimit
  have hopened := (hlogged.execute .configEnable).trans hopened
  rw [execute_configEnable hstuck] at hopened
  -- The erase is armed anew, so the pulses of an earlier attempt do not count.
  have harmed : Watched (sim.armed 0)
      ((opened.took Instruction.flashErase.opcode).inState .runTestIdle) :=
    (hopened.execute .flashErase).trans
      ((traffic_took opened .flashErase).trans (traffic_inState ..)).watched
  obtain ⟨pulsed, hpulse, hpulsed, htap⟩ := ends_pulse filter
    (harmed.read eraseArmed fun _ => rfl) rfl profile.erasePulses
  have hpulsed : Watched (sim.armed (0 + profile.erasePulses)) pulsed :=
    (harmed.map (·.pulsed profile.erasePulses) (fun _ => rfl) fun _ => ⟨rfl, rfl⟩).trans
      hpulsed.watched
  -- The pulses end outside of Shift-DR, so that the wait is no pulse of its own.
  have hwaited := traffic_toggleClock (.inr (by rw [htap]; exact TapState.noConfusion))
    (Device.clocksFor pulsed.frequency 150000)
  obtain ⟨closed, hclose, hclosed⟩ := ends_disableConfig filter
    (pulsed.toggleClock (Device.clocksFor pulsed.frequency 150000)) hlimit
  have hclosed := ((hpulsed.trans hwaited.watched).execute .configDisable).trans hclosed
  rw [Nat.zero_add] at hclosed
  have hslept : Watched closed { closed with slept := closed.slept + (500 : UInt32).toNat } :=
    Traffic.watched ⟨rfl, rfl, rfl⟩
  obtain ⟨read, hread, htraffic⟩ := ends_readStatus filter
    { closed with slept := closed.slept + (500 : UInt32).toNat }
  have hread' := (hslept.trans (.of_readStatus _)).trans htraffic.watched
  refine ⟨_, read, hlog.bind (hopen.bind ((ends_send ..).bind ((ends_setState ..).bind
    (hpulse.bind ((ends_idle ..).bind (hclose.bind ((ends_flush ..).bind
      ((ends_sleep ..).bind hread)))))))), hclosed.trans hread', ?_⟩
  rw [has_readStatus _ StatusFlag.noConfusion]
  exact (hread'.read doneFinal fun _ => rfl).symm

/-! ## The erase -/

/-- The device after an attempt that took. -/
def flashErased (sim : Simulator) (pulses : Nat) : Simulator :=
  { sim with
    editMode := false
    eraseArmed := false
    pulses
    eraseLog := sim.eraseLog.push pulses
    pages := ∅
    doneFinal := false
    gowinValid := false }

/-- What an attempt that took leaves depends only on what lasts of the device. -/
theorem lasting_flashErased {after : Simulator} (h : after.lasting = sim.lasting) (pulses : Nat) :
    (after.flashErased pulses).lasting = (sim.flashErased pulses).lasting := by
  have hlasting : ∀ sim : Simulator,
      (sim.flashErased pulses).lasting = (sim.lasting.flashErased pulses).lasting := fun _ => rfl
  rw [hlasting, h, ← hlasting]

/-- An attempt takes if it gives enough pulses and enough attempts have failed before. -/
theorem armed_configDisable_of_takes {pulses : Nat} (hunloaded : sim.sramValid = false)
    (htakes : (sim.armed pulses).EraseTakes) :
    (sim.armed pulses).execute .configDisable = sim.flashErased pulses := by
  dsimp only [execute]
  rw [finishErase_of_takes { sim.armed pulses with editMode := false } rfl htakes,
    startLoaded]
  exact if_neg (by rw [show (sim.armed pulses).sramValid = false from hunloaded]; decide)

/-- The attempts stop at one that takes. -/
theorem ends_tryErase (profile : Profile) (hstuck : sim.config.stuckEditMode = false)
    {limit : Nat} (hlimit : 0 < limit) (hunloaded : sim.sramValid = false)
    (htakes : (sim.armed profile.erasePulses).EraseTakes) (left made : Nat) :
    ∃ after, Ends filter (Device.EmbeddedFlash.tryErase profile limit (left + 1) made) sim
        (.ok ()) after ∧ Watched (sim.flashErased profile.erasePulses) after := by
  obtain ⟨status, after, hattempt, hafter, hdone⟩ :=
    ends_attemptErase filter profile hstuck hlimit
  rw [armed_configDisable_of_takes hunloaded htakes] at hafter
  refine ⟨after, hattempt.bind ((ends_log ..).bind ((ends_progress ..).bind ?_)), hafter⟩
  rw [hdone, hafter.read doneFinal fun _ => rfl]
  exact ends_pure ..

/-- If an attempt takes at once, the attempts and the check after them succeed, also on a device
that only comes to the same once its flash is erased. -/
theorem ends_emptyFlash {middle : Simulator} (profile : Profile)
    (hstuck : sim.config.stuckEditMode = false) {limit : Nat} (hlimit : 0 < limit)
    (hunloaded : sim.sramValid = false) (htakes : (sim.armed profile.erasePulses).EraseTakes)
    (hmiddle : (middle.flashErased profile.erasePulses).lasting =
      (sim.flashErased profile.erasePulses).lasting) :
    ∃ after, Ends filter (Host.emptyFlash profile limit) middle (.ok ()) after ∧
      after.lasting = (sim.flashErased profile.erasePulses).lasting := by
  -- Both devices are of one kind and have logged the same attempts, so the next one takes on both.
  have hconfig : middle.config = sim.config := read_lasting hmiddle config fun _ => rfl
  have hunloaded' : middle.sramValid = false :=
    (read_lasting hmiddle sramValid fun _ => rfl).trans hunloaded
  have hlog : middle.eraseLog = sim.eraseLog :=
    Array.push_inj_left.mp (read_lasting hmiddle eraseLog fun _ => rfl)
  have htakes' : (middle.armed profile.erasePulses).EraseTakes := by
    refine ⟨?_, ?_⟩
    · show (Profile.ofIdcode middle.config.idcode).erasePulses ≤ _
      rw [hconfig]
      exact htakes.1
    · show middle.config.stubbornErases ≤ middle.eraseLog.size
      rw [hconfig, hlog]
      exact htakes.2
  obtain ⟨erased, herase, herased⟩ := ends_tryErase filter profile
    (by rw [hconfig]; exact hstuck) hlimit hunloaded' htakes' 99 0
  obtain ⟨after, hread, htraffic⟩ := ends_readStatus filter erased
  have hafter := (herased.trans (.of_readStatus _)).trans htraffic.watched
  refine ⟨after, (ends_log ..).bind ((herase.reporting ..).bind (hread.bind ?_)),
    hafter.lasting_eq.trans hmiddle⟩
  rw [has_readStatus _ StatusFlag.noConfusion]
  show Ends filter (if erased.doneFinal = true then _ else _) _ _ _
  rw [herased.read doneFinal fun _ => rfl]
  exact ends_log ..

/-- If an attempt takes at once, the flash is erased, and the SRAM before it if a design runs. Only
then does it matter how long an erase of the SRAM takes. -/
theorem ends_eraseFlash (profile : Profile) (hstuck : sim.config.stuckEditMode = false)
    {limit : Nat} (hlimit : 0 < limit)
    (hlatency : sim.gowinValid = true → sim.config.eraseLatency < limit) (hsettled : sim.Settled)
    (htakes : (sim.armed profile.erasePulses).EraseTakes) :
    ∃ after, Ends filter (Device.EmbeddedFlash.erase profile limit) sim (.ok ()) after ∧
      after.lasting = (sim.flashErased profile.erasePulses).lasting := by
  obtain ⟨looked, hlook, -⟩ := ends_readStatus filter sim
  have hlooked := hlook.watched_of_readStatus
  have hvalid : sim.readStatus.1.has .gowinValid = sim.gowinValid :=
    has_readStatus _ StatusFlag.noConfusion
  have hsettled' := hsettled.watched hlooked
  have hconfig : looked.config = sim.config := hlooked.read config fun _ => rfl
  have hsame := lasting_flashErased hlooked.lasting_eq profile.erasePulses
  rw [Host.eraseFlash_eq]
  cases hruns : sim.gowinValid with
  | true =>
    obtain ⟨emptied, hempty, hemptied⟩ := ends_eraseSram filter looked
      (by rw [hconfig]; exact hstuck) (hconfig ▸ hlatency hruns)
    rw [if_neg hsettled'.not_designReturns] at hempty
    have hclosed : looked.cleared.execute .configDisable =
        { looked.cleared with editMode := false } :=
      Settled.configDisable ⟨hsettled'.unarmed, hsettled'.unloaded⟩
    -- What the SRAM erase clears, an erase of the flash clears as well.
    have hemptied : (emptied.flashErased profile.erasePulses).lasting =
        (looked.flashErased profile.erasePulses).lasting := by
      rw [lasting_flashErased hemptied.lasting_eq, hclosed]
      rfl
    obtain ⟨after, hends, hafter⟩ := ends_emptyFlash filter profile hstuck hlimit
      hsettled.unloaded htakes (hemptied.trans hsame)
    refine ⟨after, hlook.bind ?_, hafter⟩
    rw [hvalid, hruns]
    exact hempty.bind hends
  | false =>
    obtain ⟨after, hends, hafter⟩ := ends_emptyFlash filter profile hstuck hlimit
      hsettled.unloaded htakes hsame
    refine ⟨after, hlook.bind ?_, hafter⟩
    rw [hvalid, hruns]
    exact hends

end FpgaProgrammer.Simulator
