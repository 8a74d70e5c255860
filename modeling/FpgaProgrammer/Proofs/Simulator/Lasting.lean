import FpgaProgrammer.Proofs.Simulator.Status
import FpgaProgrammer.Simulator.Step

/-!
# What the simulated device keeps

Some of the state of the device changes with every call: the instruction register, the TAP state,
the clock and the counts of what was received. The progress of a running SRAM erase changes with
every read of the status. What is left is `Simulator.lasting`, and the effect of an instruction on
it depends on it alone (`lasting_execute`).

* `Traffic sim after` says that nothing has come upon `sim` but traffic.
* `Watched sim after` says that its status may have been read as well: what lasts is the same, and
  everything is if no SRAM erase was running.

Both are kept by every instruction (`Traffic.execute`, `Watched.execute`), so that runs which
differ in how often the status was read can be followed side by side.

The gate closes in one of three ways while an erase of the embedded flash may be under way:
`finishErase_of_unarmed`, `finishErase_of_takes` and `finishErase_of_not_takes`.
-/

namespace FpgaProgrammer.Simulator

variable {sim middle after : Simulator}

/-! ## Closing the gate -/

/-- The attempt to erase the embedded flash that is under way takes when the gate closes: enough
pulses were given, and enough attempts have failed before. -/
def EraseTakes (sim : Simulator) : Prop :=
  sim.profile.erasePulses ≤ sim.pulses ∧ sim.config.stubbornErases ≤ sim.eraseLog.size

/-- Without an attempt under way the embedded flash is left alone. -/
theorem finishErase_of_unarmed (sim : Simulator) (h : sim.eraseArmed = false) :
    sim.finishErase = sim := by
  simp [finishErase, h]

/-- An attempt that takes erases every page, and no design runs any more. -/
theorem finishErase_of_takes (sim : Simulator) (h : sim.eraseArmed = true)
    (htakes : sim.EraseTakes) :
    sim.finishErase =
      { sim with
        eraseArmed := false
        eraseLog := sim.eraseLog.push sim.pulses
        pages := ∅
        doneFinal := false
        gowinValid := false } := by
  -- The attempt counts itself: its pulses are logged before the log is measured.
  have hlog : sim.config.stubbornErases < (sim.eraseLog.push sim.pulses).size := by
    rw [Array.size_push]
    exact Nat.lt_succ_of_le htakes.2
  rw [finishErase, if_neg (by simp [h])]
  exact if_pos ⟨htakes.1, hlog⟩

/-- After an attempt that does not take, the device boots again from what it holds. -/
theorem finishErase_of_not_takes (sim : Simulator) (h : sim.eraseArmed = true)
    (htakes : ¬ sim.EraseTakes) :
    sim.finishErase =
      { sim with eraseArmed := false, eraseLog := sim.eraseLog.push sim.pulses }.reload := by
  rw [finishErase, if_neg (by simp [h])]
  refine if_neg fun hboth => htakes ⟨hboth.1, ?_⟩
  have hlog := hboth.2
  rw [Array.size_push] at hlog
  exact Nat.le_of_lt_succ hlog

/-- Whether it takes or not, an erase that comes to its end touches nothing but its own traces, the
pages, and the design that runs. -/
theorem finishErase_frame (sim : Simulator) :
    ∃ eraseArmed eraseLog pages doneFinal gowinValid, sim.finishErase =
      { sim with eraseArmed, eraseLog, pages, doneFinal, gowinValid } := by
  by_cases h : sim.eraseArmed = true
  · by_cases htakes : sim.EraseTakes
    · exact ⟨_, _, _, _, _, finishErase_of_takes sim h htakes⟩
    · exact ⟨_, _, _, _, _, finishErase_of_not_takes sim h htakes⟩
  · exact ⟨_, _, _, _, _, finishErase_of_unarmed sim (Bool.eq_false_of_not_eq_true h)⟩

/-- The gate closes upon an attempt to erase the embedded flash. -/
theorem eraseArmed_finishErase (sim : Simulator) : sim.finishErase.eraseArmed = false := by
  by_cases harmed : sim.eraseArmed = true
  · by_cases htakes : sim.EraseTakes
    · rw [finishErase_of_takes sim harmed htakes]
    · rw [finishErase_of_not_takes sim harmed htakes]
      rfl
  · rw [finishErase_of_unarmed sim (Bool.eq_false_of_not_eq_true harmed)]
    exact Bool.eq_false_of_not_eq_true harmed

/-- Closing the gate touches nothing else but the load that may start. -/
theorem configDisable_frame (sim : Simulator) :
    ∃ eraseArmed eraseLog pages doneFinal gowinValid powerOnReset sramValid,
      sim.execute .configDisable =
        { sim with
          editMode := false
          eraseArmed, eraseLog, pages, doneFinal, gowinValid, powerOnReset, sramValid } := by
  obtain ⟨_, _, _, _, _, hfinish⟩ := finishErase_frame { sim with editMode := false }
  dsimp only [execute]
  rw [hfinish]
  unfold startLoaded
  split <;> exact ⟨_, _, _, _, _, _, _, rfl⟩

/-- The gate is closed after it was closed. -/
theorem editMode_configDisable (sim : Simulator) :
    (sim.execute .configDisable).editMode = false := by
  obtain ⟨_, _, _, _, _, _, _, hframe⟩ := configDisable_frame sim
  rw [hframe]

/-- Closing the gate ends an attempt to erase the embedded flash. -/
theorem eraseArmed_configDisable (sim : Simulator) :
    (sim.execute .configDisable).eraseArmed = false := by
  have hunarmed := eraseArmed_finishErase { sim with editMode := false }
  dsimp only [execute]
  unfold startLoaded
  split <;> exact hunarmed

/-- Closing the gate changes the pages only as the end of an erase does. -/
theorem pages_configDisable_eq (sim : Simulator) :
    (sim.execute .configDisable).pages = { sim with editMode := false }.finishErase.pages := by
  dsimp only [execute]
  unfold startLoaded
  split <;> rfl

/-- An attempt that takes erases every page when the gate closes. -/
theorem pages_configDisable_of_takes (harmed : sim.eraseArmed = true) (htakes : sim.EraseTakes) :
    (sim.execute .configDisable).pages = ∅ := by
  rw [pages_configDisable_eq, finishErase_of_takes { sim with editMode := false } harmed htakes]

/-- Otherwise the pages are left alone. -/
theorem pages_configDisable_of_not_takes (h : ¬ (sim.eraseArmed = true ∧ sim.EraseTakes)) :
    (sim.execute .configDisable).pages = sim.pages := by
  rw [pages_configDisable_eq]
  by_cases harmed : sim.eraseArmed = true
  · rw [finishErase_of_not_takes { sim with editMode := false } harmed (h ⟨harmed, ·⟩)]
    rfl
  · rw [finishErase_of_unarmed { sim with editMode := false }
      (Bool.eq_false_of_not_eq_true harmed)]

/-- Closing the gate leaves the pages alone, or erases them all. -/
theorem pages_configDisable (sim : Simulator) :
    (sim.execute .configDisable).pages = sim.pages ∨ (sim.execute .configDisable).pages = ∅ := by
  by_cases h : sim.eraseArmed = true ∧ sim.EraseTakes
  · exact .inr (pages_configDisable_of_takes h.1 h.2)
  · exact .inl (pages_configDisable_of_not_takes h)

/-- Closing the gate does not change the usercode, even if it starts a design. -/
theorem usercode_configDisable (sim : Simulator) :
    (sim.execute .configDisable).usercode = sim.usercode := by
  obtain ⟨_, _, _, _, _, _, _, hframe⟩ := configDisable_frame sim
  rw [hframe]

/-- Closing the gate does not change the SPI flash. -/
theorem flash_configDisable (sim : Simulator) :
    (sim.execute .configDisable).flash = sim.flash := by
  obtain ⟨_, _, _, _, _, _, _, hframe⟩ := configDisable_frame sim
  rw [hframe]

/-! ## What lasts -/

/-- The device without what comes and goes by itself: the marks of traffic, and the progress of a
running SRAM erase. -/
def lasting (sim : Simulator) : Simulator :=
  { sim with
    frequency := 0
    ir := 0
    tap := .runTestIdle
    history := #[]
    clocks := 0
    slept := 0
    eraseCountdown? := none
    memoryErased := false }

/-- Devices of which the same lasts agree in whatever is read off that. -/
theorem read_lasting {γ : Type} (h : after.lasting = sim.lasting) (field : Simulator → γ)
    (hfield : ∀ sim, field (lasting sim) = field sim) : field after = field sim := by
  rw [← hfield after, h, hfield sim]

/-- How an erase of the embedded flash ends depends on what lasts alone. -/
theorem lasting_finishErase (sim : Simulator) :
    sim.finishErase.lasting = sim.lasting.finishErase := by
  by_cases h : sim.eraseArmed = true
  · by_cases htakes : sim.EraseTakes
    · rw [finishErase_of_takes sim h htakes, finishErase_of_takes sim.lasting h htakes]
      rfl
    · rw [finishErase_of_not_takes sim h htakes, finishErase_of_not_takes sim.lasting h htakes]
      rfl
  · have hunarmed := Bool.eq_false_of_not_eq_true h
    rw [finishErase_of_unarmed sim hunarmed, finishErase_of_unarmed sim.lasting hunarmed]

/-- Whether a loaded design starts depends on what lasts alone. -/
theorem lasting_startLoaded (sim : Simulator) :
    sim.startLoaded.lasting = sim.lasting.startLoaded := by
  unfold startLoaded
  rw [apply_ite lasting]
  rfl

/-- How a checksum compares depends on what lasts alone. -/
theorem lasting_latchChecksum (sim : Simulator) :
    sim.latchChecksum.lasting = sim.lasting.latchChecksum := by
  dsimp only [latchChecksum]
  rw [apply_ite lasting]
  rfl

/-- What lasts of an instruction's effect depends only on what lasts of the device. -/
theorem lasting_execute (sim : Simulator) (instruction : Instruction) :
    (sim.execute instruction).lasting = (sim.lasting.execute instruction).lasting := by
  cases instruction with
  | configDisable =>
    dsimp only [execute]
    rw [lasting_startLoaded, lasting_finishErase, lasting_startLoaded, lasting_finishErase]
    rfl
  | checksumEnd =>
    dsimp only [execute]
    rw [lasting_latchChecksum, lasting_latchChecksum]
    rfl
  | configEnable | eraseSram | flashErase | flashProgram =>
    dsimp only [execute]
    rw [apply_ite lasting, apply_ite lasting]
    rfl
  | _ => rfl

/-! ## What passes -/

/-- Few instructions touch the progress of an SRAM erase, and none the instruction register. -/
theorem passing_execute (sim : Simulator) {instruction : Instruction}
    (herase : instruction ≠ .eraseSram) (hdone : instruction ≠ .transferDone) :
    (sim.execute instruction).ir = sim.ir ∧
      (sim.execute instruction).eraseCountdown? = sim.eraseCountdown? ∧
      (sim.execute instruction).memoryErased = sim.memoryErased := by
  cases instruction with
  | eraseSram => exact absurd rfl herase
  | transferDone => exact absurd rfl hdone
  | configDisable =>
    obtain ⟨_, _, _, _, _, _, _, hframe⟩ := configDisable_frame sim
    rw [hframe]
    exact ⟨rfl, rfl, rfl⟩
  | checksumEnd =>
    dsimp only [execute, latchChecksum]
    split <;> exact ⟨rfl, rfl, rfl⟩
  | configEnable | flashErase | flashProgram =>
    dsimp only [execute]
    split <;> exact ⟨rfl, rfl, rfl⟩
  | _ => exact ⟨rfl, rfl, rfl⟩

/-- No instruction changes the instruction register once it has been received. -/
theorem ir_execute (sim : Simulator) (instruction : Instruction) :
    (sim.execute instruction).ir = sim.ir := by
  by_cases herase : instruction = .eraseSram
  · rw [herase]
    dsimp only [execute]
    split <;> rfl
  · by_cases hdone : instruction = .transferDone
    · rw [hdone]
      rfl
    · exact (passing_execute sim herase hdone).1

/-- The kind of device never changes. -/
theorem config_execute (sim : Simulator) (instruction : Instruction) :
    (sim.execute instruction).config = sim.config := by
  cases instruction with
  | configDisable =>
    obtain ⟨_, _, _, _, _, _, _, hframe⟩ := configDisable_frame sim
    rw [hframe]
  | checksumEnd =>
    dsimp only [execute, latchChecksum]
    split <;> rfl
  | configEnable | eraseSram | flashErase | flashProgram =>
    dsimp only [execute]
    split <;> rfl
  | _ => rfl

/-- An SRAM erase is running after an instruction if it was running before. -/
theorem eraseCountdown_of_execute {instruction : Instruction}
    (h : (sim.execute instruction).eraseCountdown? = none) : sim.eraseCountdown? = none := by
  by_cases herase : instruction = .eraseSram
  · subst herase
    dsimp only [execute] at h
    split at h
    · cases h
    · exact h
  · by_cases hdone : instruction = .transferDone
    · subst hdone
      exact h
    · rw [← (passing_execute sim herase hdone).2.1, h]

/-! ## Devices upon which nothing but traffic has come -/

/-- Nothing has come upon `sim` but traffic. -/
structure Traffic (sim after : Simulator) : Prop where
  /-- What lasts is the same. -/
  lasting_eq : after.lasting = sim.lasting
  /-- A running SRAM erase is as far as before. -/
  countdown_eq : after.eraseCountdown? = sim.eraseCountdown?
  /-- A finished SRAM erase is reported as before. -/
  erased_eq : after.memoryErased = sim.memoryErased

namespace Traffic

theorem refl (sim : Simulator) : Traffic sim sim :=
  ⟨rfl, rfl, rfl⟩

theorem trans (h : Traffic sim middle) (h' : Traffic middle after) : Traffic sim after :=
  ⟨h'.lasting_eq.trans h.lasting_eq, h'.countdown_eq.trans h.countdown_eq,
    h'.erased_eq.trans h.erased_eq⟩

/-- A change of what lasts alone is the same before and after traffic. -/
theorem map (h : Traffic sim after) (change : Simulator → Simulator)
    (hlasting : ∀ sim, (change sim).lasting = change sim.lasting)
    (hpassing : ∀ sim, (change sim).eraseCountdown? = sim.eraseCountdown? ∧
      (change sim).memoryErased = sim.memoryErased) :
    Traffic (change sim) (change after) where
  lasting_eq := by rw [hlasting, h.lasting_eq, ← hlasting]
  countdown_eq := by rw [(hpassing after).1, h.countdown_eq, ← (hpassing sim).1]
  erased_eq := by rw [(hpassing after).2, h.erased_eq, ← (hpassing sim).2]

/-- An instruction has the same effect before and after traffic. -/
theorem execute (h : Traffic sim after) (instruction : Instruction) :
    Traffic (sim.execute instruction) (after.execute instruction) := by
  have hlasting : (after.execute instruction).lasting = (sim.execute instruction).lasting := by
    rw [lasting_execute, h.lasting_eq, ← lasting_execute]
  -- Only the begin of an SRAM erase and the end of a transfer set its progress; every other
  -- instruction hands it on.
  by_cases herase : instruction = .eraseSram
  · subst herase
    have hedit := read_lasting h.lasting_eq editMode fun _ => rfl
    have hconfig := read_lasting h.lasting_eq config fun _ => rfl
    -- Whether the erase begins depends on the gate, and how long it takes on the kind of device.
    refine ⟨hlasting, ?_, ?_⟩ <;>
      · dsimp only [Simulator.execute]
        rw [hedit, hconfig]
        split
        · rfl
        · first | exact h.countdown_eq | exact h.erased_eq
  · by_cases hdone : instruction = .transferDone
    · subst hdone
      exact ⟨hlasting, h.countdown_eq, rfl⟩
    · obtain ⟨-, hcountdown, herased⟩ := passing_execute sim herase hdone
      obtain ⟨-, hcountdown', herased'⟩ := passing_execute after herase hdone
      exact ⟨hlasting, by rw [hcountdown', hcountdown, h.countdown_eq],
        by rw [herased', herased, h.erased_eq]⟩

/-- The same flags are set before and after traffic. -/
theorem statusFlags_eq (h : Traffic sim after) : after.statusFlags = sim.statusFlags := by
  have hedit := read_lasting h.lasting_eq editMode fun _ => rfl
  have hdone := read_lasting h.lasting_eq doneFinal fun _ => rfl
  have hvalid := read_lasting h.lasting_eq gowinValid fun _ => rfl
  have hpower := read_lasting h.lasting_eq powerOnReset fun _ => rfl
  unfold statusFlags
  rw [hedit, hdone, hvalid, hpower, h.erased_eq]

/-- The status shows the same before and after traffic. -/
theorem status_eq (h : Traffic sim after) : after.status = sim.status :=
  congrArg Status.ofFlags h.statusFlags_eq

/-- A read of the status does the same before and after traffic. -/
theorem readStatus (h : Traffic sim after) : Traffic sim.readStatus.2 after.readStatus.2 := by
  have hcountdown := h.countdown_eq
  unfold Simulator.readStatus
  cases hsim : sim.eraseCountdown? with
  | none =>
    rw [hsim] at hcountdown
    simp only [hcountdown]
    exact h
  | some left =>
    rw [hsim] at hcountdown
    simp only [hcountdown]
    cases left with
    | zero => exact ⟨h.lasting_eq, rfl, rfl⟩
    | succ left => exact ⟨h.lasting_eq, rfl, h.erased_eq⟩

end Traffic

/-! ## Devices of which only the status was read -/

/-- Nothing has come upon `sim` but traffic and reads of the status. -/
structure Watched (sim after : Simulator) : Prop where
  /-- What lasts is the same. -/
  lasting_eq : after.lasting = sim.lasting
  /-- Reads of the status change nothing while no SRAM erase is running. -/
  traffic : sim.eraseCountdown? = none → Traffic sim after

/-- A device upon which traffic has come may be taken for one of which the status was read. -/
theorem Traffic.watched (h : Traffic sim after) : Watched sim after :=
  ⟨h.lasting_eq, fun _ => h⟩

namespace Watched

theorem refl (sim : Simulator) : Watched sim sim :=
  (Traffic.refl sim).watched

/-- Looks upon looks are looks: if no erase was running at first, none has begun in between. -/
theorem trans (h : Watched sim middle) (h' : Watched middle after) : Watched sim after where
  lasting_eq := h'.lasting_eq.trans h.lasting_eq
  traffic hnone := by
    -- If no SRAM erase was running at first, none is running in between.
    have hmiddle := h.traffic hnone
    exact hmiddle.trans (h'.traffic (hmiddle.countdown_eq.trans hnone))

/-- Whatever is read off what lasts is the same. -/
theorem read {γ : Type} (h : Watched sim after) (field : Simulator → γ)
    (hfield : ∀ sim, field (lasting sim) = field sim) : field after = field sim :=
  read_lasting h.lasting_eq field hfield

/-- A change of what lasts alone is the same before and after the status was read. -/
theorem map (h : Watched sim after) (change : Simulator → Simulator)
    (hlasting : ∀ sim, (change sim).lasting = change sim.lasting)
    (hpassing : ∀ sim, (change sim).eraseCountdown? = sim.eraseCountdown? ∧
      (change sim).memoryErased = sim.memoryErased) :
    Watched (change sim) (change after) where
  lasting_eq := by rw [hlasting, h.lasting_eq, ← hlasting]
  traffic hnone := (h.traffic ((hpassing sim).1.symm.trans hnone)).map change hlasting hpassing

/-- An instruction has the same effect before and after the status was read. -/
theorem execute (h : Watched sim after) (instruction : Instruction) :
    Watched (sim.execute instruction) (after.execute instruction) where
  lasting_eq := by rw [lasting_execute, h.lasting_eq, ← lasting_execute]
  traffic hnone := (h.traffic (eraseCountdown_of_execute hnone)).execute instruction

/-- Looking at the status changes nothing that lasts, and nothing at all while no SRAM erase is
running. -/
theorem of_readStatus (sim : Simulator) : Watched sim sim.readStatus.2 := by
  unfold Simulator.readStatus
  cases h : sim.eraseCountdown? with
  | none => exact .refl sim
  | some left => cases left <;> exact ⟨rfl, fun hnone => by cases h.symm.trans hnone⟩

end Watched

end FpgaProgrammer.Simulator
