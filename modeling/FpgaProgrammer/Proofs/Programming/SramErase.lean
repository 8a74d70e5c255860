import FpgaProgrammer.Device.Sram
import FpgaProgrammer.Proofs.Simulator.Gate

/-!
# Erasing the SRAM of the simulated device

Whatever state the device is in, the erase stops the running design and closes the gate. What the
device was left with decides whether that is the end of it:

* `Simulator.DesignReturns` says that closing the gate brings a design up: an SRAM load was waiting
  to start, or an erase of the embedded flash was under way that does not take.
* `Settled` says that nothing of the kind is pending, as is the case whenever the gate was closed
  (`settled_configDisable`).
* `ends_eraseSram`: the erase fails exactly if the design returns, and leaves the device with the
  gate closed and nothing pending.
* `ends_eraseSram_of_slow`: an erase that takes longer than the host waits is given up.
-/

namespace FpgaProgrammer.Simulator

variable {sim after : Simulator}

/-! ## What may be pending -/

/-- Closing the gate brings a design up: an SRAM load waits to start, or an attempt to erase the
embedded flash is under way that does not take, while there is a design to boot from. -/
def DesignReturns (sim : Simulator) : Prop :=
  sim.sramValid = true ∨ (sim.eraseArmed = true ∧ ¬ sim.EraseTakes ∧ sim.hasBootSource = true)

instance (sim : Simulator) : Decidable sim.EraseTakes :=
  inferInstanceAs (Decidable (_ ∧ _))

instance (sim : Simulator) : Decidable sim.DesignReturns :=
  inferInstanceAs (Decidable (_ ∨ _))

/-- Neither an SRAM load waits to start, nor is an erase of the embedded flash under way. -/
structure Settled (sim : Simulator) : Prop where
  /-- No attempt to erase the embedded flash is under way. -/
  unarmed : sim.eraseArmed = false
  /-- No SRAM load waits to start. -/
  unloaded : sim.sramValid = false

/-- If nothing is pending, closing the gate does nothing else. -/
theorem Settled.configDisable (h : sim.Settled) :
    sim.execute .configDisable = { sim with editMode := false } := by
  dsimp only [execute]
  rw [finishErase_of_unarmed { sim with editMode := false } h.unarmed, startLoaded,
    if_neg (by simp [h.unloaded])]

/-- If nothing is pending, no design returns. -/
theorem Settled.not_designReturns (h : sim.Settled) : ¬ sim.DesignReturns := by
  rintro (hvalid | ⟨harmed, -, -⟩)
  · exact Bool.false_ne_true (h.unloaded.symm.trans hvalid)
  · exact Bool.false_ne_true (h.unarmed.symm.trans harmed)

/-- Reads of the status leave nothing pending. -/
theorem Settled.watched (h : sim.Settled) (hwatched : Watched sim after) : after.Settled :=
  ⟨(hwatched.read eraseArmed fun _ => rfl).trans h.unarmed,
    (hwatched.read sramValid fun _ => rfl).trans h.unloaded⟩

/-- Once the gate was closed, nothing is pending. -/
theorem settled_configDisable (sim : Simulator) : (sim.execute .configDisable).Settled := by
  refine ⟨eraseArmed_configDisable sim, ?_⟩
  dsimp only [execute]
  unfold startLoaded
  split
  · rfl
  · rename_i hvalid
    exact Bool.eq_false_of_not_eq_true hvalid

/-! ## The erase -/

/-- The device with its SRAM erased and the gate still open. -/
def cleared (sim : Simulator) : Simulator :=
  { sim with
    editMode := true
    doneFinal := false
    gowinValid := false
    memoryErased := false
    eraseCountdown? := none }

/-- An erase makes up for reads of the status. -/
theorem traffic_cleared (h : after.lasting = sim.lasting) : Traffic sim.cleared after.cleared := by
  have hcleared : ∀ sim : Simulator, sim.cleared.lasting = sim.lasting.cleared.lasting :=
    fun _ => rfl
  exact ⟨by rw [hcleared, h, ← hcleared], rfl, rfl⟩

/-- Once the SRAM is erased, a design runs after the gate was closed exactly if one returns. -/
theorem doneFinal_cleared_configDisable (sim : Simulator) :
    (sim.cleared.execute .configDisable).doneFinal = true ↔ sim.DesignReturns := by
  -- A load that waits starts whatever the erase of the flash comes to.
  have hstart : ∀ sim : Simulator,
      sim.startLoaded.doneFinal = true ↔ sim.sramValid = true ∨ sim.doneFinal = true := by
    intro sim
    unfold startLoaded
    split <;> rename_i hvalid <;> simp [hvalid]
  dsimp only [execute]
  rw [hstart, DesignReturns]
  by_cases harmed : sim.eraseArmed = true
  · by_cases htakes : sim.EraseTakes
    · rw [finishErase_of_takes { sim.cleared with editMode := false } harmed htakes]
      simp [cleared, htakes]
    · rw [finishErase_of_not_takes { sim.cleared with editMode := false } harmed htakes]
      exact or_congr Iff.rfl ⟨fun hboot => ⟨harmed, htakes, hboot⟩, fun h => h.2.2⟩
  · rw [finishErase_of_unarmed { sim.cleared with editMode := false }
      (Bool.eq_false_of_not_eq_true harmed)]
    simp [cleared, harmed]

/-- Once the SRAM is erased and the gate closed, no SRAM erase is running or reported. -/
theorem passing_cleared_configDisable (sim : Simulator) :
    (sim.cleared.execute .configDisable).eraseCountdown? = none ∧
      (sim.cleared.execute .configDisable).memoryErased = false :=
  (passing_execute sim.cleared Instruction.noConfusion Instruction.noConfusion).2

variable (filter : LogFilter)

/-- The erase begins: the gate opens, and the device has as many reads of its status to go as its
latency says. What lasts of it is already that of a cleared device. -/
theorem ends_beginErase (sim : Simulator) (hstuck : sim.config.stuckEditMode = false) {limit : Nat}
    (hlimit : 0 < limit) :
    ∃ running, running.lasting = sim.cleared.lasting ∧
      running.eraseCountdown? = some sim.config.eraseLatency ∧ running.memoryErased = false ∧
      ∀ {next : Host Unit} {result : Except Error Unit} {after : Simulator},
        Ends filter next running result after →
        Ends filter
          (do
            Host.log .info "Erase SRAM"
            Device.logStatus "before erase sram"
            Device.enableConfig limit
            Device.send .eraseSram
            Device.send .noop
            next) sim result after := by
  obtain ⟨logged, hlog, hlogged⟩ := ends_logStatus filter sim "before erase sram"
  have hstuck' : logged.config.stuckEditMode = false :=
    (hlogged.read (config · |>.stuckEditMode) fun _ => rfl).trans hstuck
  obtain ⟨opened, hopen, hopened⟩ := ends_enableConfig filter hstuck' hlimit
  have hopened : Watched (sim.execute .configEnable) opened :=
    (hlogged.execute .configEnable).trans hopened
  rw [execute_configEnable hstuck] at hopened
  -- The gate is open, so the device takes the instruction.
  have hstarted : opened.execute .eraseSram =
      { opened with
        doneFinal := false
        gowinValid := false
        memoryErased := false
        eraseCountdown? := some opened.config.eraseLatency } :=
    if_pos (hopened.read editMode fun _ => rfl)
  have hlatency : opened.config.eraseLatency = sim.config.eraseLatency := by
    rw [hopened.read config fun _ => rfl]
  have hrunning : Traffic (opened.execute .eraseSram)
      ((opened.took Instruction.eraseSram.opcode).took Instruction.noop.opcode) :=
    (traffic_took opened .eraseSram).took .noop
  refine ⟨_, hrunning.lasting_eq.trans (hopened.execute .eraseSram).lasting_eq, ?_,
    hrunning.erased_eq.trans (congrArg memoryErased hstarted), fun hnext =>
      (ends_log ..).bind (hlog.bind (hopen.bind ((ends_send ..).bind ((ends_send ..).bind
        hnext))))⟩
  rw [hrunning.countdown_eq, hstarted, hlatency]

/-- An erase that takes longer than the host is ready to wait is given up. -/
theorem ends_eraseSram_of_slow (sim : Simulator) (hstuck : sim.config.stuckEditMode = false)
    {limit : Nat} (hlimit : 0 < limit) (hslow : limit ≤ sim.config.eraseLatency) :
    ∃ after, Ends filter (Device.Sram.erase limit) sim (.error .timeout) after := by
  obtain ⟨running, -, hcountdown, herased, hbegin⟩ := ends_beginErase filter sim hstuck hlimit
  obtain ⟨after, hwait⟩ := ends_awaitErased_of_slow filter hcountdown herased hslow
  exact ⟨after, hbegin hwait.bind_error⟩

/-- Up to its check the erase always succeeds. It leaves the device with its SRAM erased and the
gate closed. -/
theorem ends_eraseSram (sim : Simulator) (hstuck : sim.config.stuckEditMode = false) {limit : Nat}
    (hlimit : sim.config.eraseLatency < limit) :
    ∃ after, Ends filter (Device.Sram.erase limit) sim
        (if sim.DesignReturns then .error (.eraseFailed .sram) else .ok ()) after ∧
      Traffic (sim.cleared.execute .configDisable) after := by
  obtain ⟨running, hrunning, hcountdown, herased, hbegin⟩ :=
    ends_beginErase filter sim hstuck (Nat.zero_lt_of_lt hlimit)
  obtain ⟨waited, hwait, hwaited⟩ := ends_awaitErased filter hcountdown herased hlimit
  -- The end of the transfer takes back the report of the erase. From here on nothing depends on how
  -- often the status was read, nor on how far an earlier erase had come.
  have hcleared : Traffic sim.cleared
      ((waited.took Instruction.transferDone.opcode).took Instruction.noop.opcode) := by
    have hdone : Traffic sim.cleared (waited.execute .transferDone) :=
      ⟨hwaited.lasting_eq.trans hrunning, hwaited.countdown_eq, rfl⟩
    exact (hdone.trans (traffic_took waited .transferDone)).took .noop
  obtain ⟨closed, hclose, hclosed⟩ := ends_disableConfig filter
    ((waited.took Instruction.transferDone.opcode).took Instruction.noop.opcode)
    (Nat.zero_lt_of_lt hlimit)
  have hidle := (passing_cleared_configDisable sim).1
  have hsettled := hcleared.execute .configDisable
  have hclosed : Traffic (sim.cleared.execute .configDisable) closed :=
    hsettled.trans (hclosed.traffic (hsettled.countdown_eq.trans hidle))
  obtain ⟨noted, hnote, hnoted⟩ :=
    ends_logStatus_of_idle filter (hclosed.countdown_eq.trans hidle) "after erase sram"
  have hnoted := hclosed.trans hnoted
  obtain ⟨read, hread, htraffic⟩ :=
    ends_readStatus_of_idle filter (hnoted.countdown_eq.trans hidle)
  rw [hnoted.status_eq] at hread
  refine ⟨read, ?_, hnoted.trans htraffic⟩
  refine hbegin (hwait.bind ((ends_send ..).bind ((ends_send ..).bind (hclose.bind (hnote.bind
    (hread.bind ?_))))))
  dsimp only
  -- The last read of the status decides, and it shows whether a design has returned.
  have hdone : (sim.cleared.execute .configDisable).status.has .doneFinal =
      decide sim.DesignReturns := by
    rw [has_status, Bool.eq_iff_iff, decide_eq_true_iff]
    exact doneFinal_cleared_configDisable sim
  rw [hdone]
  by_cases hreturns : sim.DesignReturns
  · rw [if_pos hreturns, if_pos (decide_eq_true hreturns)]
    exact (ends_log ..).bind (ends_throw ..)
  · rw [if_neg hreturns, if_neg (by simp [hreturns])]
    exact ends_log ..

end FpgaProgrammer.Simulator
