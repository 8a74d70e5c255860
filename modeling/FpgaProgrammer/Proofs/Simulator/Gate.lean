import FpgaProgrammer.Proofs.Bytes.Words
import FpgaProgrammer.Proofs.Simulator.Calls

/-!
# Registers and the gate of the simulated device

What reading the registers, waiting for a status, and opening and closing the configuration gate
do to the simulated device, up to further reads of its status (`Watched`):

* `ends_readStatus`: a read shows the flags and brings a running SRAM erase nearer to its end.
* `ends_awaitStatus_of_now`: a wait for something that is already so is over after one read.
  `ends_awaitErased`, `ends_awaitErased_of_slow`: a wait for the end of an SRAM erase is over if it
  may read the status more often than the erase takes, and gives up otherwise.
* `ends_enableConfig`, `ends_disableConfig`, `ends_reload`: the gate, and booting.
-/

namespace FpgaProgrammer.Simulator

variable (filter : LogFilter) {sim : Simulator}

/-! ## Registers -/

/-- A register that answers with the bytes of a word is read as that word. -/
theorem ends_readRegister (code : UInt8) {word : UInt32} {after : Simulator}
    (h : (sim.took code).scan ⟨some [0xFF, 0xFF, 0xFF, 0xFF], some 4, 32, .runTestIdle⟩ =
      (Bytes.ofWordLE word, after)) :
    Ends filter (Device.readRegister code) sim (.ok word) (after.inState .runTestIdle) := by
  refine (ends_sendOpcode ..).bind ((ends_shiftDr ..).bind ?_)
  rw [h]
  have hword : Bytes.wordLE (Bytes.fit 4 (Bytes.ofWordLE word)) = word := by
    rw [Bytes.fit, Bytes.fitWith_of_length (by rfl), Bytes.wordLE_ofWordLE]
  show Ends filter (pure (Bytes.wordLE (Bytes.fit 4 (Bytes.ofWordLE word)))) _ _ _
  rw [hword]
  exact ends_pure ..

/-- A read of the usercode register. -/
theorem ends_readUsercode (sim : Simulator) :
    ∃ after, Ends filter Device.readUsercode sim (.ok sim.usercode) after ∧ Traffic sim after := by
  have htook := traffic_took sim .readUsercode
  have husercode := htook.watched.read usercode fun _ => rfl
  have hscan : (sim.took Instruction.readUsercode.opcode).scan
      ⟨some [0xFF, 0xFF, 0xFF, 0xFF], some 4, 32, .runTestIdle⟩ =
      (Bytes.ofWordLE sim.usercode, sim.took Instruction.readUsercode.opcode) := by
    rw [scan, ir_took, Instruction.ofOpcode?_opcode, husercode]
    rfl
  exact ⟨_, ends_readRegister filter _ hscan, htook.trans (traffic_inState ..)⟩

/-! ## The status -/

/-- A read of the status register shows the status, and brings a running SRAM erase nearer to its
end. -/
theorem ends_readStatus (sim : Simulator) :
    ∃ after, Ends filter Device.readStatus sim (.ok sim.readStatus.1) after ∧
      Traffic sim.readStatus.2 after := by
  have htook : Traffic sim (sim.took Instruction.readStatus.opcode) :=
    traffic_took sim .readStatus
  have hread := htook.readStatus
  have hstatus : (sim.took Instruction.readStatus.opcode).readStatus.1 = sim.readStatus.1 :=
    hread.status_eq
  have hscan : (sim.took Instruction.readStatus.opcode).scan
      ⟨some [0xFF, 0xFF, 0xFF, 0xFF], some 4, 32, .runTestIdle⟩ =
      (Bytes.ofWordLE sim.readStatus.1.bits,
        (sim.took Instruction.readStatus.opcode).readStatus.2) := by
    rw [scan, ir_took, Instruction.ofOpcode?_opcode, ← hstatus]
    rfl
  exact ⟨_, (ends_readRegister filter _ hscan).bind (ends_pure ..),
    hread.trans (traffic_inState ..)⟩

/-- A read of the status leaves the device as its scan does, outside of Shift-DR. -/
theorem Ends.eq_of_readStatus {filter : LogFilter} {after : Simulator}
    {result : Except Error Status} (h : Ends filter Device.readStatus sim result after) :
    after = ((sim.took Instruction.readStatus.opcode).scan
      ⟨some [0xFF, 0xFF, 0xFF, 0xFF], some 4, 32, .runTestIdle⟩).2.inState .runTestIdle := by
  have hread : Ends filter Device.readStatus sim _ _ :=
    Ends.bind ((ends_sendOpcode ..).bind ((ends_shiftDr ..).bind (ends_pure ..))) (ends_pure ..)
  exact (hread.unique h).2

/-- A read of the status changes nothing that lasts. -/
theorem Ends.watched_of_readStatus {filter : LogFilter} {after : Simulator}
    {result : Except Error Status} (h : Ends filter Device.readStatus sim result after) :
    Watched sim after := by
  obtain ⟨_, hread, htraffic⟩ := ends_readStatus filter sim
  obtain ⟨-, rfl⟩ := hread.unique h
  exact (Watched.of_readStatus sim).trans htraffic.watched

/-- A read of the status shows the same before and after traffic. -/
theorem ends_readStatus_of_traffic {after : Simulator} (h : Traffic sim after) :
    ∃ read, Ends filter Device.readStatus after (.ok sim.readStatus.1) read ∧
      Traffic sim.readStatus.2 read := by
  obtain ⟨read, hends, htraffic⟩ := ends_readStatus filter after
  have hstatus : after.readStatus.1 = sim.readStatus.1 := h.readStatus.status_eq
  rw [hstatus] at hends
  exact ⟨read, hends, h.readStatus.trans htraffic⟩

/-- Apart from the end of an SRAM erase, a read shows the flags as they are. -/
theorem has_readStatus (sim : Simulator) {flag : StatusFlag} (hflag : flag ≠ .memoryErase) :
    sim.readStatus.1.has flag = sim.shows flag := by
  have hshows : sim.readStatus.2.shows flag = sim.shows flag := by
    have hlasting := (Watched.of_readStatus sim).lasting_eq
    cases flag with
    | memoryErase => exact absurd rfl hflag
    | systemEditMode => exact read_lasting hlasting editMode fun _ => rfl
    | doneFinal => exact read_lasting hlasting doneFinal fun _ => rfl
    | gowinValid => exact read_lasting hlasting gowinValid fun _ => rfl
    | powerOnReset => exact read_lasting hlasting powerOnReset fun _ => rfl
    | _ => rfl
  exact (has_status ..).trans hshows

/-- Reading the status for the log leaves the device as it was if nothing is recorded, and otherwise
as any other read leaves it. -/
theorem ends_logStatus_cases (sim : Simulator) (occasion : String) :
    (filter.records .debug = false ∧ Ends filter (Device.logStatus occasion) sim (.ok ()) sim) ∨
      (filter.records .debug = true ∧
        ∃ status after, Ends filter Device.readStatus sim (.ok status) after ∧
          Ends filter (Device.logStatus occasion) sim (.ok ()) after) := by
  -- Whatever flags are set, naming them is messages only.
  have hflags : ∀ (flags : List StatusFlag) (sim : Simulator),
      Ends filter (flags.forM fun flag => Host.log .debug ("\t" ++ flag.label)) sim (.ok ())
        sim := by
    intro flags
    induction flags with
    | nil => exact fun sim => ends_pure ..
    | cons flag flags ih => exact fun sim => (ends_log ..).bind (ih sim)
  unfold Device.logStatus
  cases hrecords : filter.records .debug with
  | false =>
    refine .inl ⟨rfl, (ends_records ..).bind ?_⟩
    rw [hrecords]
    exact ends_pure ..
  | true =>
    obtain ⟨after, hread, -⟩ := ends_readStatus filter sim
    refine .inr ⟨rfl, _, after, hread, (ends_records ..).bind ?_⟩
    rw [hrecords]
    exact hread.bind ((ends_log ..).bind (hflags _ after))

/-- Reading the status for the log changes nothing that lasts. -/
theorem ends_logStatus (sim : Simulator) (occasion : String) :
    ∃ after, Ends filter (Device.logStatus occasion) sim (.ok ()) after ∧ Watched sim after := by
  obtain ⟨-, hends⟩ | ⟨-, status, after, hread, hends⟩ := ends_logStatus_cases filter sim occasion
  · exact ⟨sim, hends, .refl sim⟩
  · exact ⟨after, hends, hread.watched_of_readStatus⟩

section Idle

/-- While no SRAM erase is running, a read of the status changes nothing. -/
theorem ends_readStatus_of_idle (hidle : sim.eraseCountdown? = none) :
    ∃ after, Ends filter Device.readStatus sim (.ok sim.status) after ∧ Traffic sim after := by
  have hread : sim.readStatus = (sim.status, sim) := by
    unfold readStatus
    rw [hidle]
  obtain ⟨after, hends, htraffic⟩ := ends_readStatus filter sim
  rw [hread] at hends htraffic
  exact ⟨after, hends, htraffic⟩

/-- While no SRAM erase is running, reading the status for the log changes nothing. -/
theorem ends_logStatus_of_idle (hidle : sim.eraseCountdown? = none) (occasion : String) :
    ∃ after, Ends filter (Device.logStatus occasion) sim (.ok ()) after ∧ Traffic sim after := by
  obtain ⟨after, hends, hwatched⟩ := ends_logStatus filter sim occasion
  exact ⟨after, hends, hwatched.traffic hidle⟩

end Idle

/-! ## Waiting -/

/-- A wait is over at the first read that shows the expected values. -/
theorem ends_awaitStatus_of_now {mask expected : Status} {limit : Nat} (hlimit : 0 < limit)
    (hnow : (sim.readStatus.1.bits &&& mask.bits == expected.bits) = true) :
    ∃ after, Ends filter (Device.awaitStatus mask expected limit) sim (.ok ()) after ∧
      Traffic sim.readStatus.2 after := by
  obtain ⟨limit, rfl⟩ := Nat.exists_eq_succ_of_ne_zero (Nat.ne_of_gt hlimit)
  obtain ⟨after, hread, htraffic⟩ := ends_readStatus filter sim
  refine ⟨after, hread.bind ((ends_log ..).bind ?_), htraffic⟩
  rw [if_pos hnow]
  exact ends_pure ..

/-- A read while an SRAM erase goes on does not show its end, but brings it nearer. -/
theorem readStatus_of_running {left : Nat} (hcountdown : sim.eraseCountdown? = some (left + 1))
    (herased : sim.memoryErased = false) :
    sim.readStatus.2 = { sim with eraseCountdown? := some left } ∧
      sim.readStatus.1.has .memoryErase = false := by
  have hread : sim.readStatus.2 = { sim with eraseCountdown? := some left } := by
    unfold readStatus
    rw [hcountdown]
  refine ⟨hread, ?_⟩
  show sim.readStatus.2.status.has .memoryErase = false
  rw [has_status, hread]
  exact herased

/-- A wait for the end of a running SRAM erase is over if it may read the status more often than
the erase takes. -/
theorem ends_awaitErased {limit left : Nat} (hcountdown : sim.eraseCountdown? = some left)
    (herased : sim.memoryErased = false) (hlimit : left < limit) :
    ∃ after, Ends filter
        (Device.awaitStatus (Device.only .memoryErase) (Device.only .memoryErase) limit) sim
        (.ok ()) after ∧
      Traffic { sim with eraseCountdown? := none, memoryErased := true } after := by
  -- On the reads that are allowed: each brings the countdown one nearer to its end.
  induction limit generalizing sim left with
  | zero => exact absurd hlimit (Nat.not_lt_zero left)
  | succ limit ih =>
    cases left with
    | zero =>
      have hread : sim.readStatus.2 =
          { sim with eraseCountdown? := none, memoryErased := true } := by
        unfold readStatus
        rw [hcountdown]
      have hshows : sim.readStatus.1.has .memoryErase = true := by
        show sim.readStatus.2.status.has .memoryErase = true
        rw [has_status, hread]
        rfl
      obtain ⟨after, hends, htraffic⟩ := ends_awaitStatus_of_now filter (Nat.succ_pos limit)
        ((Status.and_mask_eq_mask ..).trans hshows)
      exact ⟨after, hends, hread ▸ htraffic⟩
    | succ left =>
      obtain ⟨hread, hshows⟩ := readStatus_of_running hcountdown herased
      obtain ⟨middle, hends, htraffic⟩ := ends_readStatus filter sim
      rw [hread] at htraffic
      obtain ⟨after, hrest, htraffic'⟩ := ih htraffic.countdown_eq
        (htraffic.erased_eq.trans herased) (Nat.lt_of_succ_lt_succ hlimit)
      refine ⟨after, hends.bind ((ends_log ..).bind ?_), ?_⟩
      · rw [if_neg (by rw [Status.and_mask_eq_mask, hshows]; decide)]
        exact hrest
      · -- The erase ends alike, whether the read before is counted as traffic or not.
        have hfinished : Traffic { sim with eraseCountdown? := none, memoryErased := true }
            { middle with eraseCountdown? := none, memoryErased := true } :=
          ⟨htraffic.lasting_eq, rfl, rfl⟩
        exact hfinished.trans htraffic'

/-- A wait for the end of a running SRAM erase gives up if it may not read the status more often
than the erase takes. -/
theorem ends_awaitErased_of_slow {limit left : Nat} (hcountdown : sim.eraseCountdown? = some left)
    (herased : sim.memoryErased = false) (hlimit : limit ≤ left) :
    ∃ after, Ends filter
      (Device.awaitStatus (Device.only .memoryErase) (Device.only .memoryErase) limit) sim
      (.error .timeout) after := by
  induction limit generalizing sim left with
  | zero => exact ⟨sim, (ends_log ..).bind (ends_throw ..)⟩
  | succ limit ih =>
    obtain ⟨left, rfl⟩ := Nat.exists_eq_add_one.mpr (Nat.zero_lt_of_lt hlimit)
    obtain ⟨hread, hshows⟩ := readStatus_of_running hcountdown herased
    obtain ⟨middle, hends, htraffic⟩ := ends_readStatus filter sim
    rw [hread] at htraffic
    obtain ⟨after, hrest⟩ := ih htraffic.countdown_eq (htraffic.erased_eq.trans herased)
      (Nat.le_of_succ_le_succ hlimit)
    refine ⟨after, hends.bind ((ends_log ..).bind ?_)⟩
    rw [if_neg (by rw [Status.and_mask_eq_mask, hshows]; decide)]
    exact hrest

/-- A wait that succeeds has read the status at least once, and one that showed the expected
values. -/
theorem Ends.of_awaitStatus {filter : LogFilter} {mask expected : Status} {limit : Nat}
    {after : Simulator}
    (h : Ends filter (Device.awaitStatus mask expected limit) sim (.ok ()) after) :
    0 < limit ∧ ∃ shown, Watched sim shown ∧
      (shown.readStatus.1.bits &&& mask.bits == expected.bits) = true := by
  induction limit generalizing sim with
  | zero =>
    have hthrown := h.rest (ends_log ..)
    cases (hthrown.unique (ends_throw ..)).1
  | succ limit ih =>
    refine ⟨Nat.succ_pos limit, ?_⟩
    obtain ⟨read, hread, htraffic⟩ := ends_readStatus filter sim
    have hrest := (h.rest hread).rest (ends_log ..)
    split at hrest
    · rename_i hshown
      exact ⟨sim, .refl sim, hshown⟩
    · obtain ⟨-, shown, hwatched, hshown⟩ := ih hrest
      exact ⟨shown, ((Watched.of_readStatus sim).trans htraffic.watched).trans hwatched, hshown⟩

/-! ## The gate -/

/-- The gate opens, unless the device is stuck. -/
theorem execute_configEnable (hstuck : sim.config.stuckEditMode = false) :
    sim.execute .configEnable = { sim with editMode := true } :=
  if_neg (by rw [hstuck]; exact Bool.false_ne_true)

/-- Opening the gate succeeds, unless the device is stuck. -/
theorem ends_enableConfig (hstuck : sim.config.stuckEditMode = false) {limit : Nat}
    (hlimit : 0 < limit) :
    ∃ after, Ends filter (Device.enableConfig limit) sim (.ok ()) after ∧
      Watched (sim.execute .configEnable) after := by
  have hopened := traffic_took sim .configEnable
  have hshows : (sim.took Instruction.configEnable.opcode).readStatus.1.has .systemEditMode =
      true := by
    rw [has_readStatus _ StatusFlag.noConfusion]
    exact (hopened.watched.read editMode fun _ => rfl).trans
      (congrArg editMode (execute_configEnable hstuck))
  obtain ⟨after, hends, hwaited⟩ := ends_awaitStatus_of_now filter hlimit
    ((Status.and_mask_eq_mask ..).trans hshows)
  exact ⟨after, (ends_send ..).bind hends,
    (hopened.watched.trans (.of_readStatus _)).trans hwaited.watched⟩

/-- If opening the gate succeeds, the gate has opened. -/
theorem Ends.of_enableConfig {filter : LogFilter} {limit : Nat} {after : Simulator}
    (h : Ends filter (Device.enableConfig limit) sim (.ok ()) after) :
    0 < limit ∧ (sim.execute .configEnable).editMode = true := by
  obtain ⟨hlimit, shown, hwatched, hshown⟩ := (h.rest (ends_send ..)).of_awaitStatus
  rw [Status.and_mask_eq_mask, has_readStatus _ StatusFlag.noConfusion] at hshown
  have hopened := (traffic_took sim .configEnable).watched.trans hwatched
  exact ⟨hlimit, (hopened.read editMode fun _ => rfl).symm.trans hshown⟩

/-- Closing the gate succeeds. -/
theorem ends_disableConfig (sim : Simulator) {limit : Nat} (hlimit : 0 < limit) :
    ∃ after, Ends filter (Device.disableConfig limit) sim (.ok ()) after ∧
      Watched (sim.execute .configDisable) after := by
  -- The pause after the instruction is one more instruction, without an effect.
  have hclosed : Traffic (sim.execute .configDisable)
      ((sim.took Instruction.configDisable.opcode).took Instruction.noop.opcode) :=
    (traffic_took sim .configDisable).took .noop
  have hshows : ((sim.took Instruction.configDisable.opcode).took
      Instruction.noop.opcode).readStatus.1.has .systemEditMode = false := by
    rw [has_readStatus _ StatusFlag.noConfusion]
    exact (hclosed.watched.read editMode fun _ => rfl).trans (editMode_configDisable sim)
  obtain ⟨after, hends, hwaited⟩ := ends_awaitStatus_of_now filter hlimit
    ((Status.and_mask_eq_nothing ..).trans (congrArg not hshows))
  exact ⟨after, (ends_send ..).bind ((ends_send ..).bind hends),
    (hclosed.watched.trans (.of_readStatus _)).trans hwaited.watched⟩

/-- Booting from flash. -/
theorem ends_reload (sim : Simulator) :
    ∃ after, Ends filter Device.reload sim (.ok ()) after ∧ Traffic sim.reload after ∧
      after.tap = .runTestIdle :=
  ⟨_, (ends_send ..).bind (ends_send ..),
    (traffic_took sim .reload).took .noop, rfl⟩

end FpgaProgrammer.Simulator
