import FpgaProgrammer.Proofs.Simulator.Calls
import FpgaProgrammer.Proofs.Simulator.Scans

/-!
# Devices that differ in the marks of traffic

Two runs that send different numbers of instructions leave devices that differ in their instruction
registers, in the states of their TAP controllers, and in what they have counted. `Twins` are
devices that differ in nothing else: without these marks they are one device (`Twins.unmarked_eq`).

A scan goes through the register that the instruction selects, so twins need not answer alike. The
next instruction brings them `InStep` (`Twins.shiftIr`), and then they answer every call alike
(`InStep.call`).
-/

namespace FpgaProgrammer.Simulator

variable {one other third sim after : Simulator}

/-! ## What is the same -/

/-- The device without the marks that its traffic leaves: the instruction register, the TAP state,
and the counts of instructions and clock pulses. -/
def unmarked (sim : Simulator) : Simulator :=
  { sim with ir := 0, tap := .runTestIdle, history := #[], clocks := 0 }

/-- Two devices that differ in the marks of traffic alone. -/
structure Twins (one other : Simulator) : Prop extends Traffic one other where
  /-- The clock has the same frequency. -/
  frequency_eq : other.frequency = one.frequency
  /-- The same time has passed. -/
  slept_eq : other.slept = one.slept

/-- Twins that also take the next scan into the same register, from the same state of the TAP
controller. -/
structure InStep (one other : Simulator) : Prop extends Twins one other where
  /-- The instruction register holds the same. -/
  ir_eq : other.ir = one.ir
  /-- The TAP controller is in the same state. -/
  tap_eq : other.tap = one.tap

namespace Twins

theorem refl (sim : Simulator) : Twins sim sim :=
  ⟨.refl sim, rfl, rfl⟩

theorem symm (h : Twins one other) : Twins other one :=
  ⟨⟨h.lasting_eq.symm, h.countdown_eq.symm, h.erased_eq.symm⟩, h.frequency_eq.symm, h.slept_eq.symm⟩

theorem trans (h : Twins one other) (h' : Twins other third) : Twins one third :=
  ⟨h.toTraffic.trans h'.toTraffic, h'.frequency_eq.trans h.frequency_eq,
    h'.slept_eq.trans h.slept_eq⟩

/-- A device with its TAP controller in another state. -/
theorem of_inState (sim : Simulator) (state : TapState) : Twins sim (sim.inState state) :=
  ⟨traffic_inState sim state, rfl, rfl⟩

/-- A device after clock pulses, while no erase of the embedded flash counts them. -/
theorem of_toggleClock (h : sim.eraseArmed = false) (cycles : UInt32) :
    Twins sim (sim.toggleClock cycles) :=
  ⟨traffic_toggleClock (.inl h) cycles, rfl, rfl⟩

/-- Without the marks of traffic, twins are one device. -/
theorem unmarked_eq (h : Twins one other) : other.unmarked = one.unmarked := by
  have hlasts : ∀ sim : Simulator, sim.unmarked = { sim.lasting with
      frequency := sim.frequency
      slept := sim.slept
      eraseCountdown? := sim.eraseCountdown?
      memoryErased := sim.memoryErased } := fun _ => rfl
  rw [hlasts, hlasts one, h.lasting_eq, h.frequency_eq, h.slept_eq, h.countdown_eq, h.erased_eq]

end Twins

/-- Devices that are in step differ in their counts. -/
theorem InStep.counts (h : InStep one other) :
    other = { one with history := other.history, clocks := other.clocks } := by
  have hmarks : ∀ sim : Simulator, sim = { sim.unmarked with
      ir := sim.ir, tap := sim.tap, history := sim.history, clocks := sim.clocks } := fun _ => rfl
  calc other = { other.unmarked with
        ir := other.ir, tap := other.tap, history := other.history, clocks := other.clocks } := rfl
    _ = { one.unmarked with
        ir := one.ir, tap := one.tap, history := other.history, clocks := other.clocks } := by
      rw [h.unmarked_eq, h.ir_eq, h.tap_eq]
    _ = { one with history := other.history, clocks := other.clocks } := rfl

/-- Devices that differ in their counts alone are in step. -/
theorem inStep_counts (sim : Simulator) (history : Array UInt8) (clocks : Nat) :
    InStep sim { sim with history, clocks } :=
  ⟨⟨⟨rfl, rfl, rfl⟩, rfl, rfl⟩, rfl, rfl⟩

/-! ## Instructions -/

/-- No instruction changes the clock frequency, or takes time. -/
theorem time_execute (sim : Simulator) (instruction : Instruction) :
    (sim.execute instruction).frequency = sim.frequency ∧
      (sim.execute instruction).slept = sim.slept := by
  cases instruction with
  | configDisable =>
    obtain ⟨_, _, _, _, _, _, _, hframe⟩ := configDisable_frame sim
    rw [hframe]
    exact ⟨rfl, rfl⟩
  | checksumEnd =>
    dsimp only [execute, latchChecksum]
    split <;> exact ⟨rfl, rfl⟩
  | configEnable | eraseSram | flashErase | flashProgram =>
    dsimp only [execute]
    split <;> exact ⟨rfl, rfl⟩
  | _ => exact ⟨rfl, rfl⟩

/-- An instruction has the same effect on twins. -/
theorem Twins.execute (h : Twins one other) (instruction : Instruction) :
    Twins (one.execute instruction) (other.execute instruction) where
  toTraffic := h.toTraffic.execute instruction
  frequency_eq := by rw [(time_execute ..).1, (time_execute ..).1, h.frequency_eq]
  slept_eq := by rw [(time_execute ..).2, (time_execute ..).2, h.slept_eq]

/-- Bits that are shifted into the instruction registers of twins bring them in step. -/
theorem Twins.shiftIr (h : Twins one other) (data : Bytes) (bits : Nat) :
    InStep (cable (.shiftIr data bits) one).2 (cable (.shiftIr data bits) other).2 := by
  let code := data.headD 0
  have hreceived : Twins { one with history := one.history.push code, ir := code }
      { other with history := other.history.push code, ir := code } :=
    ⟨⟨h.lasting_eq, h.countdown_eq, h.erased_eq⟩, h.frequency_eq, h.slept_eq⟩
  have hinstructed : Twins (one.instruct code) (other.instruct code) := by
    unfold instruct
    cases Instruction.ofOpcode? code with
    | none => exact hreceived
    | some instruction => exact hreceived.execute instruction
  refine ⟨⟨⟨hinstructed.lasting_eq, hinstructed.countdown_eq, hinstructed.erased_eq⟩,
    hinstructed.frequency_eq, hinstructed.slept_eq⟩, ?_, rfl⟩
  show (other.instruct code).ir = (one.instruct code).ir
  rw [ir_instruct, ir_instruct]

/-! ## Scans -/

section Counts

variable (sim : Simulator) (history : Array UInt8) (clocks : Nat)

/-- What a vector at the pins does has nothing to do with the counts. -/
theorem drivePins_counts (vector : UInt8) :
    ({ sim with history, clocks } : Simulator).drivePins vector =
      ((sim.drivePins vector).1, { (sim.drivePins vector).2 with history, clocks }) := by
  have hmove : ∀ selected, ({ sim with history, clocks } : Simulator).moveSelect selected =
      { sim.moveSelect selected with history, clocks } := by
    intro selected
    unfold moveSelect
    split
    · rfl
    · split <;> rfl
  have hclock : ∀ (sim : Simulator) (bit : Bool),
      ({ sim with history, clocks } : Simulator).clockIn bit =
        { sim.clockIn bit with history, clocks } := by
    intro sim bit
    dsimp only [clockIn]
    split <;> rfl
  have hpins : ({ sim with history, clocks } : Simulator).pins = sim.pins := rfl
  dsimp only [drivePins]
  rw [hpins, hmove]
  dsimp only
  split
  · rw [hclock]
  · rfl

/-- What a scan does has nothing to do with the counts of instructions and clock pulses. -/
theorem scan_counts (given : Scan) :
    ({ sim with history, clocks } : Simulator).scan given =
      ((sim.scan given).1, { (sim.scan given).2 with history, clocks }) := by
  have hread : ({ sim with history, clocks } : Simulator).readStatus =
      (sim.readStatus.1, { sim.readStatus.2 with history, clocks }) := by
    dsimp only [Simulator.readStatus]
    split <;> rfl
  have hword : ∀ word, ({ sim with history, clocks } : Simulator).receivePageWord word =
      { sim.receivePageWord word with history, clocks } := by
    intro word
    dsimp only [receivePageWord]
    split
    · rfl
    · rfl
    · split <;> rfl
  dsimp only [scan]
  rw [hread]
  simp only [hword, drivePins_counts]
  -- What is left is the same in every register.
  split
  all_goals first | rfl | (split <;> rfl)

end Counts

/-- Devices that are in step answer every call alike, and stay in step. -/
theorem InStep.call (h : InStep one other) (call : CableCall) :
    (cable call other).1 = (cable call one).1 ∧
      InStep (cable call one).2 (cable call other).2 := by
  cases call with
  | shiftIr data bits => exact ⟨rfl, h.toTwins.shiftIr data bits⟩
  | shiftDr given =>
    have hscan := scan_counts one other.history other.clocks given
    rw [← h.counts] at hscan
    refine ⟨?_, ?_⟩
    · show Except.ok (other.scan given).1 = Except.ok (one.scan given).1
      rw [hscan]
    · show InStep ((one.scan given).2.inState _) ((other.scan given).2.inState _)
      rw [hscan]
      exact inStep_counts ((one.scan given).2.inState given.endState) _ _
  | _ =>
    rw [h.counts]
    exact ⟨rfl, inStep_counts ..⟩

end FpgaProgrammer.Simulator
