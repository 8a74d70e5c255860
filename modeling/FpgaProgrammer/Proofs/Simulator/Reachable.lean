import FpgaProgrammer.Proofs.Instructions.Sent
import FpgaProgrammer.Proofs.Simulator.Calls
import FpgaProgrammer.Proofs.Simulator.Scans

/-!
# The states of the simulated device

`Simulator.Reachable` are the states that a simulated device can be brought into: it is built in,
pages are put into its flash, and the cable is called, in any order. Every host program keeps a
device reachable, whatever comes of it (`Reachable.ends`), and so it is at every moment of a run
(`Reachable.replay`).

A device that never enters edit mode has its gate closed in all of these states: `Gated`.
-/

namespace FpgaProgrammer.Simulator

variable {α : Type} {filter : LogFilter} {sim after : Simulator}

/-- The states that a simulated device can be brought into. -/
inductive Reachable : Simulator → Prop where
  /-- The device has just been built in. -/
  | powerUp (config : SimulatorConfig) : Reachable (.powerUp config)
  /-- A page was put into its flash. -/
  | preload {sim : Simulator} (h : Reachable sim) (address : UInt32) (page : Bytes) :
      Reachable (sim.preload address page)
  /-- The cable was called. -/
  | call {sim : Simulator} (h : Reachable sim) (call : CableCall) : Reachable (cable call sim).2

/-- The device after some calls. -/
def calls (sim : Simulator) (calls : List CableCall) : Simulator :=
  calls.foldl (fun sim call => (cable call sim).2) sim

/-- A device that is stuck has its gate closed. -/
def Gated (sim : Simulator) : Prop :=
  sim.config.stuckEditMode = true → sim.editMode = false

/-- The device after the exchanges of a run. -/
def replay (filter : LogFilter) (sim : Simulator)
    (exchanges : List (Exchange Request Request.Answer)) : Simulator :=
  Handler.replay (Host.surroundings cable filter) sim exchanges

/-- A stretch of a run that is a run of `program` is one from the device at its start. -/
theorem Ends.of_stretch {β : Type} {whole : Host β} {program : Host α} {result : Except Error α}
    {before stretch rest : List (Exchange Request Request.Answer)}
    (hsplit : (Host.run cable filter whole sim).exchanges = before ++ stretch ++ rest)
    (hruns : Host.Runs program stretch result) :
    Ends filter program (sim.replay filter before) result (sim.replay filter (before ++ stretch)) :=
  Host.eval_of_stretch hsplit hruns

/-- What every call keeps is kept at every moment of a run. -/
theorem invariant_replay {P : Simulator → Prop} (hcall : ∀ call sim, P sim → P (cable call sim).2)
    (hsim : P sim) (exchanges : List (Exchange Request Request.Answer)) :
    P (sim.replay filter exchanges) := by
  induction exchanges generalizing sim with
  | nil => exact hsim
  | cons exchange exchanges ih =>
    obtain ⟨question, answer⟩ := exchange
    cases question with
    | cable call => exact ih (hcall call sim hsim)
    | _ => exact ih hsim

/-- A device is left where the exchanges of the run have brought it. -/
theorem Ends.replay_eq {program : Host α} {result : Except Error α}
    (h : Ends filter program sim result after) :
    sim.replay filter (Host.run cable filter program sim).exchanges = after := by
  obtain ⟨hruns, hgives⟩ := Host.runs_gives_run cable filter program sim
  exact (congrArg Prod.snd (hruns.run_eq hgives)).symm.trans (congrArg Prod.snd h)

/-- What is kept by every call that sends no other instructions is kept by a program that sends no
other instructions. -/
theorem Ends.invariant_of_sends {P : Simulator → Prop} {allowed : List Instruction}
    {program : Host α} {result : Except Error α} (h : Ends filter program sim result after)
    (hsends : Host.Sends allowed program)
    (hcall : ∀ call sim, (∀ instruction, (Request.cable call).instruction? = some instruction →
      instruction ∈ allowed) → P sim → P (cable call sim).2)
    (hsim : P sim) : P after := by
  have hmem := hsends (Host.runs_run cable filter program sim)
  rw [← h.replay_eq]
  generalize (Host.run cable filter program sim).exchanges = exchanges at hmem
  clear h
  induction exchanges generalizing sim with
  | nil => exact hsim
  | cons exchange exchanges ih =>
    obtain ⟨question, answer⟩ := exchange
    have hrest := fun later hlater => hmem later (List.mem_cons_of_mem _ hlater)
    cases question with
    | cable call => exact ih (hcall call sim (hmem _ List.mem_cons_self) hsim) hrest
    | _ => exact ih hsim hrest

/-- What a call keeps, if the instructions keep it that may be sent, every scan does, and it has
nothing to do with the marks of traffic, the erase pulses and the time. -/
theorem kept_by_call {P : Simulator → Prop} {allowed : List Instruction}
    (hmarks : ∀ (sim : Simulator) frequency ir tap history clocks slept pulses,
      P sim → P { sim with frequency, ir, tap, history, clocks, slept, pulses })
    (hscan : ∀ (sim : Simulator) given, P sim → P (sim.scan given).2)
    (hexecute : ∀ (sim : Simulator), ∀ instruction ∈ allowed, P sim → P (sim.execute instruction))
    (call : CableCall) (sim : Simulator)
    (hsent : ∀ instruction, (Request.cable call).instruction? = some instruction →
      instruction ∈ allowed) (hsim : P sim) : P (cable call sim).2 := by
  have hmarked := hmarks sim
  cases call with
  | shiftIr data bits =>
    -- An opcode that no instruction has is only received.
    have hinstructed : P (sim.instruct (data.headD 0)) := by
      have hreceived := hmarked sim.frequency (data.headD 0) sim.tap
        (sim.history.push (data.headD 0)) sim.clocks sim.slept sim.pulses hsim
      unfold instruct
      cases hcode : Instruction.ofOpcode? (data.headD 0) with
      | none => exact hreceived
      | some instruction => exact hexecute _ instruction (hsent instruction hcode) hreceived
    exact hmarks _ _ _ .runTestIdle _ _ _ _ hinstructed
  | shiftDr given => exact hmarks _ _ _ given.endState _ _ _ _ (hscan sim given hsim)
  | setState state => exact hmarked _ _ state _ _ _ _ hsim
  | toggleClock cycles => exact hmarked _ _ _ _ _ _ _ hsim
  | setClockFrequency hertz => exact hmarked hertz _ _ _ _ _ _ hsim
  | sleep milliseconds => exact hmarked _ _ _ _ _ _ _ hsim
  | _ => exact hsim

/-- What all instructions keep as well is kept by every call. -/
theorem kept_by_every_call {P : Simulator → Prop}
    (hmarks : ∀ (sim : Simulator) frequency ir tap history clocks slept pulses,
      P sim → P { sim with frequency, ir, tap, history, clocks, slept, pulses })
    (hscan : ∀ (sim : Simulator) given, P sim → P (sim.scan given).2)
    (hexecute : ∀ (sim : Simulator) instruction, P sim → P (sim.execute instruction))
    (call : CableCall) (sim : Simulator) (hsim : P sim) : P (cable call sim).2 := by
  have hall : ∀ instruction : Instruction, instruction ∈ Instruction.all := by
    intro instruction
    cases instruction <;> decide
  exact kept_by_call hmarks hscan (fun sim instruction _ => hexecute sim instruction) call sim
    (fun instruction _ => hall instruction) hsim

namespace Reachable

/-- Every host program keeps a device reachable. -/
theorem ends {program : Host α} {result : Except Error α} (h : sim.Reachable)
    (hends : Ends filter program sim result after) : after.Reachable :=
  hends.invariant (fun call _ hsim => hsim.call call) h

/-- A device is reachable after any calls. -/
theorem calls (h : sim.Reachable) (calls : List CableCall) : (sim.calls calls).Reachable := by
  induction calls generalizing sim with
  | nil => exact h
  | cons call calls ih => exact ih (h.call call)

/-- A device is reachable at every moment of a run. -/
theorem replay (h : sim.Reachable) (exchanges : List (Exchange Request Request.Answer)) :
    (sim.replay filter exchanges).Reachable :=
  invariant_replay (fun call _ hsim => hsim.call call) h exchanges

end Reachable

/-! ## The gate of a stuck device -/

/-- What a scan can change is neither the kind of device nor its gate. -/
theorem gate_scan (sim : Simulator) (given : Scan) :
    (sim.scan given).2.config = sim.config ∧ (sim.scan given).2.editMode = sim.editMode := by
  obtain ⟨_, _, _, _, _, _, _, _, _, hframe, -⟩ := scan_frame sim given
  rw [hframe]
  exact ⟨rfl, rfl⟩

/-- No call changes the kind of device. -/
theorem config_call (call : CableCall) (sim : Simulator) :
    (cable call sim).2.config = sim.config := by
  cases call with
  | shiftIr data bits =>
    show (sim.instruct (data.headD 0)).config = sim.config
    unfold instruct
    dsimp only
    cases Instruction.ofOpcode? (data.headD 0) with
    | none => rfl
    | some instruction => exact config_execute _ instruction
  | shiftDr given => exact (gate_scan sim given).1
  | _ => rfl

/-- No exchange makes another kind of device. -/
theorem config_replay (sim : Simulator) (exchanges : List (Exchange Request Request.Answer)) :
    (sim.replay filter exchanges).config = sim.config := by
  have hcall : ∀ (call : CableCall) (state : Simulator), state.config = sim.config →
      (cable call state).2.config = sim.config :=
    fun call state hstate => (config_call call state).trans hstate
  exact invariant_replay hcall rfl exchanges

/-- No program changes the kind of device. -/
theorem Ends.config_eq {program : Host α} {result : Except Error α}
    (h : Ends filter program sim result after) : after.config = sim.config := by
  rw [← h.replay_eq, config_replay]

namespace Gated

/-- It is the gate and the kind of device that matter. -/
theorem of_eq (h : sim.Gated) (hconfig : after.config = sim.config)
    (hedit : after.editMode = sim.editMode) : after.Gated := by
  intro hstuck
  rw [hedit]
  exact h (hconfig ▸ hstuck)

/-- Reads of the status do not open the gate. -/
theorem watched (h : sim.Gated) (hwatched : Watched sim after) : after.Gated :=
  h.of_eq (hwatched.read config fun _ => rfl) (hwatched.read editMode fun _ => rfl)

/-- No instruction opens the gate of a stuck device. -/
theorem execute (h : sim.Gated) (instruction : Instruction) :
    (sim.execute instruction).Gated := by
  cases instruction with
  | configEnable =>
    intro hstuck
    rw [config_execute] at hstuck
    dsimp only [Simulator.execute]
    rw [if_pos hstuck]
    exact h hstuck
  | configDisable => exact fun _ => editMode_configDisable sim
  | eraseSram | flashErase | flashProgram =>
    dsimp only [Simulator.execute]
    split <;> exact h
  | checksumEnd =>
    dsimp only [Simulator.execute, latchChecksum]
    split <;> exact h
  | _ => exact h

/-- Neither does any call. -/
theorem call (h : sim.Gated) (call : CableCall) : (cable call sim).2.Gated := by
  cases call with
  | shiftIr data bits =>
    have hinstruct : (sim.instruct (data.headD 0)).Gated := by
      unfold instruct
      dsimp only
      cases Instruction.ofOpcode? (data.headD 0) with
      | none => exact h
      | some instruction =>
        have hreceived : Gated
            { sim with ir := data.headD 0, history := sim.history.push (data.headD 0) } := h
        exact hreceived.execute instruction
    exact hinstruct
  | shiftDr given => exact h.of_eq (gate_scan sim given).1 (gate_scan sim given).2
  | _ => exact h

/-- The gate of a stuck device stays closed, whatever the host does. -/
theorem ends {program : Host α} {result : Except Error α} (h : sim.Gated)
    (hends : Ends filter program sim result after) : after.Gated :=
  hends.invariant (fun call _ hsim => hsim.call call) h

end Gated

/-- A stuck device never gets its gate open. -/
theorem Reachable.gated (h : sim.Reachable) : sim.Gated := by
  induction h with
  | powerUp config => exact fun _ => rfl
  | preload _ _ _ ih => exact ih
  | call _ call ih => exact ih.call call

end FpgaProgrammer.Simulator
