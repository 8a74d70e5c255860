import FpgaProgrammer.Proofs.Host.Evaluation
import FpgaProgrammer.Proofs.Simulator.Lasting
import FpgaProgrammer.Session

/-!
# Host programs on the simulated device

`Simulator.Ends filter program sim result after` says that `program`, run on the device `sim`,
ends with `result` and leaves the device `after`. The rules of sequencing are `Ends.bind` and
`Ends.bind_error`; there is one lemma for each cable call, and `ends_send` for an instruction.

No call to the simulated device fails, so these lemmas say how every program over it runs.
-/

namespace FpgaProgrammer.Simulator

open Host (eval surroundings)

variable {α β : Type} (filter : LogFilter)

/-- `program`, run on `sim`, ends with `result` and leaves the device `after`. -/
def Ends (program : Host α) (sim : Simulator) (result : Except Error α) (after : Simulator) :
    Prop :=
  eval (surroundings cable filter) program sim = (result, after)

namespace Ends

variable {filter} {program : Host α} {next : α → Host β} {sim middle after : Simulator}
  {result : Except Error α} {value : α} {error : Error}

/-- What came of a run is what the program ends with. -/
theorem run_eq (h : Ends filter program sim result after) :
    (Host.run cable filter program sim).result = result ∧
      (Host.run cable filter program sim).device = after := by
  rw [Host.run_result, Host.run_device, h]
  exact ⟨rfl, rfl⟩

/-- A run ends with what came of it. -/
theorem of_run (h : (Host.run cable filter program sim).result = result) :
    Ends filter program sim result (Host.run cable filter program sim).device :=
  Prod.ext ((Host.run_result ..).symm.trans h) (Host.run_device ..).symm

/-- A program ends in some way. -/
theorem exists_of (filter : LogFilter) (program : Host α) (sim : Simulator) :
    ∃ result after, Ends filter program sim result after :=
  ⟨_, _, rfl⟩

/-- A sequence goes on after a success. -/
theorem bind {result : Except Error β} (h : Ends filter program sim (.ok value) middle)
    (hnext : Ends filter (next value) middle result after) :
    Ends filter (program >>= next) sim result after :=
  (Host.eval_bind_of_ok h).trans hnext

/-- A sequence ends with a failure. -/
theorem bind_error (h : Ends filter program sim (.error error) after) :
    Ends filter (program >>= next) sim (.error error) after :=
  Host.eval_bind_of_error h

/-- A program that succeeds does so under a handler of failures. -/
theorem tryCatch {handle : Error → Host α} (h : Ends filter program sim (.ok value) after) :
    Ends filter (MonadExcept.tryCatch program handle) sim (.ok value) after := by
  rw [Ends, Host.eval_tryCatch, h]

/-- A stage that reports its progress ends like its body. -/
theorem reporting {body : Host Unit} {result : Except Error Unit} (stage : Stage) (total : Nat)
    (h : Ends filter body sim result after) :
    Ends filter (Host.reporting stage total body) sim result after :=
  (Host.eval_reporting ..).trans h

/-- A program ends in one way only. -/
theorem unique {result' : Except Error α} {after' : Simulator}
    (h : Ends filter program sim result after) (h' : Ends filter program sim result' after') :
    result' = result ∧ after' = after :=
  Prod.mk.inj (Eq.trans (Eq.symm h') h)

/-- What follows a success ends like the sequence. -/
theorem rest {result : Except Error β} (h : Ends filter (program >>= next) sim result after)
    (hfirst : Ends filter program sim (.ok value) middle) :
    Ends filter (next value) middle result after :=
  (Host.eval_bind_of_ok hfirst).symm.trans h

/-- A sequence succeeds only after its first part did. -/
theorem of_bind {last : β} (h : Ends filter (program >>= next) sim (.ok last) after) :
    ∃ value middle, Ends filter program sim (.ok value) middle ∧
      Ends filter (next value) middle (.ok last) after := by
  rcases hfirst : eval (surroundings cable filter) program sim with ⟨error | value, middle⟩
  · have herror : Ends filter (program >>= next) sim (.error error) middle := bind_error hfirst
    cases (h.unique herror).1
  · exact ⟨value, middle, hfirst, h.rest hfirst⟩

/-- A stage that reports its progress has ended like its body. -/
theorem of_reporting {body : Host Unit} {result : Except Error Unit} {stage : Stage} {total : Nat}
    (h : Ends filter (Host.reporting stage total body) sim result after) :
    Ends filter body sim result after :=
  (Host.eval_reporting ..).symm.trans h

/-- What every call keeps is kept by every program. -/
theorem invariant {P : Simulator → Prop} (hcall : ∀ call sim, P sim → P (cable call sim).2)
    (h : Ends filter program sim result after) (hsim : P sim) : P after := by
  -- On the dialogue: only the questions to the cable reach the device.
  have hrun : ∀ (d : HostDialogue (Except Error α)) (sim : Simulator), P sim →
      P (d.run (surroundings cable filter) sim).2 := by
    intro d
    induction d with
    | done value => exact fun sim hsim => hsim
    | ask question next ih =>
      intro sim hsim
      cases question with
      | cable call => exact ih _ _ (hcall call sim hsim)
      | _ => exact ih _ _ hsim
  have hafter := hrun (ExceptT.run program) sim hsim
  rw [show (ExceptT.run program).run (surroundings cable filter) sim = (result, after) from h]
    at hafter
  exact hafter

end Ends

/-! ## Calls -/

section Calls

variable (sim : Simulator)

theorem ends_pure (value : α) : Ends filter (pure value) sim (.ok value) sim :=
  rfl

theorem ends_throw (error : Error) : Ends filter (throw error : Host α) sim (.error error) sim :=
  rfl

theorem ends_log (level : LogLevel) (text : String) :
    Ends filter (Host.log level text) sim (.ok ()) sim :=
  rfl

theorem ends_progress (report : Progress) :
    Ends filter (Host.progress report) sim (.ok ()) sim :=
  rfl

variable {filter sim} in
/-- A failure that is reported and thrown again is the failure. -/
theorem Ends.rethrow {program : Host α} {result : Except Error α} {after : Simulator}
    (h : Ends filter program sim result after) (level : LogLevel) (text : String) :
    Ends filter (MonadExcept.tryCatch program fun error => do
      Host.log level text
      throw error) sim result after := by
  rw [Ends, Host.eval_tryCatch, h]
  cases result with
  | ok value => rfl
  | error error => exact (ends_log ..).bind (ends_throw ..)

theorem ends_records (level : LogLevel) :
    Ends filter (Host.records level) sim (.ok (filter.records level)) sim :=
  rfl

/-- The device with its TAP controller in another state. -/
def inState (state : TapState) : Simulator :=
  { sim with tap := state }

theorem ends_setState (state : TapState) :
    Ends filter (Host.setState state) sim (.ok ()) (sim.inState state) :=
  rfl

/-- The device counts the clocks, and counts them as an erase pulse where they are one. -/
theorem ends_toggleClock (cycles : UInt32) :
    Ends filter (Host.toggleClock cycles) sim (.ok ()) (sim.toggleClock cycles) :=
  rfl

theorem ends_flush : Ends filter Host.flush sim (.ok ()) sim :=
  rfl

/-- The device takes every frequency, and reports it as it was asked for. -/
theorem ends_setClockFrequency (hertz : UInt32) :
    Ends filter (Host.setClockFrequency hertz) sim (.ok hertz) { sim with frequency := hertz } :=
  rfl

theorem ends_sleep (milliseconds : UInt32) :
    Ends filter (Host.sleep milliseconds) sim (.ok ())
      { sim with slept := sim.slept + milliseconds.toNat } :=
  rfl

/-- Idling lets the clock run. -/
theorem ends_idle (microseconds : Nat) :
    Ends filter (Device.idle microseconds) sim (.ok ())
      (sim.toggleClock (Device.clocksFor sim.frequency microseconds)) :=
  rfl

/-- A scan brings back what the device shows, and leaves the TAP controller where it says. -/
theorem ends_shiftDr (scan : Scan) :
    Ends filter (Host.shiftDr scan) sim (.ok (scan.receive (sim.scan scan).1))
      ((sim.scan scan).2.inState scan.endState) :=
  rfl

variable {sim} in
/-- A scan whose effect is known. -/
theorem ends_shiftDr_of_scan {scan : Scan} {captured : Bytes} {after : Simulator}
    (h : sim.scan scan = (captured, after)) :
    Ends filter (Host.shiftDr scan) sim (.ok (scan.receive captured))
      (after.inState scan.endState) := by
  have hends := ends_shiftDr filter sim scan
  rw [h] at hends
  exact hends

/-! ## Instructions -/

/-- The device after an instruction was sent and has settled. -/
def took (code : UInt8) : Simulator :=
  ((sim.instruct code).inState .runTestIdle).toggleClock Device.settlingClocks

/-- An instruction is taken with the clocks that follow it, and never fails. -/
theorem ends_sendOpcode (code : UInt8) :
    Ends filter (Device.sendOpcode code) sim (.ok ()) (sim.took code) :=
  rfl

theorem ends_send (instruction : Instruction) :
    Ends filter (Device.send instruction) sim (.ok ()) (sim.took instruction.opcode) :=
  rfl

end Calls

section Traffic

variable {sim : Simulator}

/-- The TAP controller moves by itself. -/
theorem traffic_inState (sim : Simulator) (state : TapState) : Traffic sim (sim.inState state) :=
  ⟨rfl, rfl, rfl⟩

/-- Clock pulses are erase pulses in Shift-DR only, while an erase is under way. -/
theorem traffic_toggleClock (h : sim.eraseArmed = false ∨ sim.tap ≠ .shiftDr) (cycles : UInt32) :
    Traffic sim (sim.toggleClock cycles) := by
  -- Of the three conditions of a pulse, either of the first two fails.
  have hpulsed : (sim.eraseArmed && sim.tap == .shiftDr && cycles == 32) = false := by
    rcases h with h | h <;> simp [h]
  unfold toggleClock
  simp only [hpulsed]
  exact ⟨rfl, rfl, rfl⟩

/-- Bits stay in the instruction register once they have been received. -/
@[simp]
theorem ir_instruct (sim : Simulator) (code : UInt8) : (sim.instruct code).ir = code := by
  unfold instruct
  dsimp only
  cases Instruction.ofOpcode? code with
  | none => rfl
  | some instruction => exact ir_execute _ instruction

/-- The instruction that was sent last is in the register, whatever it has done. -/
@[simp]
theorem ir_took (sim : Simulator) (code : UInt8) : (sim.took code).ir = code :=
  ir_instruct sim code

/-- The instruction that a scan belongs to is the one in the instruction register. -/
theorem ofOpcode?_ir {instruction : Instruction} (h : sim.ir = instruction.opcode) :
    Instruction.ofOpcode? sim.ir = some instruction := by
  rw [h, Instruction.ofOpcode?_opcode]

/-- The clocks in which an instruction settles are no erase pulse. -/
theorem traffic_settled (sim : Simulator) (code : UInt8) :
    Traffic (sim.instruct code) (sim.took code) := by
  exact (traffic_inState ..).trans (traffic_toggleClock (.inr TapState.noConfusion) _)

/-- Sending an instruction has its effect and leaves traces of traffic. -/
theorem traffic_took (sim : Simulator) (instruction : Instruction) :
    Traffic (sim.execute instruction) (sim.took instruction.opcode) := by
  -- The bits arrive before the instruction takes effect, and settle after it has.
  have hreceived : Traffic sim
      { sim with ir := instruction.opcode, history := sim.history.push instruction.opcode } :=
    ⟨rfl, rfl, rfl⟩
  have hsettled := traffic_settled sim instruction.opcode
  rw [instruct, Instruction.ofOpcode?_opcode] at hsettled
  exact (hreceived.execute instruction).trans hsettled

/-- An instruction that is sent after traffic has the effect it would have had before. -/
theorem Traffic.took {after : Simulator} (h : Traffic sim after) (instruction : Instruction) :
    Traffic (sim.execute instruction) (after.took instruction.opcode) :=
  (h.execute instruction).trans (traffic_took after instruction)

/-- An instruction that is sent after the status was read has the effect it would have had
before. -/
theorem Watched.took {after : Simulator} (h : Watched sim after) (instruction : Instruction) :
    Watched (sim.execute instruction) (after.took instruction.opcode) :=
  (h.execute instruction).trans (traffic_took after instruction).watched

/-- Bits that mean no instruction have no effect. -/
theorem traffic_took_of_none (sim : Simulator) {code : UInt8}
    (h : Instruction.ofOpcode? code = none) : Traffic sim (sim.took code) := by
  have hreceived : Traffic sim { sim with ir := code, history := sim.history.push code } :=
    ⟨rfl, rfl, rfl⟩
  have hsettled := traffic_settled sim code
  rw [instruct, h] at hsettled
  exact hreceived.trans hsettled

end Traffic

end FpgaProgrammer.Simulator
