import FpgaProgrammer.Proofs.Simulator.Gate

/-!
# Noise on the way to the SRAM

Between the host and the device, the data for the SRAM may change. `Simulator.noisyCable noise` is a
cable over which this happens, in a way that may depend on everything the device has seen so far;
what the host sends otherwise arrives as it was sent.

* `EndsNoisy`: how a program ends over such a cable, with the rules of `Ends`.
* `EndsNoisy.ends`: without noise, programs end as they do over the cable to the device.
* `Unheard`: the noise makes no difference to a program, as it loads no SRAM.
-/

namespace FpgaProgrammer.Simulator

open Host (eval surroundings)

variable {α β : Type}

/-- What becomes of the bytes of a scan on their way to the SRAM. -/
abbrev Noise : Type :=
  Simulator → Bytes → Bytes

/-- What arrives of a scan. -/
def Noise.scan (noise : Noise) (sim : Simulator) (scan : Scan) : Scan :=
  if sim.ir = Instruction.transferWrite.opcode then
    { scan with tx? := scan.tx?.map (noise sim) }
  else
    scan

/-- The cable to the device, with noise on the data for its SRAM. -/
def noisyCable (noise : Noise) : Cable Simulator
  | .shiftDr scan, sim => cable (.shiftDr (noise.scan sim scan)) sim
  | call, sim => cable call sim

/-- A scan arrives at the device as the noise has left it. -/
theorem noisyCable_shiftDr (noise : Noise) (scan : Scan) (sim : Simulator) :
    noisyCable noise (.shiftDr scan) sim = cable (.shiftDr (noise.scan sim scan)) sim :=
  rfl

/-- Nothing changes on the way. -/
def Noise.silent : Noise :=
  fun _ bytes => bytes

/-- Without noise a scan arrives as it was sent. -/
theorem Noise.scan_silent (sim : Simulator) (scan : Scan) : silent.scan sim scan = scan := by
  have hsilent : silent sim = id := rfl
  simp [Noise.scan, hsilent]

/-- The cable without noise is the cable to the device. -/
theorem noisyCable_silent : noisyCable .silent = cable := by
  funext call sim
  cases call with
  | shiftDr scan => rw [noisyCable_shiftDr, Noise.scan_silent]
  | _ => rfl

variable (noise : Noise) (filter : LogFilter)

/-- `program`, run on `sim` over the noisy cable, ends with `result` and leaves the device
`after`. -/
def EndsNoisy (program : Host α) (sim : Simulator) (result : Except Error α) (after : Simulator) :
    Prop :=
  eval (surroundings (noisyCable noise) filter) program sim = (result, after)

/-- The noise makes no difference to the program. -/
def Unheard (program : Host α) (sim : Simulator) : Prop :=
  eval (surroundings (noisyCable noise) filter) program sim =
    eval (surroundings cable filter) program sim

variable {noise filter} {program : Host α} {next : α → Host β} {sim middle after : Simulator}

namespace EndsNoisy

theorem bind {value : α} {result : Except Error β}
    (h : EndsNoisy noise filter program sim (.ok value) middle)
    (hnext : EndsNoisy noise filter (next value) middle result after) :
    EndsNoisy noise filter (program >>= next) sim result after :=
  (Host.eval_bind_of_ok h).trans hnext

theorem reporting {body : Host Unit} {result : Except Error Unit} (stage : Stage) (total : Nat)
    (h : EndsNoisy noise filter body sim result after) :
    EndsNoisy noise filter (Host.reporting stage total body) sim result after :=
  (Host.eval_reporting ..).trans h

/-- Without noise, programs end as they do over the cable to the device. -/
theorem ends {result : Except Error α} (h : EndsNoisy .silent filter program sim result after) :
    Ends filter program sim result after := by
  rwa [EndsNoisy, noisyCable_silent] at h

end EndsNoisy

section Calls

variable (noise filter sim)

theorem endsNoisy_pure (value : α) : EndsNoisy noise filter (pure value) sim (.ok value) sim :=
  rfl

theorem endsNoisy_throw (error : Error) :
    EndsNoisy noise filter (throw error : Host α) sim (.error error) sim :=
  rfl

theorem endsNoisy_log (level : LogLevel) (text : String) :
    EndsNoisy noise filter (Host.log level text) sim (.ok ()) sim :=
  rfl

theorem endsNoisy_progress (report : Progress) :
    EndsNoisy noise filter (Host.progress report) sim (.ok ()) sim :=
  rfl

theorem endsNoisy_send (instruction : Instruction) :
    EndsNoisy noise filter (Device.send instruction) sim (.ok ()) (sim.took instruction.opcode) :=
  rfl

/-- A scan brings back what the device shows upon what has arrived of it. -/
theorem endsNoisy_shiftDr (scan : Scan) :
    EndsNoisy noise filter (Host.shiftDr scan) sim
      (.ok (scan.receive (sim.scan (noise.scan sim scan)).1))
      ((sim.scan (noise.scan sim scan)).2.inState (noise.scan sim scan).endState) :=
  rfl

end Calls

/-! ## Where noise is not heard -/

/-- Where the noise makes no difference, a program ends as it does without. -/
theorem Unheard.endsNoisy {result : Except Error α} (h : Unheard noise filter program sim)
    (hends : Ends filter program sim result after) :
    EndsNoisy noise filter program sim result after :=
  h.trans hends

/-- The noise makes no difference to a sequence if it makes none to its parts, the second of them on
the devices that the first may leave. -/
theorem Unheard.bind (h : Unheard noise filter program sim)
    (hnext : ∀ value after, Ends filter program sim (.ok value) after →
      Unheard noise filter (next value) after) :
    Unheard noise filter (program >>= next) sim := by
  rw [Unheard, Host.eval_bind, Host.eval_bind, h]
  rcases hfirst : eval (surroundings cable filter) program sim with ⟨error | value, after⟩
  · rfl
  · exact hnext value after hfirst

theorem unheard_pure (value : α) : Unheard noise filter (pure value) sim :=
  rfl

theorem unheard_log (level : LogLevel) (text : String) :
    Unheard noise filter (Host.log level text) sim :=
  rfl

/-- Instructions are free of noise, whatever was selected before. -/
theorem unheard_sendOpcode (code : UInt8) : Unheard noise filter (Device.sendOpcode code) sim :=
  rfl

/-- A scan arrives as it was sent if it loads no SRAM. -/
theorem unheard_shiftDr (noise : Noise) (hir : sim.ir ≠ Instruction.transferWrite.opcode)
    (scan : Scan) : Unheard noise filter (Host.shiftDr scan) sim := by
  have hscan : noise.scan sim scan = scan := if_neg hir
  have hcall : noisyCable noise (.shiftDr scan) sim = cable (.shiftDr scan) sim := by
    rw [noisyCable_shiftDr, hscan]
  refine Unheard.bind ?_ fun _ _ _ => unheard_pure _
  exact hcall

/-- The scan that reads the status goes through another register than that of the SRAM. -/
theorem unheard_readStatus (noise : Noise) (sim : Simulator) :
    Unheard noise filter Device.readStatus sim := by
  refine Unheard.bind ?_ fun _ _ _ => unheard_pure _
  refine (unheard_sendOpcode _).bind fun _ sent hsent => ?_
  obtain ⟨-, rfl⟩ := (ends_sendOpcode ..).unique hsent
  have hir : (sim.took Instruction.readStatus.opcode).ir ≠ Instruction.transferWrite.opcode := by
    rw [ir_took]
    decide
  exact (unheard_shiftDr noise hir _).bind fun _ _ _ => unheard_pure _

/-- The status is read for the log as it is read otherwise, free of noise. -/
theorem unheard_logStatus (noise : Noise) (sim : Simulator) (occasion : String) :
    Unheard noise filter (Device.logStatus occasion) sim := by
  -- The flags are named in messages only.
  have hflags : ∀ (flags : List StatusFlag) (sim : Simulator),
      Unheard noise filter (flags.forM fun flag => Host.log .debug ("\t" ++ flag.label)) sim := by
    intro flags
    induction flags with
    | nil => exact fun sim => unheard_pure _
    | cons flag flags ih => exact fun sim => (unheard_log ..).bind fun _ _ _ => ih _
  have hrecords : Unheard noise filter (Host.records .debug) sim := rfl
  refine hrecords.bind fun recorded _ _ => ?_
  cases recorded with
  | false => exact unheard_pure _
  | true =>
    exact (unheard_readStatus noise _).bind fun _ _ _ =>
      (unheard_log ..).bind fun _ _ _ => hflags _ _

end FpgaProgrammer.Simulator
