import FpgaProgrammer.Proofs.Calls.Script
import FpgaProgrammer.Proofs.Simulator.Reachable
import FpgaProgrammer.Proofs.Simulator.Twins

/-!
# The simulated device as a setting

The cable to the simulated device works (`works_run`), and its clock has the frequency that the
device holds until it is set (`holds_run`). What a program is known to do in a setting, it does on
the simulated device.

* `Plays filter program sim exchanges result after` — a run on the device, with all that is
  exchanged. Where it is known how the parts of a program end, `Plays.rest` cuts the exchanges into
  those of the parts.
-/

namespace FpgaProgrammer.Simulator

variable {α : Type} {filter : LogFilter} {sim : Simulator}
  {exchanges : List (Exchange Request Request.Answer)}

/-- No call to the simulated device fails. -/
theorem failure?_cable (call : CableCall) (sim : Simulator) :
    call.failure? (cable call sim).1 = none := by
  cases call <;> rfl

/-- Only setting the clock changes its frequency. -/
theorem frequency_call {call : CableCall} (hkeeps : (Request.cable call).setsClock = false)
    (sim : Simulator) : (cable call sim).2.frequency = sim.frequency := by
  cases call with
  | shiftIr data bits =>
    show (sim.instruct (data.headD 0)).frequency = sim.frequency
    unfold instruct
    cases Instruction.ofOpcode? (data.headD 0) with
    | none => rfl
    | some instruction => exact (time_execute _ instruction).1
  | shiftDr given =>
    obtain ⟨_, _, _, _, _, _, _, _, _, hframe, -⟩ := scan_frame sim given
    show (sim.scan given).2.frequency = sim.frequency
    rw [hframe]
  | setClockFrequency hertz => cases hkeeps
  | _ => rfl

/-- The answers of the simulated device. -/
theorem holds_of_gives (hgives : (Host.surroundings cable filter).Gives sim exchanges) :
    Setting.Holds { filter, frequency? := some sim.frequency } exchanges := by
  induction exchanges generalizing sim with
  | nil => trivial
  | cons exchange exchanges ih =>
    obtain ⟨request, answer⟩ := exchange
    obtain ⟨rfl, hrest⟩ := hgives
    cases request with
    | cable call =>
      refine ⟨?_, fun hkeeps => ?_⟩
      · cases call with
        | clockFrequency =>
          rintro _ ⟨⟩
          rfl
        | _ => exact failure?_cable _ sim
      · -- What follows is answered by a device whose clock has the same frequency.
        rw [← frequency_call hkeeps sim]
        exact ih hrest
    | _ => exact ⟨by trivial, fun _ => ih hrest⟩

/-- A program that is run on the simulated device is run in a setting. -/
theorem holds_run (filter : LogFilter) (program : Host α) (sim : Simulator) :
    Setting.Holds { filter, frequency? := some sim.frequency }
      (Host.run cable filter program sim).exchanges :=
  holds_of_gives (Host.runs_gives_run cable filter program sim).2

/-- No run on the simulated device meets a failure of the cable. -/
theorem works_run (filter : LogFilter) (program : Host α) (sim : Simulator) :
    ∀ exchange ∈ (Host.run cable filter program sim).exchanges,
      Exchange.failure? exchange = none := by
  have hgives := (Host.runs_gives_run cable filter program sim).2
  generalize (Host.run cable filter program sim).exchanges = exchanges at hgives
  induction exchanges generalizing sim with
  | nil => simp
  | cons exchange exchanges ih =>
    obtain ⟨request, answer⟩ := exchange
    obtain ⟨rfl, hrest⟩ := hgives
    refine List.forall_mem_cons.mpr ⟨?_, ih _ hrest⟩
    cases request with
    | cable call => exact failure?_cable call sim
    | _ => rfl

/-! ## Runs with their exchanges -/

/-- A run of the program on `sim`, in which this is exchanged, ends with `result` and leaves the
device `after`. -/
structure Plays (filter : LogFilter) (program : Host α) (sim : Simulator)
    (exchanges : List (Exchange Request Request.Answer)) (result : Except Error α)
    (after : Simulator) : Prop where
  /-- The exchanges are those of a run. -/
  runs : Host.Runs program exchanges result
  /-- The answers are those of the device. -/
  gives : (Host.surroundings cable filter).Gives sim exchanges
  /-- The exchanges bring the device there. -/
  replay_eq : sim.replay filter exchanges = after

namespace Plays

variable {β : Type} {program : Host α} {next : α → Host β} {middle after : Simulator}
  {result : Except Error α} {value : α}

/-- A program whose exchanges are known ends as it does with them. -/
theorem ends (h : Plays filter program sim exchanges result after) :
    Ends filter program sim result after :=
  (h.runs.run_eq h.gives).trans (Prod.ext rfl h.replay_eq)

/-- The exchanges with the simulated device are in the setting of its frequency: none of its answers
is a failure. -/
theorem holds (h : Plays filter program sim exchanges result after) :
    Setting.Holds { filter, frequency? := some sim.frequency } exchanges :=
  holds_of_gives h.gives

/-- What a program ends with has been exchanged somehow. -/
theorem of_ends (h : Ends filter program sim result after) :
    Plays filter program sim (Host.run cable filter program sim).exchanges result after := by
  obtain ⟨hruns, hgives⟩ := Host.runs_gives_run cable filter program sim
  rw [h.run_eq.1] at hruns
  exact ⟨hruns, hgives, h.replay_eq⟩

/-- After a success, the exchanges go on with those of what follows. -/
theorem rest {result : Except Error β}
    (h : Plays filter (program >>= next) sim exchanges result after)
    (hfirst : Ends filter program sim (.ok value) middle) :
    ∃ first second, exchanges = first ++ second ∧
      Plays filter program sim first (.ok value) middle ∧
      Plays filter (next value) middle second result after := by
  rcases Host.runs_bind_iff.mp h.runs with
    ⟨given, first, second, rfl, hruns, hrest⟩ | ⟨error, -, hruns⟩
  · obtain ⟨hgives, hgives'⟩ := Handler.gives_append.mp h.gives
    have hplays : Plays filter program sim first (.ok given) (sim.replay filter first) :=
      ⟨hruns, hgives, rfl⟩
    -- The device answers in one way only.
    obtain ⟨hsame, hmiddle⟩ := hfirst.unique hplays.ends
    obtain rfl := Except.ok.inj hsame
    refine ⟨first, second, rfl, hmiddle ▸ hplays, ?_⟩
    rw [← hmiddle]
    exact ⟨hrest, hgives', (Handler.replay_append ..).symm.trans h.replay_eq⟩
  · have hplays : Plays filter program sim exchanges (.error error) after :=
      ⟨hruns, h.gives, h.replay_eq⟩
    cases (hfirst.unique hplays.ends).1

/-- What is reported on makes the calls. -/
theorem of_reporting {body : Host Unit} {stage : Stage} {total : Nat} {result : Except Error Unit}
    (h : Plays filter (Host.reporting stage total body) sim exchanges result after) :
    ∃ within, Plays filter body sim within result after ∧
      Host.callsOf exchanges = Host.callsOf within := by
  obtain ⟨start, within, finish, rfl, hstart, hfinish, hbody⟩ := h.runs.of_reporting
  obtain ⟨hgives, -⟩ := Handler.gives_append.mp h.gives
  obtain ⟨-, hwithin⟩ := Handler.gives_append.mp hgives
  have hbefore : Handler.replay (Host.surroundings cable filter) sim start = sim :=
    Host.replay_of_silent hstart
  rw [hbefore] at hwithin
  have hafter : sim.replay filter within = after := by
    have hall := h.replay_eq
    unfold replay at hall
    rw [Handler.replay_append, Handler.replay_append, hbefore] at hall
    exact (Host.replay_of_silent hfinish).symm.trans hall
  refine ⟨within, ⟨hbody, hwithin, hafter⟩, ?_⟩
  simp [(Host.follow_of_silent hstart).calls_eq, (Host.follow_of_silent hfinish).calls_eq]

end Plays

end FpgaProgrammer.Simulator
