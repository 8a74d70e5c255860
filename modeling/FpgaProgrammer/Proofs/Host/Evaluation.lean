import FpgaProgrammer.Host

/-!
# Evaluating host programs

`Host.eval handler program state` is how a program ends, and the state in which it leaves its
surroundings. It forgets the exchanges, and evaluates sequences step by step:

* `bind_eq_ok_iff`: what can fail ends well in a sequence exactly if both parts do.
* `eval_bind_of_ok`, `eval_bind_of_error`: a sequence goes on after a success and ends with a
  failure.
* `eval_reporting`: reporting progress to surroundings that ignore it changes nothing.
* `run_result`, `run_device`: over a cable, `Host.run` and `Host.eval` agree.
-/

namespace FpgaProgrammer

/-- A sequence ends well exactly if its parts do. -/
theorem bind_eq_ok_iff {ε α β : Type} {first : Except ε α} {next : α → Except ε β} {last : β} :
    (first >>= next) = .ok last ↔ ∃ value, first = .ok value ∧ next value = .ok last := by
  constructor
  · intro h
    cases first with
    | error error => cases h
    | ok value => exact ⟨value, rfl, h⟩
  · rintro ⟨value, rfl, hnext⟩
    exact hnext

namespace Dialogue

variable {Q : Type} {A : Q → Type} {α σ : Type}

/-- Keeping the exchanges changes neither the value of a dialogue nor the state it ends in. -/
theorem run_recording (handler : Handler Q A σ) (d : Dialogue Q A α) (state : σ)
    (exchanges : List (Exchange Q A)) :
    (d.run handler.recording (state, exchanges)).1 = (d.run handler state).1 ∧
      (d.run handler.recording (state, exchanges)).2.1 = (d.run handler state).2 := by
  induction d generalizing state exchanges with
  | done value => exact ⟨rfl, rfl⟩
  | ask question next ih =>
    exact ih (handler question state).1 (handler question state).2
      (⟨question, (handler question state).1⟩ :: exchanges)

end Dialogue

namespace Host

variable {σ α β : Type}

/-- How a program ends, and the state of its surroundings afterwards. -/
def eval (handler : Handler Request Request.Answer σ) (program : Host α) (state : σ) :
    Except Error α × σ :=
  Dialogue.run handler (ExceptT.run program) state

section Sequences

variable (handler : Handler Request Request.Answer σ) (state : σ)

/-- A sequence goes on with the value of its first part, if there is one. -/
theorem eval_bind (program : Host α) (next : α → Host β) :
    eval handler (program >>= next) state =
      match eval handler program state with
      | (.ok value, after) => eval handler (next value) after
      | (.error error, after) => (.error error, after) := by
  rw [eval, ExceptT.run_bind, Dialogue.run_bind]
  rcases h : eval handler program state with ⟨_ | _, after⟩ <;>
    · rw [eval] at h
      rw [h]
      rfl

/-- A sequence ends with what follows the value of its first part. -/
theorem eval_bind_result (program : Host α) (next : α → Host β) :
    (eval handler (program >>= next) state).1 =
      (eval handler program state).1 >>= fun value =>
        (eval handler (next value) (eval handler program state).2).1 := by
  rw [eval_bind]
  rcases eval handler program state with ⟨_ | _, after⟩ <;> rfl

/-- A handled program ends like the program, or like what follows its failure. -/
theorem eval_tryCatch (program : Host α) (handle : Error → Host α) :
    eval handler (tryCatch program handle) state =
      match eval handler program state with
      | (.ok value, after) => (.ok value, after)
      | (.error error, after) => eval handler (handle error) after := by
  rw [eval, ExceptT.run_tryCatch, Dialogue.run_bind]
  rcases h : eval handler program state with ⟨_ | _, after⟩ <;>
    · rw [eval] at h
      rw [h]
      rfl

variable {handler state}

/-- A sequence whose first part succeeds goes on with its value. -/
theorem eval_bind_of_ok {program : Host α} {next : α → Host β} {value : α} {after : σ}
    (h : eval handler program state = (.ok value, after)) :
    eval handler (program >>= next) state = eval handler (next value) after := by
  rw [eval_bind, h]

/-- A sequence whose first part fails is over. -/
theorem eval_bind_of_error {program : Host α} {next : α → Host β} {error : Error} {after : σ}
    (h : eval handler program state = (.error error, after)) :
    eval handler (program >>= next) state = (.error error, after) := by
  rw [eval_bind, h]

end Sequences

section Cables

variable (cable : Cable σ) (filter : LogFilter) (device : σ)

/-- The result of a run is the one of its evaluation. -/
theorem run_result (program : Host α) :
    (run cable filter program device).result =
      (eval (surroundings cable filter) program device).1 :=
  (Dialogue.run_recording _ _ device []).1

/-- The device after a run is the one after its evaluation. -/
theorem run_device (program : Host α) :
    (run cable filter program device).device =
      (eval (surroundings cable filter) program device).2 :=
  (Dialogue.run_recording _ _ device []).2

theorem eval_progress (report : Progress) :
    eval (surroundings cable filter) (progress report) device = (.ok (), device) :=
  rfl

/-- Reporting progress changes neither how a program ends nor the device. -/
theorem eval_reporting (stage : Stage) (total : Nat) (body : Host Unit) :
    eval (surroundings cable filter) (reporting stage total body) device =
      eval (surroundings cable filter) body device := by
  -- A failure of the body is reported as well, and then thrown again.
  rw [reporting, eval_bind_of_ok (eval_progress ..)]
  rcases h : eval (surroundings cable filter) body device with ⟨error | value, after⟩
  · refine eval_bind_of_error ?_
    rw [eval_tryCatch, h]
    exact eval_bind_of_ok (eval_progress ..)
  · rw [eval_bind_of_ok (by rw [eval_tryCatch, h])]
    rfl

end Cables

end Host

end FpgaProgrammer
