import FpgaProgrammer.CommandLine.Run
import FpgaProgrammer.Proofs.Host.Evaluation

/-!
# How commands end

A command writes to standard output and to the log, but never asks what it has written before. So
how it ends depends on its surroundings alone: `Run.Concludes surroundings program result` says that
`program` ends with `result`, whatever was written so far. A sequence concludes with the sequence of
the results of its parts (`Concludes.bind`), so that a whole command concludes with a computation
that can fail and has no other effect.

* `concludes_loadImage`, `concludes_connect`, `concludes_onDevice`, `concludes_reportCheck`: the
  steps of commands.
* `concludes_runProgram`: the command `program`.
-/

namespace FpgaProgrammer.CommandLine

namespace Run

variable {surroundings : Surroundings} {α β : Type}

/-- A command ends with `result`, whatever was written before. -/
def Concludes (surroundings : Surroundings) (program : Run α) (result : Except Failure α) : Prop :=
  ∀ written, ((program.run surroundings).run.run written).1 = result

/-! ## Sequences -/

theorem concludes_pure (value : α) : Concludes surroundings (pure value) (.ok value) :=
  fun _ => rfl

theorem concludes_throw (failure : Failure) :
    Concludes surroundings (throw failure : Run α) (.error failure) :=
  fun _ => rfl

theorem concludes_print (text : String) : Concludes surroundings (print text) (.ok ()) :=
  fun _ => rfl

theorem concludes_note (lines : List LogLine) : Concludes surroundings (note lines) (.ok ()) :=
  fun _ => rfl

/-- A sequence concludes with the sequence of the results of its parts. -/
theorem Concludes.bind {program : Run α} {next : α → Run β} {result : Except Failure α}
    {rest : α → Except Failure β} (h : Concludes surroundings program result)
    (hnext : ∀ value, Concludes surroundings (next value) (rest value)) :
    Concludes surroundings (program >>= next) (result >>= rest) := by
  intro written
  have hfirst := h written
  rw [ReaderT.run_bind, ExceptT.run_bind, StateT.run_bind]
  -- The rest finds more written than the first part did, which makes no difference to it.
  rcases hrun : (program.run surroundings).run.run written with ⟨failure | value, middle⟩
  · rw [hrun] at hfirst
    cases hfirst
    rfl
  · rw [hrun] at hfirst
    cases hfirst
    exact hnext value middle

/-- What becomes of the value of a command becomes of its result. -/
theorem Concludes.map {program : Run α} {result : Except Failure α} (f : α → β)
    (h : Concludes surroundings program result) :
    Concludes surroundings (f <$> program) (f <$> result) := by
  rw [← bind_pure_comp, ← bind_pure_comp]
  exact h.bind fun value => concludes_pure (f value)

/-- What is written in between does not count. -/
theorem Concludes.after_note {next : Run β} {result : Except Failure β}
    (h : Concludes surroundings next result) (lines : List LogLine) :
    Concludes surroundings (note lines >>= fun _ => next) result :=
  (concludes_note lines).bind fun _ => h

/-- A command may look at its surroundings. -/
theorem Concludes.of_read {next : Surroundings → Run β} {result : Except Failure β}
    (h : Concludes surroundings (next surroundings) result) :
    Concludes surroundings (read >>= next) result :=
  h

/-! ## Steps -/

/-- Sets header fields, one after the other. -/
def withHeaders (bitstream : Bitstream) (headers : List (String × String)) : Bitstream :=
  headers.foldl (fun bitstream (key, value) => bitstream.withHeader key value) bitstream

/-- The image that the content of a file stands for. -/
def imageOf (raw : Bool) (headers : List (String × String)) (data : Bytes) : Image :=
  if raw then .ofRaw data else (withHeaders (.ofData data) headers).toImage

/-- A file is loaded if it can be read; otherwise its path is reported with the reason. -/
theorem concludes_loadFile (path : String) :
    Concludes surroundings (loadFile path)
      ((surroundings.readFile path).mapError (.unreadable path)) := by
  unfold loadFile
  refine .of_read ?_
  cases surroundings.readFile path with
  | error reason => exact concludes_throw _
  | ok data => exact (concludes_pure data).after_note _

/-- The image that a file holds, if it can be read. -/
def imageResult (surroundings : Surroundings) (path : String) (raw : Bool)
    (headers : List (String × String)) : Except Failure Image := do
  let data ← (surroundings.readFile path).mapError (.unreadable path)
  pure (imageOf raw headers data)

/-- An image is loaded as the file is, and is then what the flags and header fields make of it. -/
theorem concludes_loadImage (path : String) (raw : Bool) (headers : List (String × String)) :
    Concludes surroundings (loadImage path raw headers)
      (imageResult surroundings path raw headers) := by
  refine (concludes_loadFile path).bind fun data => ?_
  unfold imageOf
  cases raw with
  | false => exact concludes_pure _
  | true =>
    -- Header fields that are given for a raw image are only warned about.
    cases headers with
    | nil => exact concludes_pure _
    | cons header headers => exact (concludes_pure _).after_note _

/-- A device is connected to if the choice of a programmer names one. -/
theorem concludes_connect (choice : String) :
    Concludes surroundings (connect choice)
      ((Programmer.connect choice).2.mapError .programmer) := by
  unfold connect
  rcases Programmer.connect choice with ⟨lines, fault | device⟩
  · exact (concludes_throw _).after_note _
  · exact (concludes_pure _).after_note _

/-- How a program ends on a device, and the device afterwards. -/
def deviceResult (surroundings : Surroundings) (device : Simulator) (program : Host α) :
    Except Failure (α × Simulator) :=
  let outcome := Host.run Simulator.cable surroundings.filter program device
  (outcome.result.map fun value => (value, outcome.device)).mapError .device

/-- A program that is run on a device ends as it does on its own, and hands back the device. -/
theorem concludes_onDevice (device : Simulator) (program : Host α) :
    Concludes surroundings (onDevice device program)
      (deviceResult surroundings device program) := by
  unfold onDevice deviceResult
  refine .of_read (.after_note ?_ _)
  generalize Host.run Simulator.cable surroundings.filter program device = outcome
  rcases outcome with ⟨error | value, device, exchanges⟩
  · exact concludes_throw _
  · exact concludes_pure _

/-- The session on the device that is chosen, if there is one. -/
def sessionResult (surroundings : Surroundings) (choice : String) (job : Job) :
    Except Failure (Session × Simulator) := do
  let device ← (Programmer.connect choice).2.mapError .programmer
  deviceResult surroundings device (Session.open? job)

/-- A session is opened on the chosen device if there is one and the job passes its check. -/
theorem concludes_openSession (choice : String) (job : Job) :
    Concludes surroundings (openSession choice job) (sessionResult surroundings choice job) :=
  (concludes_connect choice).bind fun device => concludes_onDevice device _

end Run

open Run

variable {surroundings : Surroundings}

/-- A difference of usercode and checksum is a failure of the command. -/
def checkResult : Device.UsercodeCheck → Except Failure Unit
  | .differs usercode checksum => .error (.checksum usercode checksum)
  | _ => .ok ()

/-- The command fails on a usercode that does not match, after it has been reported. -/
theorem concludes_reportCheck (check : Device.UsercodeCheck) :
    Concludes surroundings (reportCheck check) (checkResult check) := by
  cases check with
  | differs usercode checksum => exact concludes_throw _
  | _ => exact concludes_print _

/-! ## The command `program` -/

/-- The job that a request makes of its images. -/
def ProgramRequest.job (request : ProgramRequest) (image : Image) (firmware? : Option Image) : Job
    where
  target := request.choice.target
  externalFlash := request.choice.externalFlash
  verify := request.verify
  unprotect := request.unprotect
  image? := some image
  firmware? := firmware?

/-- The result of the command is that of its parts in order: the image, the firmware, the session,
the work on the device and the check at its end. -/
theorem concludes_runProgram (request : ProgramRequest) :
    Concludes surroundings (runProgram request)
      (do
        let image ← imageResult surroundings request.input request.raw request.headers
        let firmware? ← request.firmware?.mapM fun path => imageResult surroundings path true []
        let opened ← sessionResult surroundings request.programmer (request.job image firmware?)
        let checked ← deviceResult surroundings opened.2 (opened.1.program request.offset)
        checkResult checked.1) := by
  have hfirmware : Concludes surroundings
      (request.firmware?.mapM fun path => loadImage path true [])
      (request.firmware?.mapM fun path => imageResult surroundings path true []) := by
    cases request.firmware? with
    | none => exact concludes_pure none
    | some path => exact (concludes_loadImage path true []).map some
  refine (concludes_loadImage request.input request.raw request.headers).bind fun image =>
    hfirmware.bind fun firmware? =>
      (concludes_openSession request.programmer (request.job image firmware?)).bind fun opened => ?_
  have hwork : Concludes surroundings
      (do
        let checked ← onDevice opened.2 (opened.1.program request.offset)
        reportCheck checked.1)
      (do
        let checked ← deviceResult surroundings opened.2 (opened.1.program request.offset)
        checkResult checked.1) :=
    (concludes_onDevice opened.2 _).bind fun checked => concludes_reportCheck checked.1
  dsimp only
  split
  · exact hwork.after_note _
  · exact hwork

end FpgaProgrammer.CommandLine
