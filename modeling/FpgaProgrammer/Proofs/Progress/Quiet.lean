import FpgaProgrammer.Proofs.Spi.Closed

/-!
# Programs that report no progress

`Host.Quiet program` says that whatever is answered, no question of `program` is a report of
progress. This carries over from the parts of a program to the whole (`Host.closed_quiet`), so that
all that the host does is quiet, except for the three stages that are reported on: instructions and
registers, the erase of the SRAM, what happens on either side of a stage, and everything that is
done for a chip driver.
-/

namespace FpgaProgrammer

open Device

variable {α β : Type} {exchanges : List (Exchange Request Request.Answer)}

/-- The report that a request makes, if it makes one. -/
def Request.report? : Request → Option Progress
  | .progress report => some report
  | _ => none

/-- Whatever is answered, the dialogue reports no progress. -/
def HostDialogue.Quiet (d : HostDialogue α) : Prop :=
  d.Asks (·.report? = none)

namespace Host

/-! ## Reports -/

/-- The reports among the exchanges. -/
def reportsOf (exchanges : List (Exchange Request Request.Answer)) : List Progress :=
  exchanges.filterMap (·.1.report?)

@[simp]
theorem reportsOf_append (first second : List (Exchange Request Request.Answer)) :
    reportsOf (first ++ second) = reportsOf first ++ reportsOf second :=
  List.filterMap_append

theorem reportsOf_cons_of_none {exchange : Exchange Request Request.Answer}
    (h : exchange.1.report? = none) : reportsOf (exchange :: exchanges) = reportsOf exchanges :=
  List.filterMap_cons_none h

/-! ## Programs -/

/-- Whatever is answered, the program reports no progress. -/
def Quiet (program : Host α) : Prop :=
  HostDialogue.Quiet (ExceptT.run program)

/-- No exchange of a run is a report. -/
theorem Quiet.of_runs {program : Host α} {result : Except Error α} (h : Quiet program)
    (hruns : Runs program exchanges result) : ∀ exchange ∈ exchanges, exchange.1.report? = none :=
  Dialogue.Asks.of_runs h hruns

/-- No run of a quiet program has a report in it. -/
theorem Quiet.reportsOf_eq_nil {program : Host α} {result : Except Error α} (h : Quiet program)
    (hruns : Runs program exchanges result) : reportsOf exchanges = [] :=
  List.filterMap_eq_nil_iff.mpr (h.of_runs hruns)

theorem quiet_pure (value : α) : Quiet (pure value : Host α) :=
  trivial

theorem quiet_throw (error : Error) : Quiet (throw error : Host α) :=
  trivial

theorem Quiet.bind {program : Host α} {next : α → Host β} (h : Quiet program)
    (hnext : ∀ value, Quiet (next value)) : Quiet (program >>= next) :=
  asks_bind h hnext

/-- A failure that is written into the log is thrown again. -/
theorem Quiet.rethrow {program : Host α} (h : Quiet program) {level : LogLevel} {text : String} :
    Quiet (MonadExcept.tryCatch program fun error => do
      log level text
      throw error) := by
  refine Dialogue.Asks.bind h fun result => ?_
  cases result with
  | ok value => exact quiet_pure value
  | error error => exact ⟨rfl, fun _ => trivial⟩

/-- The calls of the cable and the messages are no reports. -/
theorem closed_quiet : Closed Quiet :=
  closed_asks (fun _ _ => rfl) (fun _ _ => rfl) fun _ => rfl

/-! ## Instructions and registers -/

theorem quiet_sendOpcode (code : UInt8) : Quiet (sendOpcode code) := by
  have hasks : (ExceptT.run (sendOpcode code)).Asks (·.report? = none) := asks_sendOpcode rfl rfl
  exact hasks

theorem quiet_send (instruction : Instruction) : Quiet (send instruction) :=
  quiet_sendOpcode _

theorem quiet_reload : Quiet reload :=
  closed_quiet.reload fun _ _ => quiet_send _

/-- The check of a usercode goes to the log, but is not reported on. -/
theorem quiet_checkUsercode (image : Image) : Quiet (checkUsercode image) :=
  closed_quiet.checkUsercode (quiet_send _) image

/-! ## Memories -/

/-- The erase of the SRAM is not reported on, long as it may take. -/
theorem quiet_eraseSram (limit : Nat) : Quiet (Sram.erase limit) :=
  closed_quiet.eraseSram (fun _ _ => quiet_send _) (quiet_throw _) (quiet_throw _) limit

/-- A single attempt is quiet; it is reported when it has been made. -/
theorem quiet_attemptErase (profile : Profile) (limit : Nat) :
    Quiet (EmbeddedFlash.attemptErase profile limit) :=
  closed_quiet.attemptErase (fun _ _ => quiet_send _) (quiet_throw _) profile limit

/-- A single page is written quietly; it is reported when it has been written. -/
theorem quiet_writePage (delays : EmbeddedFlash.Delays) (address : UInt32) (data : Bytes) :
    Quiet (EmbeddedFlash.writePage delays address data) :=
  closed_quiet.writePage (fun _ _ => quiet_send _) delays address data

/-- What follows the last page of a write is not reported on. -/
theorem quiet_finishWrite (limit : Nat) : Quiet (finishWrite limit) :=
  closed_quiet.finishWrite (fun _ _ => quiet_send _) (quiet_throw _) (quiet_throw _)
    (fun _ h => h.rethrow) limit

end Host

/-! ## Chip drivers -/

/-- A chip driver is served without reports. -/
theorem SpiRequest.quiet_serve (encoding : SpiEncoding) (request : SpiRequest) :
    HostDialogue.Quiet (request.serve encoding) :=
  request.asks_serve Host.closed_quiet (Host.quiet_send _) (fun _ => rfl) encoding

/-- Whatever a driver asks for, nothing is reported on its behalf. -/
theorem Spi.quiet_onHost (encoding : SpiEncoding) (program : Spi α) :
    Host.Quiet (program.onHost encoding) :=
  Spi.asks_onHost Host.closed_quiet (Host.quiet_send _) (fun _ => rfl) encoding program

/-! ## Sessions -/

namespace Session

open Host (Quiet closed_quiet quiet_send quiet_throw)

/-- A session is opened or refused without reports. -/
theorem quiet_open (job : Job) : Quiet (open? job) := by
  have hread : Quiet Host.readIdcode := ⟨rfl, fun _ => trivial⟩
  refine hread.bind fun idcode => (closed_quiet.log _ _).bind fun _ => ?_
  split
  · exact Host.quiet_pure _
  · split
    · exact (closed_quiet.log _ _).bind fun _ => quiet_throw _
    · exact quiet_throw _

/-- Writing an external flash is not reported on, whatever its driver does. -/
theorem quiet_programExternalFlash (session : Session) (driver : ChipDriver) (offset : UInt32)
    (image : Image) : Quiet (session.programExternalFlash driver offset image) :=
  closed_quiet.programExternalFlash (fun _ _ => quiet_send _) (quiet_throw _)
    (fun _ h => h.rethrow) (Host.quiet_eraseSram _) (Spi.quiet_onHost _ _)

end Session

end FpgaProgrammer
