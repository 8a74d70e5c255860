import FpgaProgrammer.Proofs.Host.Closed

/-!
# Which instructions are sent

`Host.Sends allowed program` says that no run of `program` sends an instruction outside of
`allowed`, whatever the cable answers and wherever it fails. It is closed under sequences and
handlers (`Sends.bind`, `Sends.tryCatch`), so that an operation sends what its parts may send
(`closed_sends`). There is one lemma for each operation of the host, with these instructions.
-/

namespace FpgaProgrammer

/-- The instruction that a request sends, if it sends one. -/
def Request.instruction? : Request → Option Instruction
  | .cable (.shiftIr data _) => Instruction.ofOpcode? (data.headD 0)
  | _ => none

/-- The request sends no instruction that is not allowed. -/
def Request.SendsOnly (allowed : List Instruction) (request : Request) : Prop :=
  ∀ instruction, request.instruction? = some instruction → instruction ∈ allowed

variable {α β : Type} {allowed wider : List Instruction}

/-- A request that sends no instruction sends only what is allowed. -/
theorem Request.sendsOnly_of_none {request : Request} (h : request.instruction? = none) :
    request.SendsOnly allowed :=
  fun _ hsent => nomatch h.symm.trans hsent

/-! ## Dialogues -/

namespace HostDialogue

/-- No run of the dialogue sends an instruction that is not allowed. -/
def Sends (allowed : List Instruction) (d : HostDialogue α) : Prop :=
  ∀ ⦃exchanges value⦄, Dialogue.Runs d exchanges value →
    ∀ exchange ∈ exchanges, ∀ instruction, exchange.1.instruction? = some instruction →
      instruction ∈ allowed

theorem sends_pure (value : α) : Sends allowed (pure value) := by
  intro exchanges result h exchange hmem
  obtain ⟨rfl, -⟩ := Dialogue.runs_done_iff.mp h
  cases hmem

/-- A question sends nothing unless it shifts the instruction register. -/
theorem sends_put {request : Request} (h : request.instruction? = none) :
    Sends allowed (Dialogue.put (A := Request.Answer) request) := by
  intro exchanges result hruns exchange hmem instruction hsent
  obtain rfl := Dialogue.runs_put_iff.mp hruns
  obtain rfl := List.mem_singleton.mp hmem
  cases h.symm.trans hsent

theorem Sends.bind {d : HostDialogue α} {f : α → HostDialogue β} (h : Sends allowed d)
    (hf : ∀ value, Sends allowed (f value)) : Sends allowed (d >>= f) := by
  intro exchanges result hruns exchange hmem
  obtain ⟨first, middle, second, rfl, hfirst, hsecond⟩ := Dialogue.runs_bind_iff.mp hruns
  rcases List.mem_append.mp hmem with hmem | hmem
  · exact h hfirst exchange hmem
  · exact hf middle hsecond exchange hmem

theorem Sends.mono {d : HostDialogue α} (h : Sends allowed d) (hsubset : allowed ⊆ wider) :
    Sends wider d :=
  fun _ _ hruns exchange hmem instruction hsent =>
    hsubset (h hruns exchange hmem instruction hsent)

/-- It is enough to know which instructions the questions send. -/
theorem sends_of_asks {d : HostDialogue α} (h : d.Asks (Request.SendsOnly allowed)) :
    Sends allowed d :=
  fun _ _ hruns => h.of_runs hruns

end HostDialogue

/-! ## Programs -/

namespace Host

/-- No run of the program sends an instruction that is not allowed. -/
def Sends (allowed : List Instruction) (program : Host α) : Prop :=
  HostDialogue.Sends allowed (ExceptT.run program)

theorem Sends.mono {program : Host α} (h : Sends allowed program) (hsubset : allowed ⊆ wider) :
    Sends wider program :=
  HostDialogue.Sends.mono h hsubset

theorem sends_pure (value : α) : Sends allowed (pure value : Host α) :=
  HostDialogue.sends_pure _

theorem sends_throw (error : Error) : Sends allowed (throw error : Host α) :=
  HostDialogue.sends_pure _

theorem Sends.bind {program : Host α} {next : α → Host β} (h : Sends allowed program)
    (hnext : ∀ value, Sends allowed (next value)) : Sends allowed (program >>= next) := by
  refine HostDialogue.Sends.bind h fun result => ?_
  cases result with
  | ok value => exact hnext value
  | error error => exact HostDialogue.sends_pure _

/-- A handler sends what is allowed, whatever it is handed. -/
theorem Sends.tryCatch {program : Host α} {handle : Error → Host α} (h : Sends allowed program)
    (hhandle : ∀ error, Sends allowed (handle error)) :
    Sends allowed (MonadExcept.tryCatch program handle) := by
  refine HostDialogue.Sends.bind h fun result => ?_
  cases result with
  | ok value => exact HostDialogue.sends_pure _
  | error error => exact hhandle error

/-- What cannot fail is asked as it is. -/
theorem sends_lift {d : HostDialogue α} (h : HostDialogue.Sends allowed d) :
    Sends allowed (ExceptT.lift d) :=
  HostDialogue.Sends.bind h fun _ => HostDialogue.sends_pure _

/-! ## Calls -/

/-- Nothing is sent by asking for anything but a shift of the instruction register. -/
theorem sends_ask {request : Request} (h : request.instruction? = none) :
    Sends allowed (ask request) :=
  sends_lift (HostDialogue.sends_put h)

theorem sends_log (level : LogLevel) (text : String) : Sends allowed (log level text) :=
  sends_ask rfl

theorem sends_records (level : LogLevel) : Sends allowed (records level) :=
  sends_ask rfl

theorem sends_progress (report : Progress) : Sends allowed (progress report) :=
  sends_ask rfl

theorem sends_setState (state : TapState) : Sends allowed (setState state) :=
  HostDialogue.sends_put rfl

theorem sends_toggleClock (cycles : UInt32) : Sends allowed (toggleClock cycles) :=
  HostDialogue.sends_put rfl

theorem sends_flush : Sends allowed flush :=
  HostDialogue.sends_put rfl

theorem sends_setClockFrequency (hertz : UInt32) : Sends allowed (setClockFrequency hertz) :=
  HostDialogue.sends_put rfl

theorem sends_sleep (milliseconds : UInt32) : Sends allowed (sleep milliseconds) :=
  sends_lift (HostDialogue.sends_put rfl)

theorem sends_shiftDr (scan : Scan) : Sends allowed (shiftDr scan) :=
  Sends.bind (HostDialogue.sends_put rfl) fun _ => sends_pure _

/-- Which instructions an operation may send is settled by its parts. -/
theorem closed_sends : Closed (Sends allowed) where
  pure := sends_pure
  bind := Sends.bind
  shiftDr := sends_shiftDr
  setState := sends_setState
  toggleClock := sends_toggleClock
  clockFrequency := sends_lift (HostDialogue.sends_put rfl)
  log := sends_log
  records := sends_records
  flush := sends_flush
  sleep := sends_sleep
  setClockFrequency := sends_setClockFrequency

theorem sends_idle (microseconds : Nat) : Sends allowed (Device.idle microseconds) :=
  closed_sends.idle microseconds

/-- Reports send nothing, so that a stage sends what its body does. -/
theorem sends_reporting {body : Host Unit} (stage : Stage) (total : Nat)
    (h : Sends allowed body) : Sends allowed (reporting stage total body) :=
  (sends_progress _).bind fun _ =>
    (h.tryCatch fun _ => (sends_progress _).bind fun _ => sends_throw _).bind fun _ =>
      sends_progress _

/-! ## Instructions and registers -/

/-- The instruction register takes the code, and nothing else is sent. -/
theorem sends_sendOpcode (code : UInt8) :
    Sends (Instruction.ofOpcode? code).toList (Device.sendOpcode code) := by
  refine Sends.bind ?_ fun _ => sends_toggleClock _
  intro exchanges result hruns exchange hmem instruction hsent
  obtain rfl := Dialogue.runs_put_iff.mp hruns
  obtain rfl := List.mem_singleton.mp hmem
  have hcode : Instruction.ofOpcode? code = some instruction := hsent
  simp [hcode]

/-- The opcode that is shifted in stands for the instruction that was meant. -/
theorem sends_send (instruction : Instruction) : Sends [instruction] (Device.send instruction) := by
  have h := sends_sendOpcode instruction.opcode
  rw [Instruction.ofOpcode?_opcode] at h
  exact h

/-- An instruction of the list may be sent. -/
theorem maySend_sends : MaySend (Sends allowed) allowed := fun _ hmem =>
  (sends_send _).mono (List.cons_subset.mpr ⟨hmem, List.nil_subset _⟩)

/-- A failure that is written into the log is thrown again. -/
theorem Sends.rethrow {program : Host α} (h : Sends allowed program) {level : LogLevel}
    {text : String} : Sends allowed (MonadExcept.tryCatch program fun error => do
      log level text
      throw error) :=
  h.tryCatch fun _ => (sends_log _ _).bind fun _ => sends_throw _

theorem sends_readStatus : Sends [.readStatus] Device.readStatus :=
  closed_sends.readStatus (sends_send _)

theorem sends_readUsercode : Sends [.readUsercode] Device.readUsercode :=
  closed_sends.readRegister (sends_send .readUsercode)

theorem sends_logStatus (occasion : String) : Sends [.readStatus] (Device.logStatus occasion) :=
  closed_sends.logStatus (sends_send _) occasion

/-- However long a status is waited for, the waiting only reads it. -/
theorem sends_awaitStatus (mask expected : Status) (limit : Nat) :
    Sends [.readStatus] (Device.awaitStatus mask expected limit) :=
  closed_sends.awaitStatus (sends_send _) (sends_throw _) mask expected limit

/-- The gate is opened with no other instruction than its own, and looked at. -/
theorem sends_enableConfig (limit : Nat) :
    Sends [.configEnable, .readStatus] (Device.enableConfig limit) :=
  closed_sends.enableConfig maySend_sends (sends_throw _) limit

/-- The gate is closed with its own instruction and one without effect, and looked at. -/
theorem sends_disableConfig (limit : Nat) :
    Sends [.configDisable, .noop, .readStatus] (Device.disableConfig limit) :=
  closed_sends.disableConfig maySend_sends (sends_throw _) limit

theorem sends_reload : Sends [.reload, .noop] Device.reload :=
  closed_sends.reload maySend_sends

/-- A verification only reads the usercode. -/
theorem sends_verifyUsercode (session : Session) (image : Image) :
    Sends [.readUsercode] (session.verifyUsercode image) :=
  closed_sends.verifyUsercode (sends_send _) session image

/-! ## Memories -/

/-- The erase of the SRAM neither loads it nor touches the embedded flash. -/
theorem sends_eraseSram (limit : Nat) :
    Sends [.readStatus, .configEnable, .eraseSram, .noop, .transferDone, .configDisable]
      (Device.Sram.erase limit) :=
  closed_sends.eraseSram maySend_sends (sends_throw _) (sends_throw _) limit

theorem sends_stream (sizes : List Nat) (sent : Nat) (data : Bytes) :
    Sends [] (Device.Sram.stream sizes sent data) :=
  closed_sends.stream sends_progress sizes sent data

/-- The load of the SRAM neither erases it nor touches the embedded flash. -/
theorem sends_loadSram (image : Image) :
    Sends [.readStatus, .configEnable, .initAddress, .transferWrite, .checksumStart, .checksumEnd,
      .configDisable, .noop] (Device.Sram.load image) :=
  closed_sends.loadSram maySend_sends
    (sends_reporting _ _ ((sends_stream _ _ _).mono (List.nil_subset _))) (sends_throw _)

theorem sends_pulse (count : Nat) : Sends [] (Device.EmbeddedFlash.pulse count) :=
  closed_sends.pulse count

/-- An attempt to erase the embedded flash writes nothing, and leaves the SRAM alone. -/
theorem sends_attemptErase (profile : Profile) (limit : Nat) :
    Sends [.readStatus, .configEnable, .flashErase, .configDisable, .noop]
      (Device.EmbeddedFlash.attemptErase profile limit) :=
  closed_sends.attemptErase maySend_sends (sends_throw _) profile limit

theorem sends_tryErase (profile : Profile) (limit left made : Nat) :
    Sends [.readStatus, .configEnable, .flashErase, .configDisable, .noop]
      (Device.EmbeddedFlash.tryErase profile limit left made) :=
  closed_sends.tryErase (sends_attemptErase profile limit) sends_progress left made

/-- The attempts and the look at the end of them write nothing either. -/
theorem sends_emptyFlash (profile : Profile) (limit : Nat) :
    Sends [.readStatus, .configEnable, .flashErase, .configDisable, .noop]
      (emptyFlash profile limit) :=
  closed_sends.emptyFlash (maySend_sends _ (by decide))
    (sends_reporting _ _ (sends_tryErase _ _ _ _)) (sends_throw _)

/-- An erase of the embedded flash erases the SRAM as well if a design is running, and writes to
neither. -/
theorem sends_eraseFlash (profile : Profile) (limit : Nat) :
    Sends [.readStatus, .configEnable, .flashErase, .configDisable, .noop, .eraseSram,
      .transferDone] (Device.EmbeddedFlash.erase profile limit) :=
  closed_sends.eraseFlash (maySend_sends _ (by decide)) ((sends_eraseSram limit).mono (by decide))
    ((sends_emptyFlash profile limit).mono (by decide))

theorem sends_writeWords (delay : Nat) (words : List Bytes) :
    Sends [] (Device.EmbeddedFlash.writeWords delay words) :=
  closed_sends.writeWords delay words

/-- However many pages are written, three instructions are enough. -/
theorem sends_writePages (delays : Device.EmbeddedFlash.Delays) (base : UInt32)
    (pages : List Bytes) (index : Nat) :
    Sends [.configEnable, .noop, .flashProgram]
      (Device.EmbeddedFlash.writePages delays base pages index) :=
  closed_sends.writePages maySend_sends sends_progress delays base pages index

/-- What follows the last page closes the gate and boots the device. -/
theorem sends_finishWrite (limit : Nat) :
    Sends [.configDisable, .noop, .readStatus, .reload] (finishWrite limit) :=
  closed_sends.finishWrite maySend_sends (sends_throw _) (sends_throw _) (fun _ h => h.rethrow)
    limit

/-- A write of the embedded flash erases nothing, and does not load the SRAM. -/
theorem sends_writeFlash (profile : Profile) (limit : Nat) (base : UInt32) (image : Image) :
    Sends [.readStatus, .configEnable, .noop, .flashProgram, .configDisable, .reload]
      (Device.EmbeddedFlash.write profile limit base image) :=
  closed_sends.writeFlash (maySend_sends _ (by decide))
    (sends_reporting _ _ ((sends_writePages _ _ _ _).mono (by decide)))
    ((sends_finishWrite limit).mono (by decide))

end Host

end FpgaProgrammer
