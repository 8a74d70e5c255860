import FpgaProgrammer.Proofs.Progress.Blocks

/-!
# Everything that is reported

Whatever is asked of a device, over whatever cable, what is reported on the way are complete blocks,
one after the other.

* `Journal` — exchanges whose reports are complete blocks. A block that tells of a failure is the
  last one, and its failure is what the exchanges end with.
* `Host.Journals` — so it is in every run of a program.
* `Work` — what can be asked of a device, or of a session with it.
* `reports_outcomes` — what is reported while one piece of work follows the other.
-/

namespace FpgaProgrammer

open Device

/-! ## Journals -/

/-- The exchanges of a stage: those in between, and the reports before and after them. -/
def Block.exchanges (block : Block) (within : List (Exchange Request Request.Answer)) :
    List (Exchange Request Request.Answer) :=
  ⟨.progress (.start block.stage block.total), ()⟩ ::
    (within ++ [⟨.progress (.finish block.ok), ()⟩])

/-- `Journal exchanges blocks failure?`: what is reported in the exchanges are these blocks, one
after the other. `failure?` is the error that the exchanges end with, if they end with one. -/
inductive Journal : (exchanges : List (Exchange Request Request.Answer)) → (blocks : List Block) →
    (failure? : Option Error) → Prop where
  /-- Nothing more is exchanged. -/
  | finished (failure? : Option Error) : Journal [] [] failure?
  /-- An exchange outside of all stages reports nothing. -/
  | aside {exchange : Exchange Request Request.Answer}
      {exchanges : List (Exchange Request Request.Answer)} {blocks : List Block}
      {failure? : Option Error} (h : exchange.1.report? = none)
      (rest : Journal exchanges blocks failure?) : Journal (exchange :: exchanges) blocks failure?
  /-- A stage succeeds. -/
  | succeeded {block : Block} {within exchanges : List (Exchange Request Request.Answer)}
      {blocks : List Block} {failure? : Option Error} (h : block.Covers within (.ok ()))
      (rest : Journal exchanges blocks failure?) :
      Journal (block.exchanges within ++ exchanges) (block :: blocks) failure?
  /-- A stage fails, and nothing is done after it. -/
  | failed {block : Block} {within : List (Exchange Request Request.Answer)} {error : Error}
      (h : block.Covers within (.error error)) :
      Journal (block.exchanges within) [block] (some error)

variable {exchanges first second : List (Exchange Request Request.Answer)}
  {blocks blocks' : List Block} {ending : Option Error}

/-- The reports of a stage are those of its block. -/
theorem Block.Covers.reportsOf_exchanges {block : Block} {result : Except Error Unit}
    (h : block.Covers exchanges result) :
    Host.reportsOf (block.exchanges exchanges) = block.reports := by
  show _ :: Host.reportsOf (exchanges ++ _) = _
  rw [Host.reportsOf_append, h.reports_eq]
  rfl

namespace Journal

/-- Where nothing is reported there are no blocks, however the exchanges end. -/
theorem of_quiet (h : ∀ exchange ∈ exchanges, exchange.1.report? = none) (ending : Option Error) :
    Journal exchanges [] ending := by
  induction exchanges with
  | nil => exact .finished ending
  | cons exchange exchanges ih =>
    obtain ⟨hexchange, hrest⟩ := List.forall_mem_cons.mp h
    exact .aside hexchange (ih hrest)

/-- A journal goes on after exchanges that do not end with an error. -/
theorem append (h : Journal first blocks none) (h' : Journal second blocks' ending) :
    Journal (first ++ second) (blocks ++ blocks') ending := by
  -- With no error at the end, no block of the first part tells of a failure.
  generalize hnone : none = failure? at h
  induction h with
  | finished => exact h'
  | aside h rest ih => exact .aside h (ih hnone)
  | succeeded h rest ih =>
    rw [List.append_assoc]
    exact .succeeded h (ih hnone)
  | failed h => cases hnone

/-- The reports of a journal are those of its blocks, one after the other. -/
theorem reportsOf_eq (h : Journal exchanges blocks ending) :
    Host.reportsOf exchanges = blocks.flatMap Block.reports := by
  induction h with
  | finished => rfl
  | aside h rest ih => rw [Host.reportsOf_cons_of_none h, ih]
  | succeeded h rest ih =>
    rw [Host.reportsOf_append, h.reportsOf_exchanges, ih, List.flatMap_cons]
  | failed h => rw [h.reportsOf_exchanges, List.flatMap_cons, List.flatMap_nil, List.append_nil]

/-- Every block of a journal makes sense by itself. -/
theorem wellFormed (h : Journal exchanges blocks ending) : ∀ block ∈ blocks, block.WellFormed := by
  induction h with
  | finished => simp
  | aside h rest ih => exact ih
  | succeeded h rest ih => exact List.forall_mem_cons.mpr ⟨h.wellFormed, ih⟩
  | failed h => exact List.forall_mem_singleton.mpr h.wellFormed

end Journal

/-! ## Programs -/

namespace Host

variable {α β : Type}

/-- Whoever answers: what the program reports are complete blocks. -/
def Journals (program : Host α) : Prop :=
  ∀ ⦃exchanges result⦄, Runs program exchanges result →
    ∃ blocks, Journal exchanges blocks (failure? result)

/-- A program that reports nothing reports no incomplete block. -/
theorem Quiet.journals {program : Host α} (h : Quiet program) : Journals program :=
  fun _ _ hruns => ⟨[], .of_quiet (h.of_runs hruns) _⟩

/-- A sequence reports the blocks of its first part and then those of its second. A failure ends
both the first part and the sequence, within the same block. -/
theorem Journals.bind {program : Host α} {next : α → Host β} (h : Journals program)
    (hnext : ∀ value, Journals (next value)) : Journals (program >>= next) := by
  intro exchanges result hruns
  rcases runs_bind_iff.mp hruns with ⟨value, first, second, rfl, hfirst, hsecond⟩ | ⟨_, rfl, hfirst⟩
  · obtain ⟨blocks, hjournal⟩ := h hfirst
    obtain ⟨blocks', hjournal'⟩ := hnext value hsecond
    exact ⟨blocks ++ blocks', hjournal.append hjournal'⟩
  · exact h hfirst

/-- What an operation reports are complete blocks if that is so of its stages. -/
theorem closed_journals : Closed Journals where
  pure value := (quiet_pure value).journals
  bind := Journals.bind
  shiftDr scan := Quiet.journals (closed_quiet.shiftDr scan)
  setState state := Quiet.journals (closed_quiet.setState state)
  toggleClock cycles := Quiet.journals (closed_quiet.toggleClock cycles)
  clockFrequency := Quiet.journals closed_quiet.clockFrequency
  log level text := Quiet.journals (closed_quiet.log level text)
  records level := Quiet.journals (closed_quiet.records level)
  flush := Quiet.journals closed_quiet.flush
  sleep milliseconds := Quiet.journals (closed_quiet.sleep milliseconds)
  setClockFrequency hertz := Quiet.journals (closed_quiet.setClockFrequency hertz)

theorem journals_send (instruction : Instruction) : Journals (send instruction) :=
  (quiet_send instruction).journals

theorem journals_throw (error : Error) : Journals (throw error : Host α) :=
  (quiet_throw error).journals

/-- A stage that is reported on is one complete block. -/
theorem Reported.journals {stage : Stage} {total : Nat} {body : Host Unit}
    (h : Reported stage total body) : Journals (reporting stage total body) := by
  intro exchanges result hruns
  obtain ⟨within, rfl, hbody⟩ := hruns.between_reports
  obtain ⟨advances, hcovers⟩ := h hbody
  let block : Block := ⟨stage, total, advances, result.isOk⟩
  cases result with
  | ok _ =>
    have hjournal := Journal.succeeded hcovers (.finished none)
    rw [List.append_nil] at hjournal
    exact ⟨[block], hjournal⟩
  | error error => exact ⟨[block], .failed hcovers⟩

/-! ## Operations -/

/-- A load of the SRAM reports its stream as a block. -/
theorem journals_loadSram (image : Image) : Journals (Sram.load image) :=
  closed_journals.loadSram (fun _ _ => journals_send _) (reported_stream image).journals
    (journals_throw _)

/-- An erase of the embedded flash reports the attempts as a block; the erase of the SRAM before
them is quiet. -/
theorem journals_eraseFlash (profile : Profile) (limit : Nat) :
    Journals (EmbeddedFlash.erase profile limit) :=
  closed_journals.eraseFlash (journals_send _) (quiet_eraseSram limit).journals <|
    closed_journals.emptyFlash (journals_send _) (reported_tryErase profile limit).journals
      (journals_throw _)

/-- A write of the embedded flash reports the pages as a block. -/
theorem journals_writeFlash (profile : Profile) (limit : Nat) (base : UInt32) (image : Image) :
    Journals (EmbeddedFlash.write profile limit base image) :=
  closed_journals.writeFlash (journals_send _) (reported_writePages _ _ _).journals
    (quiet_finishWrite limit).journals

end Host

/-! ## Sessions -/

namespace Session

open Host (Journals closed_journals journals_send journals_throw)

variable (session : Session)

theorem journals_programSram (image : Image) : Journals (session.programSram image) :=
  closed_journals.programSram (fun _ _ => journals_send _) (Host.quiet_eraseSram _).journals
    (Host.journals_loadSram image)

/-- A session that rewrites the embedded flash reports complete blocks: of the erase, and of each
write. -/
theorem journals_programEmbeddedFlash (image : Image) :
    Journals (session.programEmbeddedFlash image) :=
  closed_journals.programEmbeddedFlash (fun _ _ => journals_send _)
    (Host.quiet_sendOpcode _).journals (fun _ => journals_throw _) (Host.journals_eraseFlash _ _)
    fun _ _ => Host.journals_writeFlash _ _ _ _

theorem journals_erase : Journals session.erase :=
  closed_journals.erase (Host.quiet_eraseSram _).journals (fun _ => journals_throw _)
    (Host.journals_eraseFlash _ _)

/-- A session reports complete blocks whatever it works on. What a chip driver does is not
reported. -/
theorem journals_program (offset : UInt32) : Journals (session.program offset) := by
  unfold program
  split
  · exact closed_journals.pure _
  · split
    · exact session.journals_programSram _
    · split
      · exact (closed_journals.log _ _).bind fun _ => journals_throw _
      · split
        · split
          · exact journals_throw _
          · exact (session.quiet_programExternalFlash _ _ _).journals.bind fun _ =>
              closed_journals.pure _
        · exact session.journals_programEmbeddedFlash _

end Session

/-! ## Work -/

/-- What can be asked of a device, or of a session with it. -/
inductive Work where
  /-- Open a session. -/
  | identify (job : Job)
  /-- Write the image of a session. -/
  | program (session : Session) (offset : UInt32)
  /-- Erase the memory of a session. -/
  | erase (session : Session)
  /-- Boot again. -/
  | reset
  /-- Hand the chain to the embedded processor. -/
  | connectProcessor
  /-- Erase the SRAM. -/
  | eraseSram (limit : Nat)
  /-- Load an image into SRAM. -/
  | loadSram (image : Image)
  /-- Erase the embedded flash. -/
  | eraseFlash (profile : Profile) (limit : Nat)
  /-- Write an image to the embedded flash. -/
  | writeFlash (profile : Profile) (limit : Nat) (base : UInt32) (image : Image)
  /-- Compare the usercode with an image. -/
  | checkUsercode (image : Image)
  /-- Send an instruction. -/
  | sendOpcode (code : UInt8)
  /-- Read a register. -/
  | readRegister (code : UInt8)
  /-- Wait for a status. -/
  | awaitStatus (mask expected : Status) (limit : Nat)
  /-- Open the gate. -/
  | enableConfig (limit : Nat)
  /-- Close the gate. -/
  | disableConfig (limit : Nat)
  /-- Move bytes to and from an external flash. -/
  | serve (encoding : SpiEncoding) (request : SpiRequest)

namespace Work

open Host (closed_journals journals_send journals_throw)

/-- The work as a program of the host. What it finds is not kept. -/
def onHost : Work → Host Unit
  | identify job => do let _ ← Session.open? job
  | program session offset => do let _ ← session.program offset
  | erase session => session.erase
  | reset => Session.reset
  | connectProcessor => Session.connectProcessor
  | eraseSram limit => Sram.erase limit
  | loadSram image => Sram.load image
  | eraseFlash profile limit => EmbeddedFlash.erase profile limit
  | writeFlash profile limit base image => EmbeddedFlash.write profile limit base image
  | checkUsercode image => do let _ ← Device.checkUsercode image
  | sendOpcode code => Device.sendOpcode code
  | readRegister code => do let _ ← Device.readRegister code
  | awaitStatus mask expected limit => Device.awaitStatus mask expected limit
  | enableConfig limit => Device.enableConfig limit
  | disableConfig limit => Device.disableConfig limit
  | serve encoding request => do let _ ← ExceptT.lift (request.serve encoding)

/-- What comes of work that is done piece by piece, whatever comes of the pieces before. -/
def outcomes {σ : Type} (cable : Cable σ) (filter : LogFilter) :
    (works : List Work) → (device : σ) → List (Host.Outcome σ Unit)
  | [], _ => []
  | work :: works, device =>
    let outcome := Host.run cable filter work.onHost device
    outcome :: outcomes cable filter works outcome.device

/-- Whatever is asked of a device, what is reported are complete blocks. -/
theorem journals (work : Work) : work.onHost.Journals := by
  -- What a program hands back is dropped, which reports nothing.
  have hdrop : ∀ {α : Type} {program : Host α}, program.Journals →
      Host.Journals (program >>= fun _ => pure ()) :=
    fun h => h.bind fun _ => closed_journals.pure _
  cases work with
  | identify job => exact hdrop (Session.quiet_open job).journals
  | program session offset => exact hdrop (session.journals_program offset)
  | erase session => exact session.journals_erase
  | reset => exact Host.quiet_reload.journals
  | connectProcessor => exact journals_send _
  | eraseSram limit => exact (Host.quiet_eraseSram limit).journals
  | loadSram image => exact Host.journals_loadSram image
  | eraseFlash profile limit => exact Host.journals_eraseFlash profile limit
  | writeFlash profile limit base image => exact Host.journals_writeFlash profile limit base image
  | checkUsercode image => exact hdrop (Host.quiet_checkUsercode image).journals
  | sendOpcode code => exact (Host.quiet_sendOpcode code).journals
  | readRegister code =>
    exact hdrop (closed_journals.readRegister (Host.quiet_sendOpcode code).journals)
  | awaitStatus mask expected limit =>
    exact closed_journals.awaitStatus (journals_send _) (journals_throw _) mask expected limit
  | enableConfig limit =>
    exact closed_journals.enableConfig (fun _ _ => journals_send _) (journals_throw _) limit
  | disableConfig limit =>
    exact closed_journals.disableConfig (fun _ _ => journals_send _) (journals_throw _) limit
  | serve encoding request =>
    exact hdrop (Host.Quiet.journals (Host.asks_lift (request.quiet_serve encoding)))

/-- Over every cable, whatever it answers and wherever it fails, the reports of work that is done
piece by piece are complete blocks, one after the other. No block is left open when a piece of work
is over, and every block makes sense. -/
theorem reports_outcomes {σ : Type} (cable : Cable σ) (filter : LogFilter) (works : List Work)
    (device : σ) :
    ∃ journal : List (List Block),
      List.Forall₂ (fun outcome blocks =>
          Journal outcome.exchanges blocks (failure? outcome.result) ∧
            Host.reportsOf outcome.exchanges = blocks.flatMap Block.reports ∧
            ∀ block ∈ blocks, block.WellFormed)
        (outcomes cable filter works device) journal ∧
      (outcomes cable filter works device).flatMap (Host.reportsOf ·.exchanges) =
        journal.flatten.flatMap Block.reports := by
  -- Each piece of work starts with the device that the one before has left.
  induction works generalizing device with
  | nil => exact ⟨[], .nil, rfl⟩
  | cons work works ih =>
    let outcome := Host.run cable filter work.onHost device
    obtain ⟨blocks, hblocks⟩ := work.journals (Host.runs_run cable filter work.onHost device)
    obtain ⟨journal, hjournal, hreports⟩ := ih outcome.device
    refine ⟨blocks :: journal,
      .cons ⟨hblocks, hblocks.reportsOf_eq, hblocks.wellFormed⟩ hjournal, ?_⟩
    rw [outcomes, List.flatMap_cons, hreports, hblocks.reportsOf_eq, List.flatten_cons,
      List.flatMap_append]

/-- An erase that succeeds, and a write that fails in its first page. -/
example :
    let session := Session.ofJob 0x0900281B
      { target := .flash, image? := some (Bitstream.ofData [1, 2, 3]).toImage }
    (outcomes (Simulator.cable.failingOnce .transport) none [.program session 0]
        (.powerUp {}, 262)).map (Host.reportsOf ·.exchanges) =
      [[.start .eraseFlash 100, .advance 1, .finish true,
        .start .writeFlash 3, .finish false]] := by
  decide +kernel

end Work

end FpgaProgrammer
