import FpgaProgrammer.Proofs.Instructions.Sent
import FpgaProgrammer.Proofs.Spi.Closed
import FpgaProgrammer.Simulator.Step

/-!
# Instructions on the way to an external flash

A driver of an external flash chip may ask for any SPI traffic, and may go on after a failure. The
host then sends one instruction at most, the one that connects the data register to the flash
(`sends_onHost`). So programming an external flash writes neither the SRAM nor the embedded flash
(`sends_programExternalFlash`), and this is where a raw image goes in a session that works on flash.
-/

namespace FpgaProgrammer

open Host (Sends closed_sends)

variable {α : Type}

/-! ## Drivers -/

/-- Whatever a driver asks for, and however it goes on after a failure, nothing is sent for it but
the instruction that connects the data register to the flash. -/
theorem Spi.sends_onHost (encoding : SpiEncoding) (program : Spi α) :
    Sends [.spiPassthrough] (program.onHost encoding) := by
  have hcable : ∀ call : CableCall, (∀ data bits, call ≠ .shiftIr data bits) →
      (Request.cable call).SendsOnly [.spiPassthrough] := by
    intro call hcall
    cases call with
    | shiftIr data bits => exact absurd rfl (hcall data bits)
    | _ => exact Request.sendsOnly_of_none rfl
  have hconnect : (ExceptT.run (Device.send .spiPassthrough)).Asks
      (Request.SendsOnly [.spiPassthrough]) := by
    refine Host.asks_sendOpcode (fun instruction hsent => ?_) (hcable _ nofun)
    have hopcode : Instruction.ofOpcode? Instruction.spiPassthrough.opcode = some instruction :=
      hsent
    rw [Instruction.ofOpcode?_opcode] at hopcode
    exact List.mem_singleton.mpr (Option.some.inj hopcode).symm
  refine HostDialogue.sends_of_asks (Spi.asks_onHost (Host.closed_asks hcable ?_ ?_) hconnect ?_ ..)
  · exact fun _ _ => Request.sendsOnly_of_none rfl
  · exact fun _ => Request.sendsOnly_of_none rfl
  · exact fun _ => Request.sendsOnly_of_none rfl

namespace Session

/-- Programming an external flash sends no instruction that writes the SRAM or the embedded
flash. -/
theorem sends_programExternalFlash (session : Session) (driver : ChipDriver) (offset : UInt32)
    (image : Image) :
    Sends [.readStatus, .configEnable, .eraseSram, .noop, .transferDone, .configDisable,
      .spiBoundaryScan, .spiPassthrough, .reload]
      (session.programExternalFlash driver offset image) :=
  closed_sends.programExternalFlash (Host.maySend_sends.mono (by decide)) (Host.sends_throw _)
    (fun _ h => h.rethrow) ((Host.sends_eraseSram _).mono (by decide))
    ((Spi.sends_onHost _ _).mono (by decide))

/-! ## Raw images -/

/-- A session that was opened is the one of its job, on a device that the job was checked
against. -/
theorem of_open? {job : Job} {session : Session}
    {exchanges : List (Exchange Request Request.Answer)}
    (h : Host.Runs (open? job) exchanges (.ok session)) :
    ∃ idcode, session = ofJob idcode job ∧ checkJob idcode job = .ok () := by
  obtain ⟨idcode, _, _, -, -, h⟩ := h.of_bind
  obtain ⟨_, _, _, -, -, h⟩ := h.of_bind
  refine ⟨idcode, ?_⟩
  cases hcheck : checkJob idcode job with
  | ok _ =>
    rw [hcheck] at h
    obtain ⟨-, hsession⟩ := Host.runs_pure_iff.mp h
    exact ⟨Except.ok.inj hsession, rfl⟩
  | error error =>
    -- A job that is refused ends with its error, be that written into the log or not.
    rw [hcheck] at h
    cases error with
    | idcodeMismatch image device =>
      obtain ⟨_, _, _, -, -, hthrow⟩ := h.of_bind
      cases (Host.runs_throw_iff.mp hthrow).2
    | _ => cases (Host.runs_throw_iff.mp h).2

/-- A raw image is accepted only if an external flash is asked for. -/
theorem externalFlash_of_checkJob {idcode : UInt32} {job : Job} {image : Image}
    (himage : job.image? = some image) (hraw : image.kind = .raw)
    (hcheck : checkJob idcode job = .ok ()) : job.externalFlash = true := by
  cases hexternal : job.externalFlash with
  | true => rfl
  | false =>
    unfold checkJob checkImage at hcheck
    rw [himage] at hcheck
    simp only [hraw, hexternal] at hcheck
    cases hcheck

/-- Programming the SRAM writes no page of the embedded flash. -/
theorem sends_programSram (session : Session) (image : Image) :
    Sends [.readStatus, .reload, .noop, .configEnable, .eraseSram, .transferDone, .configDisable,
      .initAddress, .transferWrite, .checksumStart, .checksumEnd, .readUsercode]
      (session.programSram image) :=
  closed_sends.programSram (Host.maySend_sends.mono (by decide))
    ((Host.sends_eraseSram _).mono (by decide)) ((Host.sends_loadSram _).mono (by decide))

/-- A session that works on flash and uses an external one writes to no memory of the device. -/
theorem sends_program_of_external {session : Session} (htarget : session.job.target = .flash)
    (hexternal : session.usesExternalFlash = true) (offset : UInt32) :
    Sends [.readStatus, .configEnable, .eraseSram, .noop, .transferDone, .configDisable,
      .spiBoundaryScan, .spiPassthrough, .reload] (session.program offset) := by
  unfold Session.program
  cases session.job.image? with
  | none => exact Host.sends_pure _
  | some image =>
    simp only [htarget, hexternal, if_true]
    split
    · exact (Host.sends_log _ _).bind fun _ => Host.sends_throw _
    · split
      · exact Host.sends_throw _
      · exact (sends_programExternalFlash _ _ _ _).bind fun _ => Host.sends_pure _

/-- No session with a raw image writes it to the embedded flash, and none that works on flash loads
it into the SRAM. -/
theorem program_raw {σ : Type} (cable : Cable σ) (filter : LogFilter) (opened device : σ)
    {job : Job} {image : Image} (himage : job.image? = some image) (hraw : image.kind = .raw)
    {session : Session} (hopen : (Host.run cable filter (open? job) opened).result = .ok session)
    (offset : UInt32) :
    ∀ exchange ∈ (Host.run cable filter (session.program offset) device).exchanges,
      exchange.1.instruction? ≠ some .flashProgram ∧
        (job.target = .flash → exchange.1.instruction? ≠ some .transferWrite) := by
  intro exchange hmem
  have hopening := Host.runs_run cable filter (open? job) opened
  have hprogram := Host.runs_run cable filter (session.program offset) device
  rw [hopen] at hopening
  obtain ⟨idcode, rfl, hcheck⟩ := of_open? hopening
  have hexternal := externalFlash_of_checkJob himage hraw hcheck
  have huses : (ofJob idcode job).usesExternalFlash = true := by
    show (job.externalFlash || _) = true
    rw [hexternal, Bool.true_or]
  cases htarget : job.target with
  | sram =>
    refine ⟨fun hsent => ?_, fun hflash => by cases hflash⟩
    have hsram : (ofJob idcode job).program offset = (ofJob idcode job).programSram image := by
      unfold Session.program
      rw [show (ofJob idcode job).job = job from rfl, himage, htarget]
    have hsends := sends_programSram (ofJob idcode job) image
    rw [← hsram] at hsends
    exact absurd (hsends hprogram exchange hmem _ hsent) (by decide)
  | flash =>
    have hsends : Sends _ ((ofJob idcode job).program offset) :=
      sends_program_of_external htarget huses offset
    exact ⟨fun hsent => absurd (hsends hprogram exchange hmem _ hsent) (by decide),
      fun _ hsent => absurd (hsends hprogram exchange hmem _ hsent) (by decide)⟩

/-- A raw image is opened for the external flash of a device, whose pins are handed over to a driver
that sends one command: the programming succeeds and neither instruction is among those sent. -/
theorem program_raw_flash :
    let driver : ChipDriver := fun _ _ _ => do let _ ← Spi.command 0x06 none none
    let job : Job :=
      { target := .flash, externalFlash := true, image? := some (.ofRaw [1, 2, 3]),
        chipDriver? := some driver }
    let outcome := Host.run Simulator.cable none ((ofJob 0x0900281B job).program 0)
      (Simulator.powerUp {})
    outcome.result = .ok .skipped ∧
      (∃ exchange ∈ outcome.exchanges,
        exchange.1.instruction? = some .spiBoundaryScan) ∧
      ∀ exchange ∈ outcome.exchanges,
        exchange.1.instruction? ≠ some .flashProgram ∧
          exchange.1.instruction? ≠ some .transferWrite := by
  intro driver job outcome
  have hconnected : outcome.exchanges.any
      (fun exchange => exchange.1.instruction? == some .spiBoundaryScan) = true := by
    decide +kernel
  obtain ⟨connecting, hmem, hsent⟩ := List.any_eq_true.mp hconnected
  refine ⟨rfl, ⟨connecting, hmem, beq_iff_eq.mp hsent⟩, fun exchange hexchange => ?_⟩
  have hopen : (Host.run Simulator.cable none (open? job) (Simulator.powerUp {})).result =
      .ok (ofJob 0x0900281B job) := rfl
  obtain ⟨hflash, hsram⟩ := program_raw Simulator.cable none (Simulator.powerUp {})
    (Simulator.powerUp {}) rfl rfl hopen 0 exchange hexchange
  exact ⟨hflash, hsram rfl⟩

/-- A raw image is also opened for the SRAM if an external flash is asked for, and then loaded into
it: the check of the image does not look at the memory that is worked on. -/
theorem program_raw_sram :
    let job : Job := { target := .sram, externalFlash := true, image? := some (.ofRaw [1, 2, 3]) }
    (Host.run Simulator.cable none (open? job) (Simulator.powerUp {})).result =
        .ok (ofJob 0x0900281B job) ∧
      ∃ exchange ∈ (Host.run Simulator.cable none ((ofJob 0x0900281B job).program 0)
          (Simulator.powerUp {})).exchanges,
        exchange.1.instruction? = some .transferWrite := by
  intro job
  have hloaded : (Host.run Simulator.cable none ((ofJob 0x0900281B job).program 0)
      (Simulator.powerUp {})).exchanges.any
        (fun exchange => exchange.1.instruction? == some .transferWrite) = true := by
    decide +kernel
  obtain ⟨exchange, hmem, hsent⟩ := List.any_eq_true.mp hloaded
  exact ⟨rfl, exchange, hmem, beq_iff_eq.mp hsent⟩

end Session

end FpgaProgrammer
