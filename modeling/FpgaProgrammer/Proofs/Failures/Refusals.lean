import FpgaProgrammer.Proofs.Failures.Accepted
import FpgaProgrammer.Proofs.Instructions.Sent
import FpgaProgrammer.Simulator.Step

/-!
# Refusals leave the device alone

Work that a session refuses has not been begun. Most refusals are made without a call of the cable;
to find out that a device is not ready takes a look at its status, and nothing else is sent then
(`FoundUnready`).

The failures of the cable itself and of a chip driver are told apart from refusals by
`Cable.FailsPlainly` and `ChipDriver.FailsPlainly`. A cable that refused something of its own would
be taken for the session.

* `Host.Runs.of_bind_refused`: a refusal does not come from a part that takes up its work.
* `Session.refused_program`, `Session.refused_erase`: what has been exchanged by then, whoever
  answers.
* `Session.refusals`: the same over a cable, and when a session refuses, whatever the cable.
-/

namespace FpgaProgrammer

open Host (Accepts Raises Runs)

variable {σ α β : Type} {exchanges first second : List (Exchange Request Request.Answer)}
  {error : Error}

/-! ## Plain failures -/

/-- The failures that a cable or a chip driver has of its own. -/
def Error.isPlain : Error → Bool
  | .transport | .chipDriver => true
  | _ => false

/-- The failures of cables and chip drivers refuse nothing. -/
theorem Error.isRefusal_of_isPlain (h : error.isPlain = true) : error.isRefusal = false := by
  cases error <;> first | rfl | cases h

/-- Whatever call fails, it is the cable itself that has failed. -/
def Cable.FailsPlainly (cable : Cable σ) : Prop :=
  ∀ (call : CableCall) (device : σ) (error : Error),
    call.failure? (cable call device).1 = some error → error.isPlain = true

/-- What the driver fails with is a failure that it has been handed, or one of its own. -/
def ChipDriver.FailsPlainly (driver : ChipDriver) : Prop :=
  ∀ ⦃offset data options answered error⦄,
    Dialogue.Runs (ExceptT.run (driver offset data options)) answered (.error error) →
    error.isPlain = true ∨ ∃ exchange ∈ answered, exchange.1.failure? exchange.2 = some error

/-- The cable has refused nothing. -/
def Unrefused (exchanges : List (Exchange Request Request.Answer)) : Prop :=
  ∀ exchange ∈ exchanges, ∀ error, Exchange.failure? exchange = some error → error.isRefusal = false

theorem unrefused_append :
    Unrefused (first ++ second) ↔ Unrefused first ∧ Unrefused second :=
  List.forall_mem_append

/-- A cable that fails plainly refuses nothing. -/
theorem Cable.FailsPlainly.unrefused {cable : Cable σ} (h : cable.FailsPlainly) {filter : LogFilter}
    {device : σ} (hgives : (Host.surroundings cable filter).Gives device exchanges) :
    Unrefused exchanges := by
  induction exchanges generalizing device with
  | nil => simp [Unrefused]
  | cons exchange exchanges ih =>
    obtain ⟨request, answer⟩ := exchange
    obtain ⟨rfl, hrest⟩ := hgives
    refine List.forall_mem_cons.mpr ⟨fun error hfailed => ?_, ih hrest⟩
    cases request with
    | cable call => exact Error.isRefusal_of_isPlain (h call device error hfailed)
    | _ => cases hfailed

/-- A program that takes up its work does not end with a refusal, unless the cable has refused. -/
theorem Host.Accepts.not_refused {program : Host α} (h : Accepts program)
    (hunrefused : Unrefused exchanges) (hrefusal : error.isRefusal = true) :
    ¬ Runs program exchanges (.error error) := by
  intro hruns
  rcases h hruns rfl with hown | ⟨exchange, hmem, hfailure⟩
  · cases hrefusal.symm.trans hown
  · cases hrefusal.symm.trans (hunrefused exchange hmem error hfailure)

/-- A sequence whose first part takes up its work is refused by what follows. -/
theorem Host.Runs.of_bind_refused {program : Host α} {next : α → Host β}
    (h : Runs (program >>= next) exchanges (.error error)) (haccepts : Accepts program)
    (hunrefused : Unrefused exchanges) (hrefusal : error.isRefusal = true) :
    ∃ value first second, exchanges = first ++ second ∧ Unrefused second ∧
      Runs program first (.ok value) ∧ Runs (next value) second (.error error) := by
  rcases Host.runs_bind_iff.mp h with
    ⟨value, first, second, rfl, hfirst, hsecond⟩ | ⟨_, heq, hfirst⟩
  · exact ⟨value, first, second, rfl, (unrefused_append.mp hunrefused).2, hfirst, hsecond⟩
  · cases heq
    exact absurd hfirst (haccepts.not_refused hunrefused hrefusal)

/-! ## Instructions -/

/-- If the request shifts bits into the instruction register, they are one of the codes. -/
def Request.Shifts (codes : List UInt8) : Request → Prop
  | .cable (.shiftIr data bits) => bits = 8 ∧ ∃ code ∈ codes, data = [code]
  | _ => True

namespace Host

variable {codes : List UInt8}

/-- Where the parts of a program only shift in these codes, the whole does. -/
theorem closed_shifts :
    Closed fun program => (ExceptT.run program).Asks (Request.Shifts codes) := by
  refine closed_asks (fun call hcall => ?_) (fun _ _ => trivial) fun _ => trivial
  cases call with
  | shiftIr data bits => exact absurd rfl (hcall data bits)
  | _ => trivial

theorem shifts_sendOpcode {code : UInt8} (h : code ∈ codes) :
    (ExceptT.run (Device.sendOpcode code)).Asks (Request.Shifts codes) :=
  asks_sendOpcode ⟨rfl, code, h, rfl⟩ trivial

theorem shifts_readStatus (h : Instruction.readStatus.opcode ∈ codes) :
    (ExceptT.run Device.readStatus).Asks (Request.Shifts codes) :=
  closed_shifts.readStatus (shifts_sendOpcode h)

/-- A look at the status for the log shifts in no other code than a look itself. -/
theorem shifts_logStatus (h : Instruction.readStatus.opcode ∈ codes) (occasion : String) :
    (ExceptT.run (Device.logStatus occasion)).Asks (Request.Shifts codes) :=
  closed_shifts.logStatus (shifts_sendOpcode h) occasion

end Host

/-! ## Sessions -/

namespace Session

open Host (closed_accepts)

variable (session : Session)

theorem accepts_programSram (image : Image) : Accepts (session.programSram image) :=
  closed_accepts.programSram (fun _ _ => Host.raises_send _) (Host.accepts_eraseSram _)
    (Host.accepts_loadSram image)

/-- With a driver whose failures are plain, a session that programs an external flash throws no
refusal. -/
theorem accepts_programExternalFlash {driver : ChipDriver} (h : driver.FailsPlainly)
    (offset : UInt32) (image : Image) :
    Accepts (session.programExternalFlash driver offset image) := by
  refine closed_accepts.programExternalFlash (fun _ _ => Host.raises_send _)
    (Host.accepts_throw rfl) (fun _ h => h.rethrow) (Host.accepts_eraseSram _) ?_
  exact Spi.accepts_onHost _ fun answered error hruns =>
    (h hruns).imp_left Error.isRefusal_of_isPlain

/-- What is sent to look at a device. -/
def inspectionCodes : List UInt8 :=
  [Instruction.configDisable.opcode, 0x00, Instruction.readStatus.opcode]

/-- The device is looked at, after it has left any mode it was in. -/
def inspect : Host Status := do
  let _ ← Host.setClockFrequency flashClock
  Device.send .configDisable
  Device.sendOpcode 0x00
  Host.setState .testLogicReset
  Device.readStatus

/-- The embedded flash is written, unless the device is not ready for it. -/
def writeIfReady (image : Image) (status : Status) : Host Device.UsercodeCheck := do
  if !(status.has .gowinValid || status.has .powerOnReset) then
    Host.log .error "Either GOWIN_VLD or POR should be set, aborting"
    Device.logStatus "before program flash"
    throw (.notReady status.bits)
  Device.EmbeddedFlash.erase session.profile session.limit
  Device.EmbeddedFlash.write session.profile session.limit 0 image
  if let some firmware := session.job.firmware? then
    Device.EmbeddedFlash.write session.profile session.limit firmwareAddress firmware
  if session.job.verify then
    Host.log .warn "writing verification not supported"
  let check ← session.verifyUsercode image
  Device.logStatus "after program flash"
  pure check

/-- The embedded flash is programmed by a look at the device, and by what the status seen there
allows. -/
theorem programEmbeddedFlash_eq (image : Image) :
    session.programEmbeddedFlash image = inspect >>= session.writeIfReady image := by
  simp only [programEmbeddedFlash, inspect, bind_assoc]
  rfl

/-- A look at the device throws no refusal; what follows from the status is decided after it. -/
theorem accepts_inspect : Accepts inspect :=
  (Host.raises_setClockFrequency _).bind fun _ => (Host.raises_send _).bind fun _ =>
    (Host.raises_sendOpcode _).bind fun _ => (Host.raises_setState _).bind fun _ =>
      Host.raises_readStatus

/-- Only a status that shows neither a design nor a device that was just powered up is a reason not
to write. -/
theorem refused_writeIfReady {image : Image} {status : Status}
    (h : Runs (session.writeIfReady image status) exchanges (.error error))
    (hunrefused : Unrefused exchanges) (hrefusal : error.isRefusal = true) :
    error = .notReady status.bits ∧ status.has .gowinValid = false ∧
      status.has .powerOnReset = false ∧
      ∀ exchange ∈ exchanges, exchange.1.Shifts inspectionCodes := by
  unfold writeIfReady at h
  have hwrite : Accepts (session.rewriteEmbeddedFlash image) :=
    closed_accepts.rewriteEmbeddedFlash (fun _ _ => Host.raises_send _)
      (Host.accepts_eraseFlash _ _) (fun _ _ => Host.accepts_writeFlash _ _ _ _) image
  extract_lets finish warn write at h
  split at h
  · next hready =>
    -- What is reported before the refusal may read the status again, but nothing else.
    obtain ⟨_, logged, rest, rfl, hunrefused, hlog, h⟩ :=
      h.of_bind_refused (Host.raises_log _ _) hunrefused hrefusal
    obtain ⟨_, shown, rest, rfl, hunrefused, hshow, h⟩ :=
      h.of_bind_refused (Host.raises_logStatus _) hunrefused hrefusal
    obtain ⟨rfl, hthrown⟩ := Host.runs_throw_iff.mp h
    simp only [Bool.not_eq_true', Bool.or_eq_false_iff] at hready
    refine ⟨Except.error.inj hthrown, hready.1, hready.2, fun exchange hmem => ?_⟩
    rw [List.append_nil] at hmem
    rcases List.mem_append.mp hmem with hmem | hmem
    · exact (Host.asks_ask trivial).of_runs hlog exchange hmem
    · exact (Host.shifts_logStatus (by decide) _).of_runs hshow exchange hmem
  · exact absurd h (hwrite.not_refused hunrefused hrefusal)

/-- What is looked at is a status that is read last. -/
theorem read_of_inspect {status : Status} (h : Runs inspect exchanges (.ok status)) :
    ∃ before reading, exchanges = before ++ reading ∧
      Runs Device.readStatus reading (.ok status) := by
  obtain ⟨_, clocked, rest, rfl, -, h⟩ := h.of_bind
  obtain ⟨_, disabled, rest, rfl, -, h⟩ := h.of_bind
  obtain ⟨_, zeroed, rest, rfl, -, h⟩ := h.of_bind
  obtain ⟨_, moved, reading, rfl, -, h⟩ := h.of_bind
  exact ⟨clocked ++ (disabled ++ (zeroed ++ moved)), reading, by simp, h⟩

/-- A look at the device closes the gate, sends an opcode without effect, and reads the status. -/
theorem shifts_inspect : (ExceptT.run inspect).Asks (Request.Shifts inspectionCodes) := by
  refine Host.asks_bind ⟨trivial, fun _ => trivial⟩ fun _ => ?_
  refine Host.asks_bind (Host.shifts_sendOpcode (by decide)) fun _ => ?_
  refine Host.asks_bind (Host.shifts_sendOpcode (by decide)) fun _ => ?_
  refine Host.asks_bind ⟨trivial, fun _ => trivial⟩ fun _ => ?_
  exact Host.shifts_readStatus (by decide)

end Session

/-- A status was read with these bits, which show neither a design nor a device that was just
powered up; and nothing was sent but what it takes to read it. -/
structure FoundUnready (bits : UInt32)
    (exchanges : List (Exchange Request Request.Answer)) : Prop where
  /-- The status that was read. -/
  status_read : ∃ status before reading after, exchanges = before ++ reading ++ after ∧
    Runs Device.readStatus reading (.ok status) ∧ status.bits = bits ∧
    status.has .gowinValid = false ∧ status.has .powerOnReset = false
  /-- What was sent. -/
  shifts : ∀ exchange ∈ exchanges, exchange.1.Shifts Session.inspectionCodes

/-- Nothing that was sent erases or writes a memory, or reloads it. -/
theorem FoundUnready.spares {bits : UInt32} (h : FoundUnready bits exchanges) :
    ∀ exchange ∈ exchanges, ∀ instruction, exchange.1.instruction? = some instruction →
      instruction ∉ [.configEnable, .eraseSram, .flashErase, .initAddress, .transferWrite,
        .flashProgram, .reload] := by
  have hspared : ∀ instruction : Instruction, instruction.opcode ∈ Session.inspectionCodes →
      instruction ∉ [.configEnable, .eraseSram, .flashErase, .initAddress, .transferWrite,
        .flashProgram, .reload] := by
    intro instruction
    cases instruction <;> decide
  rintro ⟨request, answer⟩ hmem instruction hsent
  have hshifts := h.shifts _ hmem
  cases request with
  | cable call =>
    cases call with
    | shiftIr data bits =>
      obtain ⟨-, code, hcode, rfl⟩ := hshifts
      exact hspared instruction (Instruction.opcode_of_ofOpcode? hsent ▸ hcode)
    | _ => cases hsent
  | _ => cases hsent

namespace Session

variable (session : Session)

/-- The one refusal in programming the embedded flash is that of a device that is found unready. -/
theorem refused_programEmbeddedFlash {image : Image}
    (h : Runs (session.programEmbeddedFlash image) exchanges (.error error))
    (hunrefused : Unrefused exchanges) (hrefusal : error.isRefusal = true) :
    ∃ bits, error = .notReady bits ∧ FoundUnready bits exchanges := by
  rw [programEmbeddedFlash_eq] at h
  obtain ⟨status, looked, rest, rfl, hrest, hlook, h⟩ :=
    h.of_bind_refused accepts_inspect hunrefused hrefusal
  obtain ⟨rfl, hvalid, hreset, hshown⟩ := session.refused_writeIfReady h hrest hrefusal
  obtain ⟨before, reading, rfl, hread⟩ := read_of_inspect hlook
  exact ⟨_, rfl, ⟨status, before, reading, rest, rfl, hread, rfl, hvalid, hreset⟩,
    List.forall_mem_append.mpr ⟨shifts_inspect.of_runs hlook, hshown⟩⟩

/-- Work that is refused was not begun: the cable has not been called, or it was called to find that
the device is not ready. -/
theorem refused_program {offset : UInt32}
    (hdriver : ∀ driver, session.job.chipDriver? = some driver → driver.FailsPlainly)
    (h : Runs (session.program offset) exchanges (.error error))
    (hunrefused : Unrefused exchanges) (hrefusal : error.isRefusal = true) :
    (∃ bits, error = .notReady bits ∧ FoundUnready bits exchanges) ∨
      (∀ bits, error ≠ .notReady bits) ∧ ∀ exchange ∈ exchanges, exchange.1.isCall = false := by
  -- What accepts its work cannot have ended with a refusal. This leaves the paths that refuse.
  have hnot : ∀ {program : Host Device.UsercodeCheck}, Accepts program →
      ¬ Runs program exchanges (.error error) := fun h => h.not_refused hunrefused hrefusal
  unfold program at h
  cases himage : session.job.image? with
  | none =>
    rw [himage] at h
    exact absurd h (hnot (Host.raises_pure _))
  | some image =>
    simp only [himage] at h
    cases htarget : session.job.target with
    | sram =>
      rw [htarget] at h
      exact absurd h (hnot (session.accepts_programSram image))
    | flash =>
      simp only [htarget] at h
      split at h
      · -- The family is refused: that is said in a message, and the cable is not called.
        obtain ⟨_, logged, rest, rfl, -, hlog, h⟩ :=
          h.of_bind_refused (Host.raises_log _ _) hunrefused hrefusal
        obtain ⟨rfl, hthrown⟩ := Host.runs_throw_iff.mp h
        obtain rfl := Except.error.inj hthrown
        have hsilent : ∀ level text, (ExceptT.run (Host.log level text)).Asks (·.isCall = false) :=
          fun _ _ => Host.asks_ask rfl
        rw [List.append_nil]
        exact .inr ⟨nofun, (hsilent _ _).of_runs hlog⟩
      · split at h
        · cases hdriver? : session.job.chipDriver? with
          | none =>
            rw [hdriver?] at h
            obtain ⟨rfl, hthrown⟩ := Host.runs_throw_iff.mp h
            obtain rfl := Except.error.inj hthrown
            exact .inr ⟨nofun, by simp⟩
          | some driver =>
            simp only [hdriver?] at h
            have haccepts :=
              session.accepts_programExternalFlash (hdriver driver hdriver?) offset image
            exact absurd h (hnot (haccepts.bind fun _ => Host.raises_pure _))
        · exact .inl (session.refused_programEmbeddedFlash h hunrefused hrefusal)

/-- An erase that is refused was not begun. -/
theorem refused_erase (h : Runs session.erase exchanges (.error error))
    (hunrefused : Unrefused exchanges) (hrefusal : error.isRefusal = true) :
    ∀ exchange ∈ exchanges, exchange.1.isCall = false := by
  have hnot : ∀ {program : Host Unit}, Accepts program →
      ¬ Runs program exchanges (.error error) := fun h => h.not_refused hunrefused hrefusal
  unfold erase at h
  cases htarget : session.job.target with
  | sram =>
    rw [htarget] at h
    exact absurd h (hnot (Host.accepts_eraseSram _))
  | flash =>
    simp only [htarget] at h
    split at h
    · obtain ⟨rfl, -⟩ := Host.runs_throw_iff.mp h
      simp
    · split at h
      · obtain ⟨rfl, -⟩ := Host.runs_throw_iff.mp h
        simp
      · exact absurd h (hnot ((Host.raises_setClockFrequency _).bind fun _ =>
          Host.accepts_eraseFlash _ _))

end Session

/-! ## Over a cable -/

namespace Host

/-- The cable has not been called. -/
def Outcome.Silent (outcome : Outcome σ α) : Prop :=
  ∀ exchange ∈ outcome.exchanges, exchange.1.isCall = false

end Host

namespace Session

/-- Over every cable, flash is refused to a family for which it is not offered, and so is the erase
of an external flash. -/
theorem run_refused (cable : Cable σ) (filter : LogFilter) (device : σ) {session : Session}
    (hflash : session.job.target = .flash) (offset : UInt32) :
    (session.profile.withoutFlashWrite = true → session.job.image?.isSome →
      (Host.run cable filter (session.program offset) device).result =
        .error (.unsupported "flash programming on this family")) ∧
    (session.usesExternalFlash = true →
      (Host.run cable filter session.erase device).result =
        .error (.unsupported "external flash erase")) ∧
    (session.usesExternalFlash = false → session.profile.withoutFlashWrite = true →
      (Host.run cable filter session.erase device).result =
        .error (.unsupported "flash erase on this family")) := by
  refine ⟨fun hrefused himage => ?_, fun hexternal => ?_, fun hexternal hrefused => ?_⟩
  · obtain ⟨image, himage⟩ := Option.isSome_iff_exists.mp himage
    simp only [program, himage, hflash, hrefused, if_true]
    rfl
  · simp only [erase, hflash, hexternal, if_true]
    rfl
  · simp only [erase, hflash, hexternal, hrefused, if_true, Bool.false_eq_true, if_false]
    rfl

/-- Work that is refused has not touched a memory of the device. -/
theorem refusals (cable : Cable σ) (filter : LogFilter) (device : σ) (session : Session)
    (offset : UInt32) :
    let programmed := Host.run cable filter (session.program offset) device
    let erased := Host.run cable filter session.erase device
    (cable.FailsPlainly →
      (∀ driver, session.job.chipDriver? = some driver → driver.FailsPlainly) →
      (∀ error, error = .noChipDriver ∨ (∃ what, error = .unsupported what) →
        (programmed.result = .error error → programmed.Silent) ∧
        (erased.result = .error error → erased.Silent)) ∧
      ∀ bits, programmed.result = .error (.notReady bits) →
        FoundUnready bits programmed.exchanges ∧
        ∀ exchange ∈ programmed.exchanges, ∀ instruction,
          exchange.1.instruction? = some instruction →
          instruction ∉ [.configEnable, .eraseSram, .flashErase, .initAddress, .transferWrite,
            .flashProgram, .reload]) ∧
    (session.job.image? = none → programmed.result = .ok .skipped ∧ programmed.Silent) ∧
    (session.job.target = .flash →
      (session.profile.withoutFlashWrite = true → session.job.image?.isSome →
        programmed.result = .error (.unsupported "flash programming on this family")) ∧
      (session.usesExternalFlash = true →
        erased.result = .error (.unsupported "external flash erase")) ∧
      (session.usesExternalFlash = false → session.profile.withoutFlashWrite = true →
        erased.result = .error (.unsupported "flash erase on this family"))) := by
  intro programmed erased
  obtain ⟨hprogram, hprogramGives⟩ :=
    Host.runs_gives_run cable filter (session.program offset) device
  obtain ⟨herase, heraseGives⟩ := Host.runs_gives_run cable filter session.erase device
  -- Only the first part looks at runs. The others are read off the two operations.
  refine ⟨fun hcable hdriver => ⟨fun error herror => ⟨fun hresult => ?_, fun hresult => ?_⟩,
    fun bits hresult => ?_⟩, fun himage => ?_,
    fun hflash => run_refused cable filter device hflash offset⟩
  · have hrefusal : error.isRefusal = true := by rcases herror with rfl | ⟨what, rfl⟩ <;> rfl
    rw [hresult] at hprogram
    rcases session.refused_program hdriver hprogram (hcable.unrefused hprogramGives) hrefusal with
      ⟨bits, rfl, -⟩ | ⟨-, hsilent⟩
    · simp at herror
    · exact hsilent
  · have hrefusal : error.isRefusal = true := by rcases herror with rfl | ⟨what, rfl⟩ <;> rfl
    rw [hresult] at herase
    exact session.refused_erase herase (hcable.unrefused heraseGives) hrefusal
  · rw [hresult] at hprogram
    rcases session.refused_program hdriver hprogram (hcable.unrefused hprogramGives) rfl with
      ⟨bits', hbits, hunready⟩ | ⟨hother, -⟩
    · obtain rfl := Error.notReady.inj hbits
      exact ⟨hunready, hunready.spares⟩
    · exact absurd rfl (hother bits)
  · have hnothing : session.program offset = pure .skipped := by rw [program, himage]
    simp only [programmed, hnothing]
    exact ⟨rfl, fun _ hmem => absurd hmem List.not_mem_nil⟩

/-- A device that is neither running nor fresh from power-up is looked at and left alone. -/
theorem refusals_idle_device :
    let session := Session.ofJob 0x0900281B
      { target := .flash, image? := some (Bitstream.ofData [1, 2, 3]).toImage
        chipDriver? := some fun _ _ _ => throw .chipDriver }
    let outcome := Host.run Simulator.cable none (session.program 0) (.powerUp { powerOn := false })
    failure? outcome.result = some (.notReady 0) ∧ FoundUnready 0 outcome.exchanges := by
  intro session outcome
  have hfailed : failure? outcome.result = some (.notReady 0) := by decide +kernel
  have hresult : outcome.result = .error (.notReady 0) := by
    cases hend : outcome.result with
    | ok check => simp [hend, failure?] at hfailed
    | error error => simpa [hend, failure?] using hfailed
  have hcable : Simulator.cable.FailsPlainly := by
    intro call device error hfailure
    cases call <;> cases hfailure
  have hdriver : ∀ driver, session.job.chipDriver? = some driver → driver.FailsPlainly := by
    rintro _ ⟨⟩ offset data options answered error hruns
    obtain ⟨-, herror⟩ := Dialogue.runs_done_iff.mp hruns
    obtain rfl := Except.error.inj herror
    exact .inl rfl
  obtain ⟨hplain, -⟩ := refusals Simulator.cable none (.powerUp { powerOn := false }) session 0
  exact ⟨hfailed, ((hplain hcable hdriver).2 0 hresult).1⟩

end Session

end FpgaProgrammer
