import FpgaProgrammer.Proofs.Failures.FailStop
import FpgaProgrammer.Proofs.Spi.Closed

/-!
# Where the failure of a program comes from

What a program fails with is an error of its own, or a failure of the cable that it has been handed
(`HostDialogue.Raises`). The errors that say that work is not taken up at all are refusals
(`Error.isRefusal`). No operation of the host raises one: it accepts its work (`Host.Accepts`), and
what it refuses has been refused by the cable.

Both carry over from the parts of a program to the whole (`Host.closed_raises`), so that an
operation accepts its work if what it throws is no refusal. A chip driver has failures of its own;
`ChipDriver.FailsPlainly` says that those are no refusals.
-/

namespace FpgaProgrammer

open Device

/-- The error says that work is not taken up. -/
def Error.isRefusal : Error → Bool
  | .notReady _ | .unsupported _ | .noChipDriver => true
  | _ => false

/-! ## Dialogues -/

namespace HostDialogue

variable {α β : Type} {own wider : Error → Prop} {ending : α → Option Error}
  {ending' : β → Option Error}

/-- What a run fails with is one of the errors of its own, or a failure of the cable. `ending` is
the failure that a value stands for. -/
def Raises (own : Error → Prop) (ending : α → Option Error) (d : HostDialogue α) : Prop :=
  ∀ ⦃exchanges value error⦄, Dialogue.Runs d exchanges value → ending value = some error →
    own error ∨ ∃ exchange ∈ exchanges, Exchange.failure? exchange = some error

/-- A value may stand for an error of its own. -/
theorem raises_pure {value : α} (h : ∀ error, ending value = some error → own error) :
    Raises own ending (pure value) := by
  intro exchanges result error hruns hfailed
  obtain ⟨-, rfl⟩ := Dialogue.runs_done_iff.mp hruns
  exact .inl (h error hfailed)

theorem Raises.mono {d : HostDialogue α} (h : Raises own ending d)
    (hwider : ∀ error, own error → wider error) : Raises wider ending d :=
  fun _ _ error hruns hfailed => (h hruns hfailed).imp_left (hwider error)

/-- What follows a first part may fail with the failure of that part. -/
theorem Raises.bind {d : HostDialogue α} {f : α → HostDialogue β} (h : Raises own ending d)
    (hf : ∀ value, Raises (fun error => own error ∨ ending value = some error) ending' (f value)) :
    Raises own ending' (d >>= f) := by
  intro exchanges result error hruns hfailed
  obtain ⟨first, middle, second, rfl, hfirst, hsecond⟩ := Dialogue.runs_bind_iff.mp hruns
  rcases hf middle hsecond hfailed with (hown | hhanded) | ⟨exchange, hmem, hfailure⟩
  · exact .inl hown
  · refine (h hfirst hhanded).imp_right ?_
    rintro ⟨exchange, hmem, hfailure⟩
    exact ⟨exchange, List.mem_append_left _ hmem, hfailure⟩
  · exact .inr ⟨exchange, List.mem_append_right _ hmem, hfailure⟩

/-- What a value is turned into fails where the value did. -/
theorem Raises.map {d : HostDialogue α} {f : α → β} (h : Raises own ending d)
    (hsame : ∀ value, ending' (f value) = ending value) : Raises own ending' (f <$> d) := by
  rw [← bind_pure_comp]
  exact h.bind fun value => raises_pure fun error hfailed => .inr (hsame value ▸ hfailed)

/-- A question fails with what the cable fails with. -/
theorem raises_put (request : Request) {ending : request.Answer → Option Error}
    (h : ∀ answer, Exchange.failure? ⟨request, answer⟩ = ending answer) :
    Raises own ending (Dialogue.put (A := Request.Answer) request) := by
  intro exchanges answer error hruns hfailed
  obtain rfl := Dialogue.runs_put_iff.mp hruns
  exact .inr ⟨_, List.mem_singleton_self _, (h answer).trans hfailed⟩

end HostDialogue

/-! ## Programs -/

namespace Host

variable {α β : Type} {own : Error → Prop}

/-- What a run of the program fails with is one of the errors of its own, or a failure of the
cable. -/
def Raises (own : Error → Prop) (program : Host α) : Prop :=
  HostDialogue.Raises own failure? (ExceptT.run program)

theorem raises_pure (value : α) : Raises own (pure value : Host α) :=
  HostDialogue.raises_pure nofun

theorem raises_throw {error : Error} (h : own error) : Raises own (throw error : Host α) :=
  HostDialogue.raises_pure fun _ hfailed => Option.some.inj hfailed ▸ h

/-- What a sequence fails with is what one of its parts fails with. -/
theorem Raises.bind {program : Host α} {next : α → Host β} (h : Raises own program)
    (hnext : ∀ value, Raises own (next value)) : Raises own (program >>= next) := by
  refine HostDialogue.Raises.bind h fun result => ?_
  cases result with
  | ok value => exact (hnext value).mono fun _ => .inl
  | error error => exact HostDialogue.raises_pure fun _ => .inr

/-- A handler may fail with the failure it handles. -/
theorem Raises.tryCatch {program : Host α} {handle : Error → Host α} (h : Raises own program)
    (hhandle : ∀ error, Raises (fun error' => own error' ∨ some error = some error')
      (handle error)) : Raises own (MonadExcept.tryCatch program handle) := by
  refine HostDialogue.Raises.bind h fun result => ?_
  cases result with
  | ok value => exact HostDialogue.raises_pure nofun
  | error error => exact hhandle error

/-- What cannot fail is done as it is. -/
theorem raises_lift {d : HostDialogue α} (h : HostDialogue.Raises own (fun _ => none) d) :
    Raises own (ExceptT.lift d) :=
  HostDialogue.Raises.bind h fun _ => HostDialogue.raises_pure nofun

/-- What follows a part that hands on its failure as a value may fail with it. -/
theorem raises_lift_bind {d : HostDialogue α} {next : α → Host β} {ending : α → Option Error}
    (h : HostDialogue.Raises own ending d)
    (hnext : ∀ value, Raises (fun error => own error ∨ ending value = some error) (next value)) :
    Raises own (ExceptT.lift d >>= next) := by
  have hrun : ExceptT.run (ExceptT.lift d >>= next) =
      d >>= fun value => ExceptT.run (next value) := by simp
  rw [Raises, hrun]
  exact h.bind hnext

/-! ### Calls -/

/-- A question whose answers are never failures cannot fail. -/
theorem raises_ask (request : Request)
    (h : ∀ answer, Exchange.failure? ⟨request, answer⟩ = none) : Raises own (ask request) :=
  raises_lift (HostDialogue.raises_put request h)

theorem raises_log (level : LogLevel) (text : String) : Raises own (log level text) :=
  raises_ask _ fun _ => rfl

/-- A failure that is reported is thrown again. -/
theorem Raises.rethrow {program : Host α} (h : Raises own program) {level : LogLevel}
    {text : String} : Raises own (MonadExcept.tryCatch program fun error => do
      log level text
      throw error) :=
  h.tryCatch fun _ => (raises_log _ _).bind fun _ => raises_throw (.inr rfl)

theorem raises_records (level : LogLevel) : Raises own (records level) :=
  raises_ask _ fun _ => rfl

theorem raises_progress (report : Progress) : Raises own (progress report) :=
  raises_ask _ fun _ => rfl

theorem raises_clockFrequency : Raises own clockFrequency :=
  raises_ask (.cable .clockFrequency) fun _ => rfl

theorem raises_sleep (milliseconds : UInt32) : Raises own (sleep milliseconds) :=
  raises_ask (.cable (.sleep milliseconds)) fun _ => rfl

/-- A shift of the instruction register has no failure but that of the cable. So it is with the
other calls. -/
theorem raises_shiftIr (data : Bytes) (bits : Nat) : Raises own (shiftIr data bits) :=
  HostDialogue.raises_put (.cable (.shiftIr data bits)) fun _ => rfl

theorem raises_setState (state : TapState) : Raises own (setState state) :=
  HostDialogue.raises_put (.cable (.setState state)) fun _ => rfl

theorem raises_toggleClock (cycles : UInt32) : Raises own (toggleClock cycles) :=
  HostDialogue.raises_put (.cable (.toggleClock cycles)) fun _ => rfl

theorem raises_flush : Raises own flush :=
  HostDialogue.raises_put (.cable .flush) fun _ => rfl

theorem raises_setClockFrequency (hertz : UInt32) : Raises own (setClockFrequency hertz) :=
  HostDialogue.raises_put (.cable (.setClockFrequency hertz)) fun _ => rfl

/-- A scan fails if the cable does; its captured bits are handed on. -/
theorem raises_shiftDr (scan : Scan) : Raises own (shiftDr scan) := by
  have hcall : Raises own (ExceptT.mk (call (.shiftDr scan)) : Host Bytes) :=
    HostDialogue.raises_put (.cable (.shiftDr scan)) fun _ => rfl
  exact hcall.bind fun _ => raises_pure _

/-- Reporting on a stage adds no failure: the one that is caught is thrown again. -/
theorem raises_reporting {body : Host Unit} (stage : Stage) (total : Nat) (h : Raises own body) :
    Raises own (reporting stage total body) :=
  (raises_progress _).bind fun _ =>
    (h.tryCatch fun _ => (raises_progress _).bind fun _ => raises_throw (.inr rfl)).bind fun _ =>
      raises_progress _

/-- The errors of a program are those of its calls and of its parts. -/
theorem closed_raises : Closed (Raises own) where
  pure := raises_pure
  bind := Raises.bind
  shiftDr := raises_shiftDr
  setState := raises_setState
  toggleClock := raises_toggleClock
  clockFrequency := raises_clockFrequency
  log := raises_log
  records := raises_records
  flush := raises_flush
  sleep := raises_sleep
  setClockFrequency := raises_setClockFrequency

/-! ### Instructions and registers -/

theorem raises_sendOpcode (code : UInt8) : Raises own (sendOpcode code) :=
  (raises_shiftIr _ _).bind fun _ => raises_toggleClock _

theorem raises_send (instruction : Instruction) : Raises own (send instruction) :=
  raises_sendOpcode _

theorem raises_readStatus : Raises own readStatus :=
  closed_raises.readStatus (raises_send _)

theorem raises_logStatus (occasion : String) : Raises own (logStatus occasion) :=
  closed_raises.logStatus (raises_send _) occasion

/-! ## Operations -/

/-- A refusal that the program ends with is one that the cable has failed with. -/
def Accepts (program : Host α) : Prop :=
  Raises (fun error => error.isRefusal = false) program

/-- A program accepts its work if all of its parts do. -/
theorem closed_accepts : Closed Accepts :=
  closed_raises

theorem accepts_throw {error : Error} (h : error.isRefusal = false) :
    Accepts (throw error : Host α) :=
  raises_throw h

/-- The erase of the SRAM times out or fails, and neither is a refusal. -/
theorem accepts_eraseSram (limit : Nat) : Accepts (Sram.erase limit) :=
  closed_accepts.eraseSram (fun _ _ => raises_send _) (accepts_throw rfl) (accepts_throw rfl) limit

/-- A load of the SRAM that fails on its own has failed to start the design, which is no refusal. -/
theorem accepts_loadSram (image : Image) : Accepts (Sram.load image) :=
  closed_accepts.loadSram (fun _ _ => raises_send _)
    (raises_reporting _ _ (closed_accepts.stream raises_progress _ _ _)) (accepts_throw rfl)

/-- The erase of the embedded flash gives up with an error of its own, but takes up its work. -/
theorem accepts_eraseFlash (profile : Profile) (limit : Nat) :
    Accepts (EmbeddedFlash.erase profile limit) := by
  have hattempt : Accepts (EmbeddedFlash.attemptErase profile limit) :=
    closed_accepts.attemptErase (fun _ _ => raises_send _) (accepts_throw rfl) profile limit
  refine closed_accepts.eraseFlash (raises_send _) (accepts_eraseSram limit) ?_
  refine closed_accepts.emptyFlash (raises_send _) (raises_reporting _ _ ?_) (accepts_throw rfl)
  exact closed_accepts.tryErase hattempt raises_progress _ _

/-- A write of the embedded flash times out or fails, and neither is a refusal. -/
theorem accepts_writeFlash (profile : Profile) (limit : Nat) (base : UInt32) (image : Image) :
    Accepts (EmbeddedFlash.write profile limit base image) := by
  refine closed_accepts.writeFlash (raises_send _) (raises_reporting _ _ ?_) ?_
  · exact closed_accepts.writePages (fun _ _ => raises_send _) raises_progress _ _ _ _
  · exact closed_accepts.finishWrite (fun _ _ => raises_send _) (accepts_throw rfl)
      (accepts_throw rfl) (fun _ h => h.rethrow) limit

end Host

/-! ## SPI transactions -/

namespace SpiEncoding

open Host (Raises Accepts closed_raises closed_accepts)

variable {own : Error → Prop}

/-- Clocking bytes stops at the first failure of the cable, and hands on what was received. -/
theorem raises_clockBytes (pins : SpiPins) (bytes received : Bytes) :
    HostDialogue.Raises own (failure? ·.ending) (BitBang.clockBytes pins bytes received) := by
  induction bytes generalizing received with
  | nil => exact HostDialogue.raises_pure nofun
  | cons byte rest ih =>
    refine HostDialogue.Raises.bind (closed_raises.clockByte pins byte) fun sampled => ?_
    cases sampled with
    | ok sampled => exact (ih _).mono fun _ => .inl
    | error error => exact HostDialogue.raises_pure fun _ => .inr

/-- A transaction on the pins hands on the failure of its first call that fails. -/
theorem raises_transact (pins : SpiPins) (bytes : Bytes) :
    HostDialogue.Raises own (failure? ·.ending) (BitBang.transact pins bytes) := by
  refine HostDialogue.Raises.bind (closed_raises.select pins) fun selected => ?_
  cases selected with
  | error error => exact HostDialogue.raises_pure fun _ => .inr
  | ok _ =>
    refine HostDialogue.Raises.bind (raises_clockBytes pins bytes []) fun receipt => ?_
    cases hending : receipt.ending with
    | error error => exact HostDialogue.raises_pure fun _ h => .inr (hending ▸ h)
    | ok _ =>
      exact HostDialogue.Raises.bind (closed_raises.release pins) fun released =>
        HostDialogue.raises_pure fun _ => .inr

/-- A transfer has no errors of its own in either encoding. -/
theorem raises_transfer (encoding : SpiEncoding) (tx? : Option Bytes) (rxLength? : Option Nat) :
    HostDialogue.Raises own (failure? ·.ending) (encoding.transfer tx? rxLength?) := by
  cases encoding with
  | bitBang pins =>
    exact HostDialogue.Raises.bind (raises_transact _ _) fun _ =>
      HostDialogue.raises_pure fun _ => .inr
  | shiftRegister =>
    have hscan : HostDialogue.Raises own (failure? ·.ending)
        (Receipt.ofExcept <$> ExceptT.run (ShiftRegister.transact (outgoing tx? rxLength?)
          rxLength?.isSome)) :=
      HostDialogue.Raises.map (closed_raises.transactScan (Host.raises_send _) _ _)
        fun received => by cases received <;> rfl
    exact HostDialogue.Raises.bind hscan fun _ => HostDialogue.raises_pure fun _ => .inr

/-- A command fails as its transfer does. -/
theorem raises_command (encoding : SpiEncoding) (code : UInt8) (tx? : Option Bytes)
    (rxLength? : Option Nat) : Raises own (encoding.command code tx? rxLength?) := by
  refine Host.Raises.bind (HostDialogue.Raises.map (raises_transfer _ _ _) fun receipt => ?_)
    fun _ => Host.raises_pure _
  obtain ⟨received, ending⟩ := receipt
  cases ending <;> rfl

/-- A poll that gives up has timed out, whatever comes of the release after it. -/
theorem accepts_await (encoding : SpiEncoding) (poll : Poll) : Accepts (encoding.await poll) := by
  have hwatch : ∀ {sample : Host UInt8}, Accepts sample → ∀ left taken,
      Accepts (poll.watch sample left taken) := fun hsample =>
    closed_accepts.watch poll hsample (Host.accepts_throw rfl)
  cases encoding with
  | shiftRegister => exact hwatch (closed_accepts.sample (Host.raises_send _) _) _ _
  | bitBang pins =>
    have hclock := closed_accepts.clockByte pins
    have hpoll := (hclock poll.command).bind fun _ => hwatch (hclock 0) (poll.timeout.toNat - 1) 0
    refine (closed_raises.select pins).bind fun _ => Host.raises_lift_bind hpoll fun polled => ?_
    refine Host.raises_lift_bind (closed_raises.release pins) fun released => ?_
    refine HostDialogue.raises_pure fun error hfailed => ?_
    -- The failure of the release only counts if the poll has not failed.
    cases polled with
    | ok _ => exact .inr hfailed
    | error _ => exact .inl (.inr hfailed)

end SpiEncoding

/-! ## Chip drivers -/

/-- The failure that a chip driver is handed with an answer, if it is handed one. -/
def SpiRequest.failure? : (request : SpiRequest) → request.Answer → Option Error
  | .command _ _ _, answer => FpgaProgrammer.failure? (answer : Except Error Bytes)
  | .transfer _ _, answer => FpgaProgrammer.failure? (answer : Receipt).ending
  | .await _, answer => FpgaProgrammer.failure? (answer : Except Error Unit)
  | .remark _, _ => none

/-- What is handed to a chip driver as a failure is no refusal, unless the cable has refused. -/
theorem SpiRequest.raises_serve (encoding : SpiEncoding) (request : SpiRequest) :
    HostDialogue.Raises (fun error => error.isRefusal = false) request.failure?
      (request.serve encoding) := by
  cases request with
  | command code tx? rxLength? => exact SpiEncoding.raises_command ..
  | transfer tx? rxLength? => exact SpiEncoding.raises_transfer ..
  | await poll => exact SpiEncoding.accepts_await ..
  | remark text => exact HostDialogue.raises_put (.remark text) fun _ => rfl

/-- A chip driver takes up its work if it refuses nothing but what it was refused. -/
theorem Spi.accepts_onHost {α : Type} (encoding : SpiEncoding) {program : Spi α}
    (h : ∀ ⦃answered error⦄, Dialogue.Runs (ExceptT.run program) answered (.error error) →
      error.isRefusal = false ∨
        ∃ exchange ∈ answered, exchange.1.failure? exchange.2 = some error) :
    Host.Accepts (program.onHost encoding) := by
  intro exchanges ending error hruns hfailed
  obtain ⟨answered, hanswered, hserved⟩ := Dialogue.Runs.of_substitute hruns
  cases ending with
  | ok value => cases hfailed
  | error error' =>
    obtain rfl := Option.some.inj hfailed
    rcases h hanswered with hown | ⟨exchange, hmem, hhanded⟩
    · exact .inl hown
    · obtain ⟨stretch, hwithin, hstretch⟩ := hserved exchange hmem
      refine (exchange.1.raises_serve encoding hstretch hhanded).imp_right ?_
      rintro ⟨failing, hfailing, hfailure⟩
      exact ⟨failing, hwithin.subset hfailing, hfailure⟩

end FpgaProgrammer
