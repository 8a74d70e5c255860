import FpgaProgrammer.Proofs.Failures.FailStop
import FpgaProgrammer.Proofs.Spi.Closed
import FpgaProgrammer.Simulator.Step

/-!
# The operations of a session stop at the first failure of the cable

Stopping carries over from the parts of a program to the whole (`Host.closed_stops`), so that an
operation stops because its parts do, whatever it sends and throws. The reports of a stage and the
messages about a failure are made with the failure in hand, which is thrown again. An SPI
transaction keeps a failure beside the bytes that were received before it.
-/

namespace FpgaProgrammer

open Device

namespace Host

/-- A program stops if all of its parts do. -/
theorem closed_stops : Closed Stops where
  pure := stops_pure
  bind := Stops.bind
  shiftDr := stops_shiftDr
  setState := stops_setState
  toggleClock := stops_toggleClock
  clockFrequency := stops_clockFrequency
  log := stops_log
  records := stops_records
  flush := stops_flush
  sleep := stops_sleep
  setClockFrequency := stops_setClockFrequency

/-! ## Instructions and registers -/

/-- An instruction is followed by clocks only if its shift has succeeded. -/
theorem stops_sendOpcode (code : UInt8) : Stops (sendOpcode code) :=
  (stops_shiftIr _ _).bind fun _ => stops_toggleClock _

theorem stops_send (instruction : Instruction) : Stops (send instruction) :=
  stops_sendOpcode _

theorem stops_reload : Stops reload :=
  closed_stops.reload fun _ _ => stops_send _

/-- A usercode that cannot be read is not compared with anything. -/
theorem stops_checkUsercode (image : Image) : Stops (checkUsercode image) :=
  closed_stops.checkUsercode (stops_send _) image

/-! ## Memories -/

/-- The erase of the SRAM stops wherever the cable fails, within a wait as well. -/
theorem stops_eraseSram (limit : Nat) : Stops (Sram.erase limit) :=
  closed_stops.eraseSram (fun _ _ => stops_send _) (stops_throw _) (stops_throw _) limit

/-- A payload is streamed up to the first scan that fails. -/
theorem stops_stream (sizes : List Nat) (sent : Nat) (data : Bytes) :
    Stops (Sram.stream sizes sent data) :=
  closed_stops.stream stops_progress sizes sent data

/-- The load of the SRAM stops wherever the cable fails; the stream that is reported on hands its
failure on. -/
theorem stops_loadSram (image : Image) : Stops (Sram.load image) :=
  closed_stops.loadSram (fun _ _ => stops_send _) (stops_reporting _ _ (stops_stream _ _ _))
    (stops_throw _)

/-- An attempt that fails is not tried again. -/
theorem stops_tryErase (profile : Profile) (limit left made : Nat) :
    Stops (EmbeddedFlash.tryErase profile limit left made) :=
  closed_stops.tryErase
    (closed_stops.attemptErase (fun _ _ => stops_send _) (stops_throw _) profile limit)
    stops_progress left made

/-- The erase of the embedded flash makes no further attempt after a failure of the cable. -/
theorem stops_eraseFlash (profile : Profile) (limit : Nat) :
    Stops (EmbeddedFlash.erase profile limit) :=
  closed_stops.eraseFlash (stops_send _) (stops_eraseSram limit) <|
    closed_stops.emptyFlash (stops_send _) (stops_reporting _ _ (stops_tryErase _ _ _ _))
      (stops_throw _)

/-- Pages are written up to the first one in which a call fails. -/
theorem stops_writePages (delays : EmbeddedFlash.Delays) (base : UInt32) (pages : List Bytes)
    (index : Nat) : Stops (EmbeddedFlash.writePages delays base pages index) :=
  closed_stops.writePages (fun _ _ => stops_send _) stops_progress delays base pages index

/-- The gate that does not close is reported, and its failure thrown again. -/
theorem stops_finishWrite (limit : Nat) : Stops (finishWrite limit) :=
  closed_stops.finishWrite (fun _ _ => stops_send _) (stops_throw _) (stops_throw _)
    (fun text h => h.rethrow (.log .error text) rfl) limit

/-- The write of the embedded flash stops wherever the cable fails. Its handler only adds a line to
the log. -/
theorem stops_writeFlash (profile : Profile) (limit : Nat) (base : UInt32) (image : Image) :
    Stops (EmbeddedFlash.write profile limit base image) :=
  closed_stops.writeFlash (stops_send _) (stops_reporting _ _ (stops_writePages _ _ _ _))
    (stops_finishWrite limit)

end Host

/-! ## SPI transactions -/

namespace SpiEncoding

open Host (Stops closed_stops)

/-- The bytes that were received before a failure are kept, and no further one is clocked. -/
theorem stops_clockBytes (pins : SpiPins) (bytes received : Bytes) :
    HostDialogue.Stops (failure? ·.ending) (BitBang.clockBytes pins bytes received) := by
  -- On the bytes that are left: a failure is kept in the receipt, which is then complete.
  induction bytes generalizing received with
  | nil => exact HostDialogue.stops_pure _
  | cons byte rest ih =>
    refine HostDialogue.Stops.bind (closed_stops.clockByte pins byte) (fun sampled hok => ?_)
      fun sampled error hfailed => ?_
    · cases sampled with
      | ok sampled => exact ih _
      | error error => cases hok
    · cases sampled with
      | ok sampled => cases hfailed
      | error error' => exact HostDialogue.givesUp_pure hfailed

/-- The chip is not released after a failure. -/
theorem stops_transact (pins : SpiPins) (bytes : Bytes) :
    HostDialogue.Stops (failure? ·.ending) (BitBang.transact pins bytes) := by
  -- Each of the three parts can fail, and after a failure nothing is left to do but to report it.
  refine HostDialogue.Stops.bind (closed_stops.select pins) (fun selected hok => ?_)
    fun selected error hfailed => ?_
  · cases selected with
    | error error => cases hok
    | ok _ =>
      refine HostDialogue.Stops.bind (stops_clockBytes pins bytes []) (fun receipt hok => ?_)
        fun receipt error hfailed => ?_
      · cases hending : receipt.ending with
        | error error =>
          rw [hending] at hok
          cases hok
        | ok _ =>
          refine HostDialogue.Stops.bind (closed_stops.release pins)
            (fun released _ => HostDialogue.stops_pure _) fun released error hfailed => ?_
          exact HostDialogue.givesUp_pure hfailed
      · cases hending : receipt.ending with
        | error error' => exact HostDialogue.givesUp_pure hfailed
        | ok _ =>
          rw [hending] at hfailed
          cases hfailed
  · cases selected with
    | error error' => exact HostDialogue.givesUp_pure hfailed
    | ok _ => cases hfailed

/-- What a receipt is read as fails where the transaction did. -/
theorem failure?_toExcept (receipt : Receipt) :
    failure? receipt.toExcept = failure? receipt.ending := by
  obtain ⟨received, ending⟩ := receipt
  cases ending <;> rfl

/-- A transaction ends with its first failure, however the flash is reached. -/
theorem stops_transfer (encoding : SpiEncoding) (tx? : Option Bytes) (rxLength? : Option Nat) :
    Stops (ExceptT.mk (Receipt.toExcept <$> encoding.transfer tx? rxLength?)) := by
  refine HostDialogue.Stops.map ?_ failure?_toExcept
  -- The receipt is cut to length whatever the transaction came to.
  have hcut : ∀ d : HostDialogue Receipt, HostDialogue.Stops (failure? ·.ending) d →
      HostDialogue.Stops (failure? ·.ending) (d >>= fun receipt =>
        pure { receipt with received := receipt.received.take (rxLength?.getD 0) }) :=
    fun d hd => hd.bind (fun _ _ => HostDialogue.stops_pure _) fun _ _ hfailed =>
      HostDialogue.givesUp_pure hfailed
  cases encoding with
  | bitBang pins => exact hcut _ (stops_transact pins _)
  | shiftRegister =>
    have hscan := closed_stops.transactScan (Host.stops_send .spiPassthrough)
      (outgoing tx? rxLength?) rxLength?.isSome
    refine hcut _ (HostDialogue.Stops.map hscan fun received => ?_)
    rw [← failure?_toExcept, Receipt.toExcept_ofExcept]

end SpiEncoding

/-! ## Sessions -/

namespace Session

open Host (Stops closed_stops)

variable (session : Session)

theorem stops_programSram (image : Image) : Stops (session.programSram image) :=
  closed_stops.programSram (fun _ _ => Host.stops_send _) (Host.stops_eraseSram _)
    (Host.stops_loadSram image)

/-- A session stops in any of the steps of rewriting the embedded flash. -/
theorem stops_programEmbeddedFlash (image : Image) :
    Stops (session.programEmbeddedFlash image) :=
  closed_stops.programEmbeddedFlash (fun _ _ => Host.stops_send _) (Host.stops_sendOpcode _)
    (fun _ => Host.stops_throw _) (Host.stops_eraseFlash _ _) fun _ _ =>
      Host.stops_writeFlash _ _ _ _

theorem stops_erase : Stops session.erase :=
  closed_stops.erase (Host.stops_eraseSram _) (fun _ => Host.stops_throw _)
    (Host.stops_eraseFlash _ _)

/-- The session needs no driver for an external flash chip, or it has none. -/
def Driverless : Prop :=
  session.job.target = .flash → session.usesExternalFlash = true → session.job.chipDriver? = none

/-- A session stops that has no chip driver to hand the failure to. -/
theorem stops_program (offset : UInt32) (h : session.Driverless) :
    Stops (session.program offset) := by
  unfold program
  cases himage : session.job.image? with
  | none => exact Host.stops_pure _
  | some image =>
    cases htarget : session.job.target with
    | sram => exact session.stops_programSram image
    | flash =>
      dsimp only
      split
      · exact (Host.stops_log _ _).bind fun _ => Host.stops_throw _
      · split
        · rename_i hexternal
          rw [h htarget hexternal]
          exact Host.stops_throw _
        · exact session.stops_programEmbeddedFlash image

end Session

/-! ## Operations -/

/-- What can be asked of a device without a driver for an external flash chip: its memories are
erased and written, by a session or by hand, its usercode is checked, and it boots again. -/
inductive Operation : {α : Type} → Host α → Prop where
  | eraseSram (limit : Nat) : Operation (Sram.erase limit)
  | loadSram (image : Image) : Operation (Sram.load image)
  | eraseFlash (profile : Profile) (limit : Nat) : Operation (EmbeddedFlash.erase profile limit)
  | writeFlash (profile : Profile) (limit : Nat) (base : UInt32) (image : Image) :
      Operation (EmbeddedFlash.write profile limit base image)
  | checkUsercode (image : Image) : Operation (Device.checkUsercode image)
  | reset : Operation Session.reset
  | erase (session : Session) : Operation session.erase
  | program (session : Session) (offset : UInt32) (h : session.Driverless) :
      Operation (session.program offset)

/-- Every operation stops at the first failure of the cable, which is what the statements about
particular cables come from. -/
theorem Operation.stops {α : Type} {program : Host α} (h : Operation program) :
    program.Stops := by
  cases h with
  | eraseSram limit => exact Host.stops_eraseSram limit
  | loadSram image => exact Host.stops_loadSram image
  | eraseFlash profile limit => exact Host.stops_eraseFlash profile limit
  | writeFlash profile limit base image => exact Host.stops_writeFlash profile limit base image
  | checkUsercode image => exact Host.stops_checkUsercode image
  | reset => exact Host.stops_reload
  | erase session => exact session.stops_erase
  | program session offset h => exact session.stops_program offset h

/-- Every operation, and every transaction with an external flash, is over with the first call of
the cable that fails: it ends with that failure, and nothing is called after it, be it to erase, to
write, to reload or to clean up. -/
theorem Operation.failStop :
    (∀ {α : Type} {program : Host α}, Operation program → program.FailStop) ∧
      ∀ (encoding : SpiEncoding) (tx? : Option Bytes) (rxLength? : Option Nat),
        Host.FailStop (ExceptT.mk (Receipt.toExcept <$> encoding.transfer tx? rxLength?)) :=
  ⟨fun h => Host.failStop_of_stops h.stops,
    fun encoding tx? rxLength? => Host.failStop_of_stops (encoding.stops_transfer tx? rxLength?)⟩

/-- A cable that fails in the middle of a page: the device has been called as over the working
cable, the rest of the page is given up, and the gate stays open. -/
theorem Operation.failStop_page :
    let session := Session.ofJob 0x0900281B
      { target := .flash, image? := some (Bitstream.ofData [1, 2, 3]).toImage }
    let sim := Simulator.powerUp {}
    let fails := Host.run (Simulator.cable.failingOnce .transport) none (session.program 0) (sim, 262)
    let works := Host.run Simulator.cable none (session.program 0) sim
    fails.result = .error .transport ∧ fails.device.1.editMode = true ∧
      ∃ past exchange later answer rest, fails.exchanges = past ++ exchange :: later ∧
        Exchange.failure? exchange = some .transport ∧
        (∀ next ∈ later, next.1.isCall = false) ∧
        works.exchanges = past ++ ⟨exchange.1, answer⟩ :: rest := by
  intro session sim fails works
  -- The call that fails is the 262nd of those that can, and exchange 288 of the run.
  have hat : fails.exchanges[288]?.bind Exchange.failure? = some .transport := by decide +kernel
  obtain ⟨exchange, hat, hfailed⟩ := Option.bind_eq_some_iff.mp hat
  obtain ⟨hlength, rfl⟩ := List.getElem?_eq_some_iff.mp hat
  have hsplit : fails.exchanges =
      fails.exchanges.take 288 ++ fails.exchanges[288] :: fails.exchanges.drop 289 := by
    rw [← List.drop_eq_getElem_cons hlength, List.take_append_drop]
  have hfew : (fails.exchanges.take 288).countP (·.1.isFallible) < 262 := by decide +kernel
  have hgives := (Host.runs_gives_run (Simulator.cable.failingOnce .transport) none
    (session.program 0) (sim, 262)).2
  rw [show (Host.run (Simulator.cable.failingOnce .transport) none (session.program 0)
    (sim, 262)).exchanges = _ from hsplit, Handler.gives_append] at hgives
  obtain ⟨hresult, hsilent, hfollows⟩ := Operation.failStop.1 (.program session 0 fun _ _ => rfl)
    (Simulator.cable.failingOnce .transport) none (sim, 262) hsplit hfailed
  obtain ⟨answer, rest, hworks⟩ :=
    hfollows Simulator.cable sim (Cable.gives_of_failingOnce hfew hgives.1)
  exact ⟨hresult, by decide +kernel, _, _, _, answer, rest, hsplit, hfailed, hsilent, hworks⟩

end FpgaProgrammer
