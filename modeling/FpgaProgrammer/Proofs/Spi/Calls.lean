import FpgaProgrammer.Proofs.Spi.BitBang

/-!
# Calls with buffers

A chip driver hands over a buffer for the bytes that come back. `SpiCall.ask` puts the call as a
request, and fills the buffer with the answer; `SpiCall.drive` says what the call means for a flash
that is driven directly, one transaction for each call. Over a device whose pins are toggled the two
agree, for every sequence of calls (`run_calls`).
-/

namespace FpgaProgrammer

/-- A buffer after bytes were received into it. What lies past them stays as it is. -/
def Bytes.into (buffer received : Bytes) : Bytes :=
  received ++ buffer.drop received.length

/-- A call of a chip driver. Of the bytes to send and the buffer to receive into, either may be
absent, and their lengths may differ. -/
inductive SpiCall where
  /-- Run a transaction. -/
  | put (tx? rx? : Option Bytes)
  /-- Run a transaction that starts with a command byte. -/
  | putCommand (code : UInt8) (tx? rx? : Option Bytes)
  /-- Poll a status byte. -/
  | wait (poll : SpiEncoding.Poll)

namespace SpiCall

/-- What a call leaves: its buffer, and how it ended. -/
abbrev Left : Type :=
  Option Bytes × Except Error Unit

/-- Puts the call as a request, and receives the answer into its buffer. -/
def ask : SpiCall → Dialogue SpiRequest SpiRequest.Answer Left
  | put tx? rx? => do
    let receipt : Receipt ← Spi.put (.transfer tx? (rx?.map List.length))
    pure (rx?.map (Bytes.into · receipt.received), receipt.ending)
  | putCommand code tx? rx? => do
    let answer : Except Error Bytes ← Spi.put (.command code tx? (rx?.map List.length))
    match answer with
    | .ok received => pure (rx?.map (Bytes.into · received), .ok ())
    | .error error => pure (rx?, .error error)
  | wait poll => do
    let ending : Except Error Unit ← Spi.put (.await poll)
    pure (none, ending)

/-- The bytes that go out: those given, or as many zeros as the buffer holds. -/
def sent (tx? rx? : Option Bytes) : Bytes :=
  tx?.getD (List.replicate (rx?.elim 0 List.length) 0)

/-- Drives the flash directly: one transaction. The byte that comes back during a command byte is
dropped. -/
def drive (flash : Nor.Flash) : SpiCall → Left × Nor.Flash
  | put tx? rx? =>
    let (driven, flash) := flash.transact (sent tx? rx?)
    ((rx?.map fun rx => driven.take rx.length ++ rx.drop driven.length, .ok ()), flash)
  | putCommand code tx? rx? =>
    let (driven, flash) := flash.transact (code :: sent tx? rx?)
    ((rx?.map fun rx => driven.tail.take rx.length ++ rx.drop driven.tail.length, .ok ()), flash)
  | wait poll =>
    let (count, ending) :=
      poll.samples (poll.timeout.toNat - 1) (flash.select.receive poll.command)
    ((none, ending), (flash.transact (poll.command :: List.replicate count 0)).2)

/-- Drives the flash through one call after the other. -/
def driveAll (flash : Nor.Flash) : List SpiCall → List Left × Nor.Flash
  | [] => ([], flash)
  | call :: calls =>
    let (left, flash) := call.drive flash
    let (others, flash) := driveAll flash calls
    (left :: others, flash)

/-- Bytes beyond the buffer are not received. -/
theorem into_take (buffer received : Bytes) :
    buffer.into (received.take buffer.length) =
      received.take buffer.length ++ buffer.drop received.length := by
  rw [Bytes.into, List.length_take]
  rcases Nat.le_total buffer.length received.length with hle | hle
  · rw [Nat.min_eq_left hle, List.drop_length, List.drop_of_length_le hle]
  · rw [Nat.min_eq_right hle]

/-- As many zeros go out as the buffer holds. -/
theorem outgoing_length (tx? rx? : Option Bytes) :
    SpiEncoding.outgoing tx? (rx?.map List.length) = sent tx? rx? := by
  cases rx? <;> rfl

/-- Answered by the flash itself, a call does what driving the flash directly does. -/
theorem run_ask (call : SpiCall) (flash : Nor.Flash) :
    call.ask.run Nor.Flash.serve flash = call.drive flash := by
  cases call with
  | put tx? rx? =>
    show (((rx?.map (Bytes.into · ((flash.transact (SpiEncoding.outgoing tx?
      (rx?.map List.length))).1.take ((rx?.map List.length).getD 0))), .ok ()) : Left), _) = _
    rw [outgoing_length]
    cases rx? with
    | none => rfl
    | some rx => exact Prod.ext (Prod.ext (congrArg some (into_take rx _)) rfl) rfl
  | putCommand code tx? rx? =>
    show (((rx?.map (Bytes.into · (((flash.transact (code :: SpiEncoding.outgoing tx?
      (rx?.map List.length))).1.drop 1).take ((rx?.map List.length).getD 0))),
      .ok ()) : Left), _) = _
    rw [outgoing_length, List.drop_one]
    cases rx? with
    | none => rfl
    | some rx => exact Prod.ext (Prod.ext (congrArg some (into_take rx _)) rfl) rfl
  | wait poll => rfl

/-- So does every sequence of calls. -/
theorem run_mapM_ask (calls : List SpiCall) (flash : Nor.Flash) :
    (calls.mapM ask).run Nor.Flash.serve flash = driveAll flash calls := by
  induction calls generalizing flash with
  | nil => rw [List.mapM_nil]; rfl
  | cons call calls ih =>
    rw [List.mapM_cons, Dialogue.run_bind, run_ask, Dialogue.run_bind, ih]
    rfl

end SpiCall

namespace Simulator

/-- Toggling the pins refines the flash byte for byte: over a device with the flash pins in its
boundary-scan register and the chip released, any sequence of calls fills every buffer with exactly
the bytes, ends every call as, and leaves the flash in exactly the state that driving the flash
directly does, one transaction for each call. Afterwards the chip is released again. -/
theorem run_calls (filter : LogFilter) {sim : Simulator} {pins : SpiPins}
    (hspi : sim.profile.spi = .bitBang pins) (hir : sim.ir = Instruction.spiBoundaryScan.opcode)
    (hdeselected : sim.bus.selected = false) (calls : List SpiCall) :
    let outcome := ((calls.mapM SpiCall.ask).substitute (SpiRequest.serve (.bitBang pins))).run
      (Host.surroundings cable filter) sim
    outcome.1 = (SpiCall.driveAll sim.flash calls).1 ∧
      outcome.2.flash = (SpiCall.driveAll sim.flash calls).2 ∧
      outcome.2.bus.selected = false ∧ outcome.2.ir = sim.ir := by
  intro outcome
  obtain ⟨after, hanswers, hreleased⟩ :=
    answers_substitute filter ⟨hspi, hir⟩ hdeselected (calls.mapM SpiCall.ask)
  rw [SpiCall.run_mapM_ask] at hanswers hreleased
  rw [show outcome = _ from hanswers]
  have hflash : after.flash = (SpiCall.driveAll sim.flash calls).2 :=
    read_lasting hreleased.steady.lasting_eq Simulator.flash fun _ => rfl
  exact ⟨rfl, hflash, hreleased.deselected, hreleased.steady.ir_eq⟩

/-- A device whose pins lie the other way round identifies its flash, sets the latch of the flash,
and waits for it to be set. The last byte of the buffer is left as it was. -/
theorem run_calls_gw1nsr4c :
    ∃ sim calls outcome,
      sim = { powerUp { idcode := 0x0100981B } with ir := Instruction.spiBoundaryScan.opcode } ∧
      calls = [SpiCall.putCommand 0x9F (some [0, 0, 0]) (some [1, 2, 3, 4]),
        .put (some [0x06]) none, .wait ⟨0x05, 0x02, 0x02, 5, false⟩] ∧
      outcome = ((calls.mapM SpiCall.ask).substitute
        (SpiRequest.serve (.bitBang .gw1nsr4c))).run (Host.surroundings cable none) sim ∧
      outcome.1 = [(some [0xEF, 0x40, 0x16, 4], .ok ()), (none, .ok ()), (none, .ok ())] ∧
      outcome.2.flash.writeEnabled = true ∧ outcome.2.bus.selected = false := by
  refine ⟨_, _, _, rfl, rfl, rfl, ?_⟩
  generalize hsim : ({ powerUp _ with ir := _ } : Simulator) = sim
  generalize hcalls : [SpiCall.putCommand _ _ _, _, _] = calls
  have hspi : sim.profile.spi = .bitBang .gw1nsr4c := by rw [← hsim]; rfl
  have hir : sim.ir = Instruction.spiBoundaryScan.opcode := by rw [← hsim]
  have hdeselected : sim.bus.selected = false := by rw [← hsim]; rfl
  have hflash : sim.flash = .powerUp {} := by rw [← hsim]; rfl
  have hdrive : (SpiCall.driveAll sim.flash calls).1 =
      [(some [0xEF, 0x40, 0x16, 4], .ok ()), (none, .ok ()), (none, .ok ())] := by
    rw [hflash, ← hcalls]; rfl
  have hlatch : (SpiCall.driveAll sim.flash calls).2.writeEnabled = true := by
    rw [hflash, ← hcalls]; rfl
  obtain ⟨hleft, hflash', hreleased, -⟩ := run_calls none hspi hir hdeselected calls
  exact ⟨hleft.trans hdrive, (congrArg Nor.Flash.writeEnabled hflash').trans hlatch, hreleased⟩

end Simulator

end FpgaProgrammer
