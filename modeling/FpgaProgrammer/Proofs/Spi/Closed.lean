import FpgaProgrammer.Proofs.Host.Closed

/-!
# What SPI traffic has in common with its parts

SPI traffic is made of scans and clocks, and of one instruction where the data register is connected
to the flash. So it has the properties that carry over from the parts of a program to the whole
(`Host.Closed`). A transaction keeps what was received before a failure, and is no program that ends
with an error; about it, it is said which questions are asked (`Dialogue.Asks`), and from this what
is asked on behalf of a chip driver (`Spi.asks_onHost`).
-/

namespace FpgaProgrammer

open Device

namespace Host.Closed

/-! ## Programs -/

variable {P : {α : Type} → Host α → Prop}

theorem writePins (h : Closed P) (vector : UInt8) : P (SpiEncoding.BitBang.write vector) :=
  h.bind (h.shiftDr _) fun _ => h.toggleClock _

theorem exchangePins (h : Closed P) (vector : UInt8) : P (SpiEncoding.BitBang.exchange vector) :=
  h.bind (h.shiftDr _) fun _ => h.bind (h.toggleClock _) fun _ => h.pure _

/-- Bits are clocked by two vectors each, with the queue flushed after them. -/
theorem clockBits (h : Closed P) (pins : SpiPins) (bits : List Bool) :
    P (SpiEncoding.BitBang.clockBits pins bits) := by
  have hbit : ∀ bit, P (SpiEncoding.BitBang.clockBit pins bit) := fun bit =>
    h.bind (h.writePins _) fun _ => h.bind (h.exchangePins _) fun _ =>
      h.bind h.flush fun _ => h.pure _
  induction bits with
  | nil => exact h.pure _
  | cons bit rest ih => exact h.bind (hbit bit) fun _ => h.bind ih fun _ => h.pure _

theorem clockByte (h : Closed P) (pins : SpiPins) (byte : UInt8) :
    P (SpiEncoding.BitBang.clockByte pins byte) :=
  h.bind (h.clockBits _ _) fun _ => h.pure _

theorem select (h : Closed P) (pins : SpiPins) : P (SpiEncoding.BitBang.select pins) :=
  h.bind (h.writePins _) fun _ => h.flush

theorem release (h : Closed P) (pins : SpiPins) : P (SpiEncoding.BitBang.release pins) :=
  h.bind (h.writePins _) fun _ => h.flush

/-- The data register is connected to the flash by one instruction. -/
theorem connect (h : Closed P) (hsend : P (send .spiPassthrough)) :
    P SpiEncoding.ShiftRegister.connect :=
  h.bind hsend fun _ => h.setState _

/-- A transaction through the data register is one scan, after it was connected. -/
theorem transactScan (h : Closed P) (hsend : P (send .spiPassthrough)) (bytes : Bytes)
    (wanted : Bool) : P (SpiEncoding.ShiftRegister.transact bytes wanted) := by
  refine h.bind (h.connect hsend) fun _ => ?_
  cases wanted with
  | true => exact h.bind (h.shiftDr _) fun _ => h.pure _
  | false => exact h.shiftDr _

/-- A sample is one scan, after the data register was connected. -/
theorem sample (h : Closed P) (hsend : P (send .spiPassthrough)) (command : UInt8) :
    P (SpiEncoding.ShiftRegister.sample command) :=
  h.bind (h.connect hsend) fun _ => h.bind (h.shiftDr _) fun _ => h.pure _

/-- A poll only takes samples and writes messages. -/
theorem watch (h : Closed P) (poll : SpiEncoding.Poll) {sample : Host UInt8} (hsample : P sample)
    (htimeout : P (throw .spiTimeout : Host Unit)) (left taken : Nat) :
    P (poll.watch sample left taken) := by
  -- A sample may be logged before it is looked at.
  have hlogged : ∀ (text : String) {next : Host Unit}, P next →
      P (if poll.verbose = true then Host.log .debug text >>= fun _ => next else next) := by
    intro text next hnext
    split
    · exact h.bind (h.log _ _) fun _ => hnext
    · exact hnext
  induction left generalizing taken with
  | zero =>
    unfold SpiEncoding.Poll.watch
    refine h.bind hsample fun value => hlogged _ ?_
    split
    · exact h.pure _
    · exact h.bind (h.log _ _) fun _ => htimeout
  | succ left ih =>
    unfold SpiEncoding.Poll.watch
    refine h.bind hsample fun value => hlogged _ ?_
    split
    · exact h.pure _
    · exact ih _

end Host.Closed

/-! ## Questions -/

variable {allowed : Request → Prop}

/-- The questions of clocking bytes are those of the single bytes. -/
theorem SpiEncoding.asks_clockBytes {pins : SpiPins}
    (hbyte : ∀ byte, (ExceptT.run (BitBang.clockByte pins byte)).Asks allowed)
    (bytes received : Bytes) : (BitBang.clockBytes pins bytes received).Asks allowed := by
  induction bytes generalizing received with
  | nil => trivial
  | cons byte rest ih =>
    refine Dialogue.Asks.bind (hbyte byte) fun sampled => ?_
    cases sampled with
    | ok sampled => exact ih _
    | error error => trivial

/-- A transfer asks for what its encoding needs: scans at the pins, or one instruction and a
scan. -/
theorem SpiEncoding.asks_transfer
    (h : Host.Closed fun program => (ExceptT.run program).Asks allowed)
    (hsend : (ExceptT.run (send .spiPassthrough)).Asks allowed) (encoding : SpiEncoding)
    (tx? : Option Bytes) (rxLength? : Option Nat) :
    (encoding.transfer tx? rxLength?).Asks allowed := by
  cases encoding with
  | shiftRegister =>
    have hscan := h.transactScan hsend (outgoing tx? rxLength?) rxLength?.isSome
    exact Dialogue.Asks.bind (Dialogue.Asks.bind hscan fun _ => trivial) fun _ => trivial
  | bitBang pins =>
    refine Dialogue.Asks.bind (Dialogue.Asks.bind (h.select pins) fun selected => ?_)
      fun _ => trivial
    cases selected with
    | error error => trivial
    | ok _ =>
      refine Dialogue.Asks.bind (asks_clockBytes (h.clockByte pins) _ []) fun receipt => ?_
      -- The chip is released only after all bytes went through.
      cases receipt.ending with
      | error error => trivial
      | ok _ => exact Dialogue.Asks.bind (h.release pins) fun _ => trivial

/-- A poll asks for no more than its samples do. -/
theorem SpiEncoding.asks_await
    (h : Host.Closed fun program => (ExceptT.run program).Asks allowed)
    (hsend : (ExceptT.run (send .spiPassthrough)).Asks allowed) (encoding : SpiEncoding)
    (poll : Poll) : (ExceptT.run (encoding.await poll)).Asks allowed := by
  cases encoding with
  | shiftRegister => exact h.watch poll (h.sample hsend _) trivial _ _
  | bitBang pins =>
    have hpoll := h.bind (h.clockByte pins poll.command) fun _ =>
      h.watch poll (h.clockByte pins 0) trivial (poll.timeout.toNat - 1) 0
    -- The chip is released whatever has come of the poll.
    refine h.bind (h.select pins) fun _ => h.bind (Host.asks_lift hpoll) fun _ => ?_
    exact h.bind (Host.asks_lift (h.release pins)) fun _ => trivial

/-- Every request of a chip driver is served by SPI traffic, or it is a remark. -/
theorem SpiRequest.asks_serve (h : Host.Closed fun program => (ExceptT.run program).Asks allowed)
    (hsend : (ExceptT.run (send .spiPassthrough)).Asks allowed)
    (hremark : ∀ text, allowed (.remark text)) (encoding : SpiEncoding) (request : SpiRequest) :
    (request.serve encoding).Asks allowed := by
  cases request with
  | command code tx? rxLength? =>
    refine Host.asks_bind ?_ fun _ => trivial
    exact Dialogue.Asks.bind (SpiEncoding.asks_transfer h hsend ..) fun _ => trivial
  | transfer tx? rxLength? => exact SpiEncoding.asks_transfer h hsend ..
  | await poll => exact SpiEncoding.asks_await h hsend encoding poll
  | remark text => exact ⟨hremark text, fun _ => trivial⟩

/-- Whatever a driver asks for, and however it goes on after a failure: what is asked on its behalf
is what SPI traffic asks for. -/
theorem Spi.asks_onHost {α : Type}
    (h : Host.Closed fun program => (ExceptT.run program).Asks allowed)
    (hsend : (ExceptT.run (send .spiPassthrough)).Asks allowed)
    (hremark : ∀ text, allowed (.remark text)) (encoding : SpiEncoding) (program : Spi α) :
    (ExceptT.run (program.onHost encoding)).Asks allowed := by
  -- On the requests of the driver: each is served, and its answer decides on the next one.
  have hsubstitute : ∀ d : Dialogue SpiRequest SpiRequest.Answer (Except Error α),
      (d.substitute (SpiRequest.serve encoding)).Asks allowed := by
    intro d
    induction d with
    | done value => trivial
    | ask request next ih =>
      exact Dialogue.Asks.bind (request.asks_serve h hsend hremark encoding) ih
  exact hsubstitute (ExceptT.run program)

end FpgaProgrammer
