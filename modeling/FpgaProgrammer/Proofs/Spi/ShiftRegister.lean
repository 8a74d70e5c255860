import FpgaProgrammer.Proofs.Bytes.Blocks
import FpgaProgrammer.Proofs.Spi.Calls

/-!
# Transactions by scanning

While the device connects its data register to the flash, one scan is one transaction. What the
flash drives comes back one bit late and with each byte turned round.

* `delayed carry driven`: the bytes that are captured while the flash drives `driven`, if `carry` is
  the bit before (`passThrough_eq`).
* `decode_delayed`: decoding gives back what was driven, all but the last byte, whose last bit has
  not come back.
* `ends_transact`: a transaction whose answer is wanted takes one zero byte more, so that nothing of
  the answer is lost.
-/

namespace FpgaProgrammer

/-! ## The delay by one bit -/

namespace SpiEncoding.ShiftRegister

open Bytes (bitsOf ofBits reverseBits takeBlocks)

/-- The last bit of a byte, which comes back in the next one. -/
def lastBit (byte : UInt8) : Bool :=
  byte.toNat.testBit 0

/-- What is captured while the flash drives bytes: `carry`, then their bits, least significant bit
first in each captured byte. -/
def delayed (carry : Bool) : (driven : Bytes) → Bytes
  | [] => []
  | byte :: driven =>
    reverseBits (ofBits (carry :: (bitsOf byte).take 7)) :: delayed (lastBit byte) driven

/-- The bits of a byte are seven and the last one. -/
theorem take_append_lastBit (byte : UInt8) :
    (bitsOf byte).take 7 ++ [lastBit byte] = bitsOf byte :=
  rfl

/-- Without its lowest bit, a captured byte has the upper bits of the driven one. -/
theorem reverseBits_shiftRight {bits : List Bool} (h : bits.length = 8) :
    reverseBits (reverseBits (ofBits bits) >>> 1) = ofBits (bits.tail ++ [false]) := by
  obtain ⟨a, b, c, d, e, f, g, i, rfl⟩ := Bytes.eq_of_length_eight h
  revert a b c d e f g i
  decide +kernel

/-- The lowest bit of a captured byte is the one that came late. -/
theorem reverseBits_and_one {bits : List Bool} (h : bits.length = 8) :
    reverseBits (ofBits bits) &&& 1 = (bits.headD false).toUInt8 := by
  obtain ⟨a, b, c, d, e, f, g, i, rfl⟩ := Bytes.eq_of_length_eight h
  revert a b c d e f g i
  decide +kernel

/-- The late bit completes the byte. -/
theorem ofBits_or_toUInt8 {bits : List Bool} (h : bits.length = 7) (bit : Bool) :
    ofBits (bits ++ [false]) ||| bit.toUInt8 = ofBits (bits ++ [bit]) := by
  -- With the bit that is to be added there are eight, as in the lemmas before.
  have height : (bit :: bits).length = 8 := congrArg (· + 1) h
  obtain ⟨a, b, c, d, e, f, g, i, hbits⟩ := Bytes.eq_of_length_eight height
  obtain ⟨rfl, rfl⟩ := List.cons.inj hbits
  clear hbits height h
  revert bit b c d e f g i
  decide +kernel

/-- A byte is decoded from the captured one and the lowest bit of the next. -/
theorem decode_byte (carry : Bool) (byte : UInt8) {following : List Bool}
    (h : following.length = 7) :
    reverseBits (reverseBits (ofBits (carry :: (bitsOf byte).take 7)) >>> 1) |||
      (reverseBits (ofBits (lastBit byte :: following)) &&& 1) = byte := by
  have hupper : (carry :: (bitsOf byte).take 7).length = 8 := rfl
  rw [reverseBits_shiftRight hupper, reverseBits_and_one (congrArg (· + 1) h), List.tail_cons,
    List.headD_cons, ofBits_or_toUInt8 rfl, take_append_lastBit, Bytes.ofBits_bitsOf]

/-- Decoding undoes the delay, for all bytes but the last. -/
theorem decode_delayed (carry : Bool) (driven : Bytes) :
    decode (delayed carry driven) = driven.dropLast := by
  -- On the driven bytes: the last bit of each is the carry into the next.
  induction driven generalizing carry with
  | nil => rfl
  | cons byte driven ih =>
    cases driven with
    | nil => rfl
    | cons next driven =>
      calc decode (delayed carry (byte :: next :: driven))
        _ = (reverseBits (reverseBits (ofBits (carry :: (bitsOf byte).take 7)) >>> 1) |||
              (reverseBits (ofBits (lastBit byte :: (bitsOf next).take 7)) &&& 1)) ::
            decode (delayed (lastBit byte) (next :: driven)) := rfl
        _ = byte :: (next :: driven).dropLast := by rw [decode_byte carry byte rfl, ih]
        _ = (byte :: next :: driven).dropLast := rfl

/-- As many bytes are captured as are driven. -/
theorem length_delayed (carry : Bool) (driven : Bytes) :
    (delayed carry driven).length = driven.length := by
  induction driven generalizing carry with
  | nil => rfl
  | cons byte driven ih => rw [delayed, List.length_cons, ih, List.length_cons]

/-- The bits of the driven bytes, cut into blocks behind the bit before them. -/
theorem map_takeBlocks (carry : Bool) (driven : Bytes) :
    (takeBlocks 8 driven.length (carry :: driven.flatMap bitsOf)).map (fun block =>
      reverseBits (ofBits (block ++ List.replicate (8 - block.length) false))) =
      delayed carry driven := by
  induction driven generalizing carry with
  | nil => rfl
  | cons byte driven ih =>
    have hcut : takeBlocks 8 (driven.length + 1) (carry :: (byte :: driven).flatMap bitsOf) =
        (carry :: (bitsOf byte).take 7) ::
          takeBlocks 8 driven.length (lastBit byte :: driven.flatMap bitsOf) := rfl
    rw [List.length_cons, hcut, List.map_cons, ih]
    rfl

end SpiEncoding.ShiftRegister

/-! ## Scans -/

namespace Simulator

open SpiEncoding (ShiftRegister.delayed ShiftRegister.decode ShiftRegister.connect)

variable (filter : LogFilter) {sim : Simulator}

/-- The device after its flash has changed. -/
def holding (sim : Simulator) (flash : Nor.Flash) : Simulator :=
  { sim with flash }

/-- A scan of whole bytes is one transaction of the flash, whose answer comes back late. -/
theorem passThrough_eq (sim : Simulator) (bytes : Bytes) :
    sim.passThrough (bytes.map Bytes.reverseBits) (8 * bytes.length) =
      (ShiftRegister.delayed false (sim.flash.transact bytes).1,
        sim.holding (sim.flash.transact bytes).2) := by
  have hcount : 8 * bytes.length / 8 = bytes.length := Nat.mul_div_cancel_left _ (by decide)
  have hbytes : ((bytes.map Bytes.reverseBits).take (8 * bytes.length / 8)).map Bytes.reverseBits =
      bytes := by
    rw [hcount, List.take_of_length_le (Nat.le_of_eq (List.length_map ..)), Bytes.map_reverseBits]
  -- The bit that comes late pushes the last one out of the scan.
  have hblocks : ∀ driven : Bytes, driven.length = bytes.length →
      Bytes.blocks 8 ((false :: driven.flatMap Bytes.bitsOf).take (8 * bytes.length)) =
        Bytes.takeBlocks 8 driven.length (false :: driven.flatMap Bytes.bitsOf) := by
    intro driven hdriven
    rw [← hdriven]
    refine Bytes.blocks_take (by decide) ?_
    rw [List.length_cons, Bytes.length_flatMap_bitsOf]
    exact Nat.le_succ _
  unfold passThrough
  rw [hbytes]
  dsimp only
  rw [hblocks _ (Nor.Flash.length_transact ..), SpiEncoding.ShiftRegister.map_takeBlocks]
  rfl

/-- A scan goes to the flash while the instruction connects it. -/
theorem scan_spiPassthrough (hir : sim.ir = Instruction.spiPassthrough.opcode) (bytes : Bytes)
    (rxLength? : Option Nat) :
    sim.scan ⟨some (bytes.map Bytes.reverseBits), rxLength?, 8 * bytes.length, .runTestIdle⟩ =
      (ShiftRegister.delayed false (sim.flash.transact bytes).1,
        sim.holding (sim.flash.transact bytes).2) := by
  have hfit : Bytes.fit bytes.length (bytes.map Bytes.reverseBits) = bytes.map Bytes.reverseBits :=
    Bytes.fitWith_of_length (List.length_map ..)
  rw [← passThrough_eq, scan, ofOpcode?_ir hir]
  dsimp only [Option.getD_some]
  rw [Bytes.blockCount_mul (by decide), hfit]

/-- The data register is connected to the flash, and nothing else happens to the device. -/
theorem ends_connect (sim : Simulator) :
    ∃ after, Ends filter ShiftRegister.connect sim (.ok ()) after ∧ Traffic sim after ∧
      after.ir = Instruction.spiPassthrough.opcode := by
  have hsend := ends_send filter sim .spiPassthrough
  exact ⟨_, hsend.bind (ends_setState ..),
    (traffic_took sim .spiPassthrough).trans (traffic_inState ..), ir_took ..⟩

/-- The bytes that the flash takes: one more if an answer is wanted. -/
def clocked (bytes : Bytes) (wanted : Bool) : Bytes :=
  if wanted then bytes ++ [0] else bytes

/-- The byte that is shifted for the last bit is a zero. -/
theorem fit_map_reverseBits (bytes : Bytes) :
    Bytes.fit (bytes.length + 1) (bytes.map Bytes.reverseBits) =
      (bytes ++ [0]).map Bytes.reverseBits := by
  have hone : bytes.length + 1 - (bytes.map Bytes.reverseBits).length = 1 := by
    rw [List.length_map, Nat.add_sub_cancel_left]
  have hzero : List.replicate 1 (0 : UInt8) = [0].map Bytes.reverseBits := by decide
  rw [Bytes.fit, Bytes.fitWith, hone, List.take_of_length_le, hzero, List.map_append]
  rw [List.length_map]
  exact Nat.le_succ _

/-- The answer to the bytes survives the delay if one byte more is exchanged. -/
theorem decode_delayed_transact (flash : Nor.Flash) (bytes : Bytes) :
    ShiftRegister.decode (ShiftRegister.delayed false (flash.transact (bytes ++ [0])).1) =
      (flash.transact bytes).1 := by
  rw [SpiEncoding.ShiftRegister.decode_delayed, Nor.Flash.transact_eq, Nor.Flash.transact_eq,
    Nor.Flash.answers_append]
  exact List.dropLast_concat

/-- A transaction brings back the whole answer, if it is wanted. -/
theorem ends_transact (sim : Simulator) (bytes : Bytes) (wanted : Bool) :
    ∃ after, Ends filter (SpiEncoding.ShiftRegister.transact bytes wanted) sim
        (.ok (if wanted then (sim.flash.transact bytes).1 else [])) after ∧
      Traffic (sim.holding (sim.flash.transact (clocked bytes wanted)).2) after := by
  obtain ⟨connected, hconnect, htraffic, hir⟩ := ends_connect filter sim
  have hflash : connected.flash = sim.flash :=
    read_lasting htraffic.lasting_eq Simulator.flash fun _ => rfl
  have hheld := htraffic.map (holding · (sim.flash.transact (clocked bytes wanted)).2)
    (fun _ => rfl) fun _ => ⟨rfl, rfl⟩
  cases wanted with
  | false =>
    have hscan := ends_shiftDr_of_scan filter (scan_spiPassthrough hir bytes none)
    rw [hflash] at hscan
    exact ⟨_, hconnect.bind hscan, hheld.trans (traffic_inState ..)⟩
  | true =>
    -- Of the answer to one byte more, decoding loses the last byte, which is not wanted.
    have hscan := ends_shiftDr_of_scan filter
      (scan_spiPassthrough hir (bytes ++ [0]) (some (bytes.length + 1)))
    have hfit : Bytes.fit (bytes.length + 1)
        (ShiftRegister.delayed false (sim.flash.transact (bytes ++ [0])).1) =
        ShiftRegister.delayed false (sim.flash.transact (bytes ++ [0])).1 := by
      refine Bytes.fitWith_of_length ?_
      rw [SpiEncoding.ShiftRegister.length_delayed, Nor.Flash.length_transact, List.length_append,
        List.length_singleton]
    rw [hflash, ← fit_map_reverseBits, List.length_append, List.length_singleton, Scan.receive]
      at hscan
    dsimp only at hscan
    rw [hfit] at hscan
    rw [if_pos rfl, ← decode_delayed_transact]
    exact ⟨_, Ends.bind hconnect (hscan.bind (ends_pure ..)), hheld.trans (traffic_inState _ _)⟩

/-- A transaction of a chip driver brings back what one of the flash does. -/
theorem answers_transfer_shiftRegister (sim : Simulator) (tx? : Option Bytes)
    (rxLength? : Option Nat) :
    ∃ after, Answers filter (SpiEncoding.transfer .shiftRegister tx? rxLength?) sim
        (sim.flash.serve (.transfer tx? rxLength?)).1 after ∧
      Traffic (sim.holding (sim.flash.transact
        (clocked (SpiEncoding.outgoing tx? rxLength?) rxLength?.isSome)).2) after := by
  obtain ⟨after, hends, htraffic⟩ :=
    ends_transact filter sim (SpiEncoding.outgoing tx? rxLength?) rxLength?.isSome
  refine ⟨after, Answers.bind (Answers.map hends Receipt.ofExcept) ?_, htraffic⟩
  cases rxLength? <;> rfl

/-- Scanning through the data register agrees with driving the flash directly: the buffer gets
exactly the bytes of that transaction, and what lies past them stays untouched. Toggling the pins of
any device with an equal flash returns the same bytes, although the flash takes different ones: if
there is a buffer, one zero byte more is clocked into it here. -/
theorem run_put_shiftRegister (filter : LogFilter) (sim : Simulator) (tx? rx? : Option Bytes) :
    let bytes := SpiCall.sent tx? rx?
    let driven := (sim.flash.transact bytes).1
    let call := (SpiCall.put tx? rx?).ask
    let outcome := (call.substitute (SpiRequest.serve .shiftRegister)).run
      (Host.surroundings cable filter) sim
    outcome.1 = (rx?.map fun rx => driven.take rx.length ++ rx.drop driven.length, .ok ()) ∧
      outcome.2.flash = (sim.flash.transact (if rx?.isSome then bytes ++ [0] else bytes)).2 ∧
      ∀ (peer : Simulator) (pins : SpiPins), peer.flash = sim.flash →
        peer.profile.spi = .bitBang pins → peer.ir = Instruction.spiBoundaryScan.opcode →
        peer.bus.selected = false →
        ((call.substitute (SpiRequest.serve (.bitBang pins))).run
          (Host.surroundings cable filter) peer).1 = outcome.1 := by
  intro bytes driven call outcome
  obtain ⟨after, htransfer, htraffic⟩ :=
    answers_transfer_shiftRegister filter sim tx? (rx?.map List.length)
  have hdirect : (call.run Nor.Flash.serve sim.flash).1 =
      (rx?.map fun rx => driven.take rx.length ++ rx.drop driven.length, .ok ()) :=
    congrArg Prod.fst (SpiCall.run_ask (.put tx? rx?) sim.flash)
  have hcall : Answers filter (call.substitute (SpiRequest.serve .shiftRegister)) sim
      (call.run Nor.Flash.serve sim.flash).1 after :=
    htransfer.bind rfl
  rw [show outcome = _ from hcall]
  refine ⟨hdirect, ?_, ?_⟩
  · have hflash : after.flash = _ := read_lasting htraffic.lasting_eq Simulator.flash fun _ => rfl
    rw [SpiCall.outgoing_length, Option.isSome_map] at hflash
    exact hflash
  · -- Both encodings are measured by the flash itself, and the flashes are equal.
    intro peer pins hpeer hspi hir hdeselected
    obtain ⟨after, hanswers, -⟩ := answers_substitute filter ⟨hspi, hir⟩ hdeselected call
    rw [show Dialogue.run _ _ peer = _ from hanswers, hpeer]

/-- A flash is identified through the data register, and by toggling pins. The last byte of the
buffer is left as it was. -/
theorem run_put_shiftRegister_identify :
    ∃ call sim peer outcome,
      call = SpiCall.put (some [0x9F, 0, 0, 0]) (some [1, 2, 3, 4, 5]) ∧
      sim = powerUp { idcode := 0x0000081B } ∧
      peer = { powerUp { idcode := 0x0100981B } with ir := Instruction.spiBoundaryScan.opcode } ∧
      outcome = (call.ask.substitute (SpiRequest.serve .shiftRegister)).run
        (Host.surroundings cable none) sim ∧
      outcome.1 = (some [0xFF, 0xEF, 0x40, 0x16, 5], .ok ()) ∧
      ((call.ask.substitute (SpiRequest.serve (.bitBang .gw1nsr4c))).run
        (Host.surroundings cable none) peer).1 = outcome.1 := by
  refine ⟨_, _, _, _, rfl, rfl, rfl, rfl, ?_⟩
  generalize hsim : powerUp { idcode := 0x0000081B } = sim
  generalize hpeer : ({ powerUp _ with ir := _ } : Simulator) = peer
  have hflash : sim.flash = .powerUp {} := by rw [← hsim]; rfl
  have hequal : peer.flash = sim.flash := by rw [← hpeer, hflash]; rfl
  have hspi : peer.profile.spi = .bitBang .gw1nsr4c := by rw [← hpeer]; rfl
  have hir : peer.ir = Instruction.spiBoundaryScan.opcode := by rw [← hpeer]
  have hdeselected : peer.bus.selected = false := by rw [← hpeer]; rfl
  have hdriven : (sim.flash.transact [0x9F, 0, 0, 0]).1 = [0xFF, 0xEF, 0x40, 0x16] := by
    rw [hflash]; rfl
  obtain ⟨houtcome, -, hpeers⟩ :=
    run_put_shiftRegister none sim (some [0x9F, 0, 0, 0]) (some [1, 2, 3, 4, 5])
  refine ⟨houtcome.trans ?_, hpeers peer _ hequal hspi hir hdeselected⟩
  show (some ((sim.flash.transact [0x9F, 0, 0, 0]).1.take 5 ++
    [1, 2, 3, 4, 5].drop (sim.flash.transact [0x9F, 0, 0, 0]).1.length), _) = _
  rw [hdriven]
  rfl

end Simulator

end FpgaProgrammer
