import FpgaProgrammer.Proofs.Nor.Checked
import FpgaProgrammer.Proofs.Simulator.Scans
import FpgaProgrammer.Simulator.Step

/-!
# The simulated device with every access checked

`cable?` is the cable to the simulated device as a program over buffers of fixed length: the bits
of a scan are copied into a buffer, what is captured is written into another one, and that is
copied into the buffer of the host. A call is refused, with `none`, when an index lies outside of a
buffer or a byte is shifted by eight bits or more.

As long as fewer than eight bits are waiting at the SPI pins and no cell of the SPI flash lies
outside of its array, no call is refused, and the host holds what `cable` gives it (`cable?_eq`).
-/

namespace FpgaProgrammer

open Bytes (blockCount fit reverseBits ofBits)

namespace Simulator

variable (sim : Simulator)

/-! ## The SPI pins -/

/-- `Simulator.moveSelect` with every access checked. -/
def moveSelect? (selected : Bool) : Option Simulator :=
  if selected && !sim.bus.selected then do
    let flash := sim.flash.select
    let driven ← flash.driven?
    some { sim with flash, bus := { sim.bus with selected := true, bits := [], driven } }
  else if !selected && sim.bus.selected then do
    let flash ← sim.flash.release?
    some { sim with flash, bus := { sim.bus with selected := false } }
  else
    some sim

/-- `Simulator.clockIn` with every access checked. The bit that goes out is selected by a mask that
is shifted by the number of bits received. -/
def clockIn? (bit : Bool) : Option Simulator := do
  let mask ← Bytes.shiftRight? 0x80 sim.bus.bits.length
  let miso := sim.bus.driven &&& mask != 0
  let bits := sim.bus.bits ++ [bit]
  if bits.length = 8 then do
    let flash ← sim.flash.receive? (ofBits bits)
    let driven ← flash.driven?
    some { sim with flash, bus := { sim.bus with miso, bits := [], driven } }
  else
    some { sim with bus := { sim.bus with miso, bits } }

/-- `Simulator.drivePins` with every access checked. -/
def drivePins? (vector : UInt8) : Option (UInt8 × Simulator) := do
  let pins := sim.pins
  let clock := vector &&& pins.clock != 0
  let sim ← sim.moveSelect? (vector &&& pins.select == 0)
  let sim ←
    if sim.bus.selected && clock && !sim.bus.clock then
      sim.clockIn? (vector &&& pins.dataIn != 0)
    else
      some sim
  let sim := { sim with bus := { sim.bus with clock } }
  let quiet := vector &&& ~~~pins.dataOut
  some (if sim.bus.miso then quiet ||| pins.dataOut else quiet, sim)

variable {sim}

/-- No access is out of bounds when chip select moves, if no cell of the flash is. -/
theorem moveSelect?_eq (h : sim.flash.memory.Bounded) (selected : Bool) :
    sim.moveSelect? selected = some (sim.moveSelect selected) := by
  unfold moveSelect? moveSelect
  dsimp only
  rw [Nor.Flash.driven?_eq, Nor.Flash.release?_eq h]
  split
  · rfl
  · split <;> rfl

/-- No access is out of bounds when a bit is clocked in, if fewer than eight are waiting. -/
theorem clockIn?_eq (h : sim.bus.bits.length < 8) (bit : Bool) :
    sim.clockIn? bit = some (sim.clockIn bit) := by
  unfold clockIn? clockIn
  dsimp only
  rw [Bytes.shiftRight?, if_pos h, Option.bind_eq_bind, Option.bind_some,
    Bytes.and_shiftRight_bne h, Nor.Flash.receive?_eq]
  split
  · rw [Option.bind_eq_bind, Option.bind_some, Nor.Flash.driven?_eq]
    rfl
  · rfl

/-- The bits that wait are none after the chip was selected, and the same otherwise. -/
theorem length_bits_moveSelect (h : sim.bus.bits.length < 8) (selected : Bool) :
    (sim.moveSelect selected).bus.bits.length < 8 := by
  unfold moveSelect
  split
  · exact Nat.succ_pos 7
  · split <;> exact h

/-- A bit is added to those that wait, or completes a byte. -/
theorem length_bits_clockIn (h : sim.bus.bits.length < 8) (bit : Bool) :
    (sim.clockIn bit).bus.bits.length < 8 := by
  unfold clockIn
  dsimp only
  split
  · exact Nat.succ_pos 7
  · rename_i hopen
    rw [List.length_append, List.length_singleton] at hopen ⊢
    omega

/-- No access is out of bounds when a vector is written to the pins. -/
theorem drivePins?_eq (hbits : sim.bus.bits.length < 8) (hflash : sim.flash.memory.Bounded)
    (vector : UInt8) : sim.drivePins? vector = some (sim.drivePins vector) := by
  unfold drivePins? drivePins
  dsimp only
  rw [moveSelect?_eq hflash, Option.bind_eq_bind, Option.bind_some,
    clockIn?_eq (length_bits_moveSelect hbits _)]
  split <;> rfl

/-! ## Scans -/

variable (sim)

/-- `Simulator.passThrough` with every access checked. The bits that come back are set one by one
in the buffer of what is captured. -/
def passThrough? (tx captured : Bytes) (bits : Nat) : Option (Bytes × Simulator) := do
  let (driven, flash) ← sim.flash.transact? ((tx.take (bits / 8)).map reverseBits)
  let returned ← driven.mapM Bytes.bitsOf?
  let captured ← Bytes.setBits? bits 1 returned.flatten captured
  some (captured, { sim with flash })

/-- What a scan captures in a buffer of zeros, and the device afterwards, with every access
checked. -/
def capture? (given : Scan) (tx captured : Bytes) : Option (Bytes × Simulator) :=
  match Instruction.ofOpcode? sim.ir with
  | some .readIdcode =>
    if 4 ≤ captured.length then do
      some (← Bytes.overwrite? 4 (Bytes.ofWordLE sim.config.idcode) captured, sim)
    else
      some (captured, sim)
  | some .readUsercode =>
    if 4 ≤ captured.length then do
      some (← Bytes.overwrite? 4 (Bytes.ofWordLE sim.usercode) captured, sim)
    else
      some (captured, sim)
  | some .readStatus =>
    if 4 ≤ captured.length then do
      let (status, sim) := sim.readStatus
      some (← Bytes.overwrite? 4 (Bytes.ofWordLE status.bits) captured, sim)
    else
      some (captured, sim)
  | some .transferWrite =>
    if sim.editMode then
      some (captured, { sim with
        sram := sim.sram ++ tx
        chunks := sim.chunks.push (given.bits, given.endState) })
    else
      some (captured, sim)
  | some .checksumStart =>
    if 4 ≤ captured.length then do
      some (captured, { sim with checksum? := some (← Bytes.wordAt? tx) })
    else
      some (captured, sim)
  | some .flashProgram =>
    if given.bits = 32 then
      match sim.pageWrite? with
      | none => some (captured, sim)
      | some _ => do some (captured, sim.receivePageWord (← Bytes.wordAt? tx))
    else
      some (captured, sim)
  | some .spiPassthrough => sim.passThrough? tx captured given.bits
  | some .spiBoundaryScan =>
    if given.bits = 8 then do
      let (read, sim) ← sim.drivePins? (← tx[0]?)
      some (← Bytes.overwrite? 1 [read] captured, sim)
    else
      some (captured, sim)
  | _ => some (captured, sim)

/-- A scan with every access checked: what the host holds afterwards, and the device. -/
def scan? (given : Scan) : Option (Bytes × Simulator) := do
  let length := blockCount 8 given.bits
  let tx ← Bytes.copyInto? (given.tx?.getD []) (List.replicate length 0)
  let (captured, sim) ← sim.capture? given tx (List.replicate length 0)
  match given.rxLength? with
  | none => some ([], sim)
  | some n => do some (← Bytes.copyInto? captured (List.replicate n 0), sim)

variable {sim}

/-- The flash takes the whole bytes of a scan. -/
theorem length_transact_scan (flash : Nor.Flash) {tx : Bytes} {bits : Nat}
    (htx : tx.length = blockCount 8 bits) :
    (flash.transact ((tx.take (bits / 8)).map reverseBits)).1.length = bits / 8 := by
  rw [Nor.Flash.length_transact, List.length_map, List.length_take, htx]
  unfold blockCount
  omega

/-- All bits of a scan are captured. -/
theorem length_passThrough (sim : Simulator) {tx : Bytes} {bits : Nat}
    (htx : tx.length = blockCount 8 bits) :
    (sim.passThrough tx bits).1.length = blockCount 8 bits := by
  have hdriven := length_transact_scan sim.flash htx
  have hpacked : (sim.passThrough tx bits).1 = Bytes.packed ((false ::
      (sim.flash.transact ((tx.take (bits / 8)).map reverseBits)).1.flatMap Bytes.bitsOf).take
        bits) := rfl
  rw [hpacked, Bytes.length_packed, List.length_take, List.length_cons,
    Bytes.length_flatMap_bitsOf, hdriven]
  unfold blockCount
  omega

/-- No access is out of bounds when bytes are passed through the data register, if there are as many
as the bits need. -/
theorem passThrough?_eq (h : sim.flash.memory.Bounded) {tx : Bytes} {bits : Nat}
    (htx : tx.length = blockCount 8 bits) :
    sim.passThrough? tx (List.replicate (blockCount 8 bits) 0) bits =
      some (sim.passThrough tx bits) := by
  have hlength := length_transact_scan sim.flash htx
  unfold passThrough?
  rw [Nor.Flash.transact?_eq h]
  dsimp only [Option.bind_eq_bind, Option.bind_some]
  rw [Bytes.mapM_bitsOf?]
  dsimp only [Option.bind_some]
  rw [← List.flatMap_def, Bytes.setBits?_late bits hlength]
  rfl

/-- What a scan captures fits into its buffer. -/
theorem length_scan_le (sim : Simulator) (given : Scan) :
    (sim.scan given).1.length ≤ blockCount 8 given.bits := by
  dsimp only [scan]
  split
  case h_7 =>
    exact Nat.le_of_eq (length_passThrough sim (Bytes.length_fit ..))
  case h_8 =>
    split
    · rename_i hbits
      rw [hbits]
      exact Nat.le_refl 1
    · exact Nat.zero_le _
  all_goals first
    | exact Nat.zero_le _
    | (split
       · first
          | assumption
          | exact Nat.zero_le _
       · exact Nat.zero_le _)

/-- Nothing that is captured lies outside of the buffer. -/
theorem capture?_eq (hbits : sim.bus.bits.length < 8) (hflash : sim.flash.memory.Bounded)
    (given : Scan) :
    sim.capture? given (fit (blockCount 8 given.bits) (given.tx?.getD []))
        (List.replicate (blockCount 8 given.bits) 0) =
      some (fit (blockCount 8 given.bits) (sim.scan given).1, (sim.scan given).2) := by
  have hword : ∀ word, (Bytes.ofWordLE word).length = 4 := fun _ => rfl
  unfold capture? scan
  dsimp only
  rw [List.length_replicate]
  generalize htx : fit (blockCount 8 given.bits) (given.tx?.getD []) = tx
  have hlength : tx.length = blockCount 8 given.bits := by rw [← htx, Bytes.length_fit]
  -- One case for each register that answers; all others leave the buffer as it is.
  cases Instruction.ofOpcode? sim.ir with
  | none => exact congrArg (fun captured => some (captured, sim)) (Bytes.fit_nil _).symm
  | some instruction =>
    cases instruction with
    | readIdcode | readUsercode | readStatus =>
      dsimp only
      split
      · rename_i hfour
        rw [Bytes.overwrite?_replicate (hword _) hfour]
        rfl
      · rw [Bytes.fit_nil]
    | checksumStart =>
      dsimp only
      split
      · rename_i hfour
        rw [Bytes.wordAt?_eq (hlength ▸ hfour), Bytes.fit_nil]
        rfl
      · rw [Bytes.fit_nil]
    | flashProgram =>
      dsimp only
      split
      · rename_i hbits
        have hfour : 4 ≤ tx.length := by
          rw [hlength, hbits]
          decide
        rw [Bytes.fit_nil, Bytes.wordAt?_eq hfour]
        cases hpage : sim.pageWrite? with
        | none => rw [receivePageWord, hpage]
        | some _ => rfl
      · rw [Bytes.fit_nil]
    | spiPassthrough =>
      dsimp only
      rw [passThrough?_eq hflash hlength,
        show fit _ (sim.passThrough tx given.bits).1 = _ from
          Bytes.fitWith_of_length (length_passThrough sim hlength)]
    | spiBoundaryScan =>
      dsimp only
      split
      · rename_i height
        have hone : blockCount 8 given.bits = 1 := by rw [height]; rfl
        obtain ⟨vector, rfl⟩ := List.length_eq_one_iff.mp (hlength.trans hone)
        rw [hone]
        show (do
          let (read, sim) ← sim.drivePins? vector
          some (← Bytes.overwrite? 1 [read] (List.replicate 1 0), sim)) = _
        rw [drivePins?_eq hbits hflash]
        rfl
      · rw [Bytes.fit_nil]
    | transferWrite =>
      dsimp only
      split <;> rw [Bytes.fit_nil]
    | _ => exact congrArg (fun captured => some (captured, sim)) (Bytes.fit_nil _).symm

/-- No access of a scan lies outside of a buffer. -/
theorem scan?_eq (hbits : sim.bus.bits.length < 8) (hflash : sim.flash.memory.Bounded)
    (given : Scan) :
    sim.scan? given = some (given.receive (sim.scan given).1, (sim.scan given).2) := by
  unfold scan?
  dsimp only
  rw [Bytes.copyInto?_replicate, Option.bind_eq_bind, Option.bind_some,
    capture?_eq hbits hflash]
  unfold Scan.receive
  cases given.rxLength? with
  | none => rfl
  | some n =>
    dsimp only [Option.bind_eq_bind, Option.bind_some]
    rw [Bytes.copyInto?_replicate, Bytes.fit_fit (length_scan_le sim given)]
    rfl

end Simulator

/-! ## Calls -/

/-- What the host holds after a call. -/
def CableCall.held : (call : CableCall) → call.Reply → call.Reply
  | .shiftDr given, .ok captured => .ok (given.receive captured)
  | _, reply => reply

namespace Simulator

/-- `Simulator.cable` with every access checked, up to what the host holds. -/
def cable? : (call : CableCall) → Simulator → Option (call.Reply × Simulator)
  | .shiftDr given, sim => do
    let (held, sim) ← sim.scan? given
    some (.ok held, { sim with tap := given.endState })
  | call, sim => some (cable call sim)

/-- No access of a call lies outside of a buffer. -/
theorem cable?_eq {sim : Simulator} (hbits : sim.bus.bits.length < 8)
    (hflash : sim.flash.memory.Bounded) (call : CableCall) :
    cable? call sim = some (call.held (cable call sim).1, (cable call sim).2) := by
  cases call with
  | shiftDr given =>
    dsimp only [cable?]
    rw [scan?_eq hbits hflash]
    rfl
  | _ => rfl

end Simulator

end FpgaProgrammer
