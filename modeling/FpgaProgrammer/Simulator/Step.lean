import FpgaProgrammer.Simulator.Basic

/-!
# What the simulated device does

How the simulated device takes instructions and scans, and the cable that leads to it,
`Simulator.cable`. Every step is a function on the state; none can fail.
-/

namespace FpgaProgrammer.Simulator

variable (sim : Simulator)

/-! ## Instructions -/

/-- The gate closes while an erase of the embedded flash is under way. The erase takes if enough
pulses were given and enough attempts made; otherwise the old design comes up again. Both counts
are unbounded numbers here, and counters of 32 bits in the device. -/
def finishErase : Simulator :=
  if !sim.eraseArmed then sim
  else
    let sim := { sim with eraseArmed := false, eraseLog := sim.eraseLog.push sim.pulses }
    if sim.profile.erasePulses ≤ sim.pulses ∧ sim.config.stubbornErases < sim.eraseLog.size then
      { sim with pages := ∅, doneFinal := false, gowinValid := false }
    else
      sim.reload

/-- The gate closes while an SRAM load waits to start: the loaded design starts. -/
def startLoaded : Simulator :=
  if sim.sramValid then
    { sim with sramValid := false, doneFinal := true, gowinValid := true, powerOnReset := false }
  else
    sim

/-- The checksum word is compared with the loaded bits. -/
def latchChecksum : Simulator :=
  let expected := (checksum16 sim.sram).toUInt32
  if sim.checksum? = some expected then
    { sim with sramValid := true, usercode := sim.config.usercode?.getD expected }
  else
    { sim with sramValid := false }

/-- The effect of an instruction. Erasing and programming need an open gate. -/
def execute : Instruction → Simulator
  | .configEnable => if sim.config.stuckEditMode then sim else { sim with editMode := true }
  | .configDisable => { sim with editMode := false }.finishErase.startLoaded
  | .eraseSram =>
    if sim.editMode then
      { sim with
        doneFinal := false
        gowinValid := false
        memoryErased := false
        eraseCountdown? := some sim.config.eraseLatency }
    else
      sim
  | .transferDone => { sim with memoryErased := false }
  | .initAddress => { sim with sram := [], chunks := #[], checksum? := none }
  | .checksumEnd => sim.latchChecksum
  | .flashErase => if sim.editMode then { sim with eraseArmed := true, pulses := 0 } else sim
  | .flashProgram =>
    if sim.editMode then { sim with pageWrite? := some ⟨none, []⟩ } else sim
  | .reload => sim.reload
  | _ => sim

/-- The instruction register takes eight bits. -/
def instruct (code : UInt8) : Simulator :=
  let sim := { sim with history := sim.history.push code, ir := code }
  match Instruction.ofOpcode? code with
  | none => sim
  | some instruction => sim.execute instruction

/-! ## Scans -/

/-- A read of the status register brings a running SRAM erase nearer to its end. -/
def readStatus : Status × Simulator :=
  let sim :=
    match sim.eraseCountdown? with
    | none => sim
    | some 0 => { sim with memoryErased := true, eraseCountdown? := none }
    | some (left + 1) => { sim with eraseCountdown? := some left }
  (sim.status, sim)

/-- A word for the page being received: first its address, then its bytes, the highest first. A
full page is stored. -/
def receivePageWord (word : UInt32) : Simulator :=
  match sim.pageWrite? with
  | none => sim
  | some ⟨none, data⟩ => { sim with pageWrite? := some ⟨some word, data⟩ }
  | some ⟨some address, data⟩ =>
    let data := data ++ Bytes.ofWordBE word
    if data.length = Device.EmbeddedFlash.pageSize then
      { sim with pageWrite? := none, pages := sim.pages.insert address data }
    else
      { sim with pageWrite? := some ⟨some address, data⟩ }

/-- The select pin moves. -/
def moveSelect (selected : Bool) : Simulator :=
  if selected && !sim.bus.selected then
    let flash := sim.flash.select
    { sim with flash, bus := { sim.bus with selected := true, bits := [], driven := flash.driven } }
  else if !selected && sim.bus.selected then
    { sim with flash := sim.flash.release, bus := { sim.bus with selected := false } }
  else
    sim

/-- The clock pin rises while the chip is selected: a bit goes each way, and a full byte is passed
on to the flash. -/
def clockIn (bit : Bool) : Simulator :=
  let miso := (Bytes.bitsOf sim.bus.driven).getD sim.bus.bits.length false
  let bits := sim.bus.bits ++ [bit]
  if bits.length = 8 then
    let flash := sim.flash.receive (Bytes.ofBits bits)
    { sim with flash, bus := { sim.bus with miso, bits := [], driven := flash.driven } }
  else
    { sim with bus := { sim.bus with miso, bits } }

/-- A vector is written to the pins; the one captured shows what the flash drives. -/
def drivePins (vector : UInt8) : UInt8 × Simulator :=
  let pins := sim.pins
  let clock := vector &&& pins.clock != 0
  let sim := sim.moveSelect (vector &&& pins.select == 0)
  let sim :=
    if sim.bus.selected && clock && !sim.bus.clock then
      sim.clockIn (vector &&& pins.dataIn != 0)
    else
      sim
  let sim := { sim with bus := { sim.bus with clock } }
  let quiet := vector &&& ~~~pins.dataOut
  (if sim.bus.miso then quiet ||| pins.dataOut else quiet, sim)

/-- One scan is one transaction of the SPI flash. Bytes go least significant bit first here, and
the response trails by one bit. -/
def passThrough (tx : Bytes) (bits : Nat) : Bytes × Simulator :=
  let (driven, flash) := sim.flash.transact ((tx.take (bits / 8)).map Bytes.reverseBits)
  let response := (false :: driven.flatMap Bytes.bitsOf).take bits
  ((Bytes.blocks 8 response).map fun block => Bytes.reverseBits (Bytes.ofBits (block ++
    List.replicate (8 - block.length) false)), { sim with flash })

/-- A scan: what is captured, and the device afterwards. Which register it goes through depends on
the instruction; a register that is too long for the scan does not answer. -/
def scan (scan : Scan) : Bytes × Simulator :=
  let length := Bytes.blockCount 8 scan.bits
  let tx := Bytes.fit length (scan.tx?.getD [])
  match Instruction.ofOpcode? sim.ir with
  | some .readIdcode =>
    if 4 ≤ length then (Bytes.ofWordLE sim.config.idcode, sim) else ([], sim)
  | some .readUsercode => if 4 ≤ length then (Bytes.ofWordLE sim.usercode, sim) else ([], sim)
  | some .readStatus =>
    if 4 ≤ length then
      let (status, sim) := sim.readStatus
      (Bytes.ofWordLE status.bits, sim)
    else
      ([], sim)
  | some .transferWrite =>
    if sim.editMode then
      ([], { sim with
        sram := sim.sram ++ tx
        chunks := sim.chunks.push (scan.bits, scan.endState) })
    else
      ([], sim)
  | some .checksumStart =>
    if 4 ≤ length then ([], { sim with checksum? := some (Bytes.wordLE tx) }) else ([], sim)
  | some .flashProgram =>
    if scan.bits = 32 then ([], sim.receivePageWord (Bytes.wordLE tx)) else ([], sim)
  | some .spiPassthrough => sim.passThrough tx scan.bits
  | some .spiBoundaryScan =>
    if scan.bits = 8 then
      let (captured, sim) := sim.drivePins (tx.headD 0)
      ([captured], sim)
    else
      ([], sim)
  | _ => ([], sim)

/-! ## The cable -/

/-- Clock pulses outside of scans. Those in Shift-DR erase the embedded flash, and are counted
without the limit of a 32-bit counter. -/
def toggleClock (cycles : UInt32) : Simulator :=
  let pulsed := sim.eraseArmed && sim.tap == .shiftDr && cycles == 32
  { sim with
    pulses := if pulsed then sim.pulses + 1 else sim.pulses
    clocks := sim.clocks + cycles.toNat }

/-- The cable to the simulated device. -/
def cable : Cable Simulator
  | .shiftIr data _, sim => (.ok (), { sim.instruct (data.headD 0) with tap := .runTestIdle })
  | .shiftDr scan, sim =>
    let (captured, sim) := sim.scan scan
    (.ok captured, { sim with tap := scan.endState })
  | .setState state, sim => (.ok (), { sim with tap := state })
  | .toggleClock cycles, sim => (.ok (), sim.toggleClock cycles)
  | .flush, sim => (.ok (), sim)
  | .clockFrequency, sim => (sim.frequency, sim)
  | .setClockFrequency hertz, sim => (.ok hertz, { sim with frequency := hertz })
  | .readIdcode, sim => (.ok sim.config.idcode, sim)
  | .sleep milliseconds, sim => ((), { sim with slept := sim.slept + milliseconds.toNat })

end FpgaProgrammer.Simulator
