import FpgaProgrammer.Device.Command
import FpgaProgrammer.Device.Status

/-!
# Registers and the configuration gate

Reading the 32-bit registers of a device, waiting for a status, and opening and closing the gate
behind which memories can be erased and written.

Waiting is bounded by a number of status reads, which every operation that waits is given as
`limit`.
-/

namespace FpgaProgrammer.Device

/-- Reads the register that the instruction with these bits selects. -/
def readRegister (code : UInt8) : Host UInt32 := do
  sendOpcode code
  let captured ← Host.shiftDr ⟨some [0xFF, 0xFF, 0xFF, 0xFF], some 4, 32, .runTestIdle⟩
  pure (Bytes.wordLE captured)

/-- Reads the idcode register. -/
def readIdcode : Host UInt32 :=
  readRegister Instruction.readIdcode.opcode

/-- Reads the usercode register. -/
def readUsercode : Host UInt32 :=
  readRegister Instruction.readUsercode.opcode

/-- Reads the status register. -/
def readStatus : Host Status := do
  let bits ← readRegister Instruction.readStatus.opcode
  pure ⟨bits⟩

/-- The clocks that take so many microseconds at the given frequency. -/
def clocksFor (frequency : UInt32) (microseconds : Nat) : UInt32 :=
  (min (frequency.toNat * microseconds / 1000000) (UInt32.size - 1)).toUInt32

/-- Lets the clock run for so many microseconds at the current frequency. -/
def idle (microseconds : Nat) : Host Unit := do
  let frequency ← Host.clockFrequency
  Host.toggleClock (clocksFor frequency microseconds)

/-- A word as messages show it. -/
def showWord (word : UInt32) : String :=
  "0x" ++ Text.hexLower 8 word.toNat

/-- Reads the status until the bits of `mask` have the values in `expected`. -/
def awaitStatus (mask expected : Status) : (limit : Nat) → Host Unit
  | 0 => do
    Host.log .debug ("poll timeout: mask " ++ showWord mask.bits)
    throw .timeout
  | limit + 1 => do
    let status ← readStatus
    Host.log .trace ("poll: " ++ showWord status.bits ++ " mask " ++ showWord mask.bits ++
      " expected " ++ showWord expected.bits)
    if status.bits &&& mask.bits == expected.bits then
      pure ()
    else
      awaitStatus mask expected limit

/-- The status in which only this flag is set. -/
def only (flag : StatusFlag) : Status :=
  .ofFlags [flag]

/-- The status in which no flag is set. -/
def nothing : Status :=
  .ofFlags []

/-- Opens the configuration gate and waits until it is open. -/
def enableConfig (limit : Nat) : Host Unit := do
  send .configEnable
  awaitStatus (only .systemEditMode) (only .systemEditMode) limit

/-- Closes the configuration gate and waits until it is closed. -/
def disableConfig (limit : Nat) : Host Unit := do
  send .configDisable
  send .noop
  awaitStatus (only .systemEditMode) nothing limit

/-- Reloads the configuration from flash. -/
def reload : Host Unit := do
  send .reload
  send .noop

/-- Logs the status and its flags, if messages of level debug are recorded at all: the register is
not read otherwise. -/
def logStatus (occasion : String) : Host Unit := do
  if ← Host.records .debug then
    let status ← readStatus
    Host.log .debug (occasion ++ ": status " ++ showWord status.bits)
    status.flags.forM fun flag => Host.log .debug ("\t" ++ flag.label)

end FpgaProgrammer.Device
