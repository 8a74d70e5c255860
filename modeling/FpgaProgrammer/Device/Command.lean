import FpgaProgrammer.Device.Instruction
import FpgaProgrammer.Host

/-!
# Sending instructions

An instruction is shifted into the instruction register and given five clocks to settle.
-/

namespace FpgaProgrammer.Device

/-- The clocks an instruction takes to settle. -/
def settlingClocks : UInt32 := 5

/-- Sends eight bits as an instruction and lets them settle. -/
def sendOpcode (code : UInt8) : Host Unit := do
  Host.shiftIr [code] 8
  Host.toggleClock settlingClocks

/-- Sends an instruction and lets it settle. -/
def send (instruction : Instruction) : Host Unit :=
  sendOpcode instruction.opcode

end FpgaProgrammer.Device
