/-!
# JTAG instructions

The instructions of the configuration logic. All are eight bits wide.
-/

namespace FpgaProgrammer

/-- An instruction of the configuration logic. -/
inductive Instruction where
  /-- Do nothing; latches the instruction before it. -/
  | noop
  /-- Reload the configuration from flash. -/
  | reload
  /-- Select the idcode register. -/
  | readIdcode
  /-- Select the usercode register. -/
  | readUsercode
  /-- Select the status register. -/
  | readStatus
  /-- Open the configuration gate. -/
  | configEnable
  /-- Close the configuration gate. -/
  | configDisable
  /-- Read the SRAM back. -/
  | readSram
  /-- Erase the SRAM. -/
  | eraseSram
  /-- Mark the end of a transfer. -/
  | transferDone
  /-- Reset the SRAM address counter. -/
  | initAddress
  /-- Stream data into the SRAM. -/
  | transferWrite
  /-- Announce the checksum word after an SRAM load. -/
  | checksumStart
  /-- Latch the checksum word after an SRAM load. -/
  | checksumEnd
  /-- Program a page of the embedded flash. -/
  | flashProgram
  /-- Erase the embedded flash. -/
  | flashErase
  /-- Connect the data register to the SPI flash. -/
  | spiPassthrough
  /-- Hand the pins of the SPI flash to the boundary-scan register. -/
  | spiBoundaryScan
  /-- Hand the JTAG chain to the embedded processor. -/
  | switchToProcessor
  deriving Repr, DecidableEq

namespace Instruction

/-- All instructions. -/
def all : List Instruction :=
  [noop, reload, readIdcode, readUsercode, readStatus, configEnable, configDisable, readSram,
    eraseSram, transferDone, initAddress, transferWrite, checksumStart, checksumEnd, flashProgram,
    flashErase, spiPassthrough, spiBoundaryScan, switchToProcessor]

/-- The eight bits of an instruction. -/
def opcode : Instruction → UInt8
  | noop => 0x02
  | reload => 0x3C
  | readIdcode => 0x11
  | readUsercode => 0x13
  | readStatus => 0x41
  | configEnable => 0x15
  | configDisable => 0x3A
  | readSram => 0x03
  | eraseSram => 0x05
  | transferDone => 0x09
  | initAddress => 0x12
  | transferWrite => 0x17
  | checksumStart => 0x0A
  | checksumEnd => 0x08
  | flashProgram => 0x71
  | flashErase => 0x75
  | spiPassthrough => 0x16
  | spiBoundaryScan => 0x3D
  | switchToProcessor => 0x7A

/-- The instruction with the given bits, if they mean one. -/
def ofOpcode? (code : UInt8) : Option Instruction :=
  all.find? fun instruction => instruction.opcode == code

@[simp]
theorem ofOpcode?_opcode (instruction : Instruction) :
    ofOpcode? instruction.opcode = some instruction := by
  cases instruction <;> decide

/-- Only the bits of an instruction mean it. -/
theorem opcode_of_ofOpcode? {code : UInt8} {instruction : Instruction}
    (h : ofOpcode? code = some instruction) : instruction.opcode = code := by
  simpa using List.find?_some h

end Instruction

end FpgaProgrammer
