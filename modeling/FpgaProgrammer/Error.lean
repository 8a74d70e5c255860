import FpgaProgrammer.Text.Hex

/-!
# Failures

What can go wrong while a device is programmed. Each constructor is a cause, and
`Error.message` is the one place where causes are put into words.
-/

namespace FpgaProgrammer

/-- The two memories of a device that are erased and written. -/
inductive MemoryKind where
  /-- The volatile configuration memory. -/
  | sram
  /-- The flash inside the device. -/
  | flash
  deriving Repr, DecidableEq

/-- The name of the memory in messages. -/
def MemoryKind.name : MemoryKind → String
  | .sram => "SRAM"
  | .flash => "flash"

/-- What was asked for although it is not offered, in words: a cable or a chip driver may refuse
things of its own. -/
abbrev Refusal := String

/-- Why a session could not be opened, or an operation did not succeed. -/
inductive Error where
  /-- The bitstream is made for another device. -/
  | idcodeMismatch (image device : UInt32)
  /-- The bitstream does not say for which device it is made. -/
  | missingIdcode
  /-- A raw image was to be written elsewhere than to an external flash. -/
  | incompatibleFormat
  /-- Firmware was given for a device without a processor. -/
  | firmwareUnsupported
  /-- The status register did not reach the awaited value. -/
  | timeout
  /-- The SPI flash did not report the awaited status. -/
  | spiTimeout
  /-- The device still runs a design after the memory was erased. -/
  | eraseFailed (memory : MemoryKind)
  /-- The device runs no design after the memory was written. -/
  | writeFailed (memory : MemoryKind)
  /-- The device neither runs a design nor has just been powered up. -/
  | notReady (status : UInt32)
  /-- What was asked for is not offered. -/
  | unsupported (what : Refusal)
  /-- An external flash was to be written without a driver for its chip. -/
  | noChipDriver
  /-- The cable failed. -/
  | transport
  /-- The driver of the external flash chip failed. -/
  | chipDriver
  deriving Repr, DecidableEq

/-- The report on an idcode that differs from the device's. -/
def idcodeMismatchText (image device : UInt32) : String :=
  "mismatch between target's idcode and bitstream idcode: bitstream has 0x" ++
    Text.hexUpper 8 image.toNat ++ ", hardware requires 0x" ++ Text.hexUpper 8 device.toNat

/-- A failure in words. -/
def Error.message : Error → String
  | .idcodeMismatch image device => idcodeMismatchText image device
  | .missingIdcode => "bitstream header has no idcode"
  | .incompatibleFormat => "incompatible file format (raw images need external flash)"
  | .firmwareUnsupported => "microcontroller firmware flashing only supported on GW1NSR-4C"
  | .timeout => "status register poll timed out"
  | .spiTimeout => "SPI status wait timed out"
  | .eraseFailed memory => memory.name ++ " erase failed"
  | .writeFailed memory => memory.name ++ " write failed"
  | .notReady status =>
    "either GOWIN_VLD or POR should be set (status 0x" ++ Text.hexUpper 8 status.toNat ++ ")"
  | .unsupported what => what ++ " is not supported"
  | .noChipDriver => "no external SPI flash driver available"
  | .transport => "JTAG transport error"
  | .chipDriver => "external SPI flash operation failed"

end FpgaProgrammer
