/-!
# The status register

The device reports its state in a 32-bit register. Nineteen bits have a meaning; the others are
kept as they are read. The hardware changes the register on its own, so it is read again before
each decision.
-/

namespace FpgaProgrammer

/-- The bits of the status register that have a meaning. -/
inductive StatusFlag where
  /-- The bitstream failed its checksum. -/
  | crcError
  /-- An unknown or illegal instruction was met. -/
  | badCommand
  /-- The bitstream is made for another device. -/
  | idVerifyFailed
  /-- The configuration timed out. -/
  | timeout
  /-- Reserved. -/
  | reserved4
  /-- The SRAM erase has finished. -/
  | memoryErase
  /-- A bitstream preamble was met. -/
  | preamble
  /-- The configuration gate is open. -/
  | systemEditMode
  /-- The SPI flash is being programmed directly. -/
  | programSpiFlash
  /-- Reserved. -/
  | reserved9
  /-- A configuration mode other than JTAG is active. -/
  | nonJtagActive
  /-- Bypass mode. -/
  | bypass
  /-- A valid design is loaded. -/
  | gowinValid
  /-- The configuration has been completed. -/
  | doneFinal
  /-- The security bits have been applied. -/
  | securityFinal
  /-- The device is ready. -/
  | ready
  /-- The device has just been powered up. -/
  | powerOnReset
  /-- The embedded flash is locked. -/
  | flashLock
  /-- The second embedded flash is locked. -/
  | flash2Lock
  deriving Repr, DecidableEq

namespace StatusFlag

/-- All flags, lowest bit first. -/
def all : List StatusFlag :=
  [crcError, badCommand, idVerifyFailed, timeout, reserved4, memoryErase, preamble,
    systemEditMode, programSpiFlash, reserved9, nonJtagActive, bypass, gowinValid, doneFinal,
    securityFinal, ready, powerOnReset, flashLock, flash2Lock]

/-- The number of the bit. -/
def index : StatusFlag → Nat
  | crcError => 0
  | badCommand => 1
  | idVerifyFailed => 2
  | timeout => 3
  | reserved4 => 4
  | memoryErase => 5
  | preamble => 6
  | systemEditMode => 7
  | programSpiFlash => 8
  | reserved9 => 9
  | nonJtagActive => 10
  | bypass => 11
  | gowinValid => 12
  | doneFinal => 13
  | securityFinal => 14
  | ready => 15
  | powerOnReset => 16
  | flashLock => 17
  | flash2Lock => 18

/-- The name of the flag as it is shown. -/
def label : StatusFlag → String
  | crcError => "CRC Error"
  | badCommand => "Bad Command"
  | idVerifyFailed => "ID Verify Failed"
  | timeout => "Timeout"
  | reserved4 => "Reserved4"
  | memoryErase => "Memory Erase"
  | preamble => "Preamble"
  | systemEditMode => "System Edit Mode"
  | programSpiFlash => "Program SPI FLASH directly"
  | reserved9 => "Reserved9"
  | nonJtagActive => "Non-JTAG configuration is active"
  | bypass => "Bypass"
  | gowinValid => "Gowin VLD"
  | doneFinal => "Done Final"
  | securityFinal => "Security Final"
  | ready => "Ready"
  | powerOnReset => "POR"
  | flashLock => "FLASH lock"
  | flash2Lock => "FLASH2 lock"

/-- The register value in which only this flag is set. -/
def mask (flag : StatusFlag) : UInt32 :=
  1 <<< flag.index.toUInt32

end StatusFlag

/-- A value of the status register. -/
structure Status where
  /-- All 32 bits. -/
  bits : UInt32
  deriving Repr, DecidableEq

namespace Status

/-- The flag is set. -/
def has (status : Status) (flag : StatusFlag) : Bool :=
  status.bits &&& flag.mask != 0

/-- The set flags, lowest bit first. -/
def flags (status : Status) : List StatusFlag :=
  StatusFlag.all.filter status.has

/-- The value in which exactly the given flags are set. -/
def ofFlags (flags : List StatusFlag) : Status :=
  ⟨flags.foldl (fun bits flag => bits ||| flag.mask) 0⟩

/-- The value with the bits that have no meaning cleared. -/
def known (status : Status) : Status :=
  ofFlags status.flags

end Status

end FpgaProgrammer
