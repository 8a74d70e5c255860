/-!
# SPI pins in the boundary-scan register

Most families show the pins of the SPI flash as bits of an eight-bit boundary-scan vector.
`SpiPins` says which bit is which pin, and the vectors that the host writes are built here.
-/

namespace FpgaProgrammer

/-- The bits of the boundary-scan vector that are SPI pins. -/
structure SpiPins where
  /-- The clock. -/
  clock : UInt8
  /-- Chip select, active low. -/
  select : UInt8
  /-- Data to the flash. -/
  dataIn : UInt8
  /-- Data from the flash. -/
  dataOut : UInt8
  /-- The output enables. -/
  enable : UInt8
  deriving Repr, DecidableEq

namespace SpiPins

/-- The layout of every family but GW1NSR-4C. -/
def standard : SpiPins where
  clock := 0x02
  select := 0x08
  dataIn := 0x20
  dataOut := 0x80
  enable := 0x40

/-- The layout of GW1NSR-4C. -/
def gw1nsr4c : SpiPins where
  clock := 0x80
  select := 0x20
  dataIn := 0x08
  dataOut := 0x02
  enable := 0x01

/-- Outputs enabled, chip selected, clock low, data low. -/
def idle (pins : SpiPins) : UInt8 :=
  pins.enable ||| pins.dataOut

/-- Clock low while `bit` is on the data pin. -/
def low (pins : SpiPins) (bit : Bool) : UInt8 :=
  if bit then pins.idle ||| pins.dataIn else pins.idle

/-- Clock high while `bit` is on the data pin. -/
def high (pins : SpiPins) (bit : Bool) : UInt8 :=
  pins.low bit ||| pins.clock

/-- Clock low, chip no longer selected. -/
def released (pins : SpiPins) : UInt8 :=
  (pins.idle &&& ~~~pins.clock) ||| pins.select

/-- The bit that the flash drives in a captured vector. -/
def sample (pins : SpiPins) (captured : UInt8) : Bool :=
  captured &&& pins.dataOut != 0

end SpiPins

end FpgaProgrammer
