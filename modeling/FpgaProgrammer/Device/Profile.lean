import FpgaProgrammer.Spi.Encoding

/-!
# Device families

Everything in which the families differ is said once, in a `Profile` that is looked up by the
idcode. The programming sequences look at the profile only, never at the idcode.
-/

namespace FpgaProgrammer

/-- The families that are known by their idcodes. -/
inductive Family where
  | gw1n1
  | gw1n4
  | gw1nz1
  | gw1nsr4c
  | gw2a18
  | gw2a55
  | gw5ast138
  | gw5at138
  | gw5a25
  /-- Any device that is not in the table. -/
  | unknown
  deriving Repr, DecidableEq

/-- The name under which a family is sold. -/
def Family.name : Family → String
  | .gw1n1 => "GW1N-1"
  | .gw1n4 => "GW1N-4"
  | .gw1nz1 => "GW1NZ-1"
  | .gw1nsr4c => "GW1NSR-4C"
  | .gw2a18 => "GW2A-18"
  | .gw2a55 => "GW2A-55"
  | .gw5ast138 => "GW5AST-138"
  | .gw5at138 => "GW5AT-138"
  | .gw5a25 => "GW5A-25"
  | .unknown => "unknown"

/-- How the devices of a family behave. The default values are those of an unknown device. -/
structure Profile where
  /-- The family. -/
  family : Family := .unknown
  /-- Pulses that one attempt to erase the embedded flash takes. -/
  erasePulses : Nat := 1
  /-- The embedded flash needs long delays after each word and page. -/
  slowFlash : Bool := false
  /-- Flash programming always goes to the external flash. -/
  externalFlashOnly : Bool := false
  /-- The usercode register does not report the checksum of the loaded image. -/
  withoutChecksum : Bool := false
  /-- How the external SPI flash is reached. -/
  spi : SpiEncoding := .bitBang .standard
  /-- The device has to be reloaded and left idle before SRAM is loaded, or it may keep reporting
  a bad command. -/
  reloadBeforeLoad : Bool := false
  /-- Flash programming is not offered for this family. -/
  withoutFlashWrite : Bool := false
  /-- Firmware for an embedded processor can be written after the bitstream. -/
  hasProcessor : Bool := false
  deriving Repr, DecidableEq

namespace Profile

/-- The profile of a GW2A device. -/
def gw2a (family : Family) : Profile where
  family := family
  externalFlashOnly := true
  withoutChecksum := true
  spi := .shiftRegister

/-- The profile of a GW5A device. -/
def gw5a (family : Family) : Profile where
  family := family
  externalFlashOnly := true
  withoutChecksum := true
  reloadBeforeLoad := true
  withoutFlashWrite := true

/-- The known idcodes and their profiles. -/
def table : List (UInt32 × Profile) :=
  [(0x0900281B, { family := .gw1n1, erasePulses := 65, slowFlash := true }),
    (0x0100381B, { family := .gw1n4 }),
    (0x0100681B, { family := .gw1nz1 }),
    (0x0100981B, { family := .gw1nsr4c, spi := .bitBang .gw1nsr4c, hasProcessor := true }),
    (0x0000081B, gw2a .gw2a18),
    (0x0000281B, gw2a .gw2a55),
    (0x0001081B, gw5a .gw5ast138),
    (0x0001181B, gw5a .gw5at138),
    (0x0001281B, gw5a .gw5a25)]

/-- The profile of the device with the given idcode. -/
def ofIdcode (idcode : UInt32) : Profile :=
  (table.lookup idcode).getD {}

end Profile

end FpgaProgrammer
