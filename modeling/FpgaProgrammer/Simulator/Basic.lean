import FpgaProgrammer.Device.EmbeddedFlash
import FpgaProgrammer.Nor.Flash

/-!
# A simulated device

The state of a simulated FPGA: its status, its configuration SRAM, its embedded flash, and the SPI
flash at its pins. `FpgaProgrammer.Simulator.Step` says how it answers a cable.
-/

namespace FpgaProgrammer

/-- What kind of device is simulated. -/
structure SimulatorConfig where
  /-- The idcode, which also selects the family. -/
  idcode : UInt32 := 0x0900281B
  /-- A fixed usercode. Without one, the checksum of the last SRAM load is reported. -/
  usercode? : Option UInt32 := none
  /-- The device has just been powered up. -/
  powerOn : Bool := true
  /-- Status reads between the start of an SRAM erase and the one that reports its end. -/
  eraseLatency : Nat := 2
  /-- The device never enters edit mode. -/
  stuckEditMode : Bool := false
  /-- Attempts to erase the embedded flash that fail before one takes. -/
  stubbornErases : Nat := 0
  /-- The SPI flash. -/
  flash : Nor.Config := {}
  deriving Repr, DecidableEq

/-- A page of the embedded flash that is being received. -/
structure PageWrite where
  /-- The word address, once it has been received. -/
  address? : Option UInt32
  /-- The bytes received. -/
  data : Bytes
  deriving Repr, DecidableEq

/-- The SPI pins as the flash last saw them. -/
structure SpiBus where
  /-- The chip is selected. -/
  selected : Bool
  /-- The clock is high. -/
  clock : Bool
  /-- The bit that the flash drives. -/
  miso : Bool
  /-- The bits received of the current byte. -/
  bits : List Bool
  /-- The byte that the flash drives during the current byte. -/
  driven : UInt8
  deriving Repr, DecidableEq

/-- A simulated device. All that it counts is counted in numbers without a bound. -/
structure Simulator where
  /-- The kind of device. -/
  config : SimulatorConfig
  /-- The clock frequency in hertz. -/
  frequency : UInt32
  /-- The instruction register. -/
  ir : UInt8
  /-- The state of the TAP controller. -/
  tap : TapState
  /-- All instructions received. -/
  history : Array UInt8
  /-- Clock pulses received outside of scans. -/
  clocks : Nat
  /-- Milliseconds that the host has let pass. -/
  slept : Nat
  /-- The configuration gate is open. -/
  editMode : Bool
  /-- Status reads left until a running SRAM erase is reported as finished. -/
  eraseCountdown? : Option Nat
  /-- The SRAM erase is reported as finished. -/
  memoryErased : Bool
  /-- The configuration is reported as completed. -/
  doneFinal : Bool
  /-- A valid design is reported. -/
  gowinValid : Bool
  /-- The device has just been powered up. -/
  powerOnReset : Bool
  /-- The usercode register. -/
  usercode : UInt32
  /-- The bits loaded into SRAM, as bytes. -/
  sram : Bytes
  /-- Size and end state of every scan that loaded SRAM. -/
  chunks : Array (Nat × TapState)
  /-- The checksum word received after an SRAM load. -/
  checksum? : Option UInt32
  /-- The SRAM has been loaded with the right checksum and starts when the gate closes. -/
  sramValid : Bool
  /-- The pages of the embedded flash by word address. -/
  pages : Std.ExtTreeMap UInt32 Bytes
  /-- An attempt to erase the embedded flash is under way. -/
  eraseArmed : Bool
  /-- Erase pulses seen in the current attempt. The count is taken as unbounded; the counter of 32
  bits that it stands for overflows after 2 ^ 32 pulses. -/
  pulses : Nat
  /-- Erase pulses seen in each attempt so far. Their number, which decides whether an attempt
  takes, is not cut to 32 bits either. -/
  eraseLog : Array Nat
  /-- The page being received. -/
  pageWrite? : Option PageWrite
  /-- The SPI flash. -/
  flash : Nor.Flash
  /-- The SPI pins. -/
  bus : SpiBus

namespace Simulator

/-- A device that has just been built in, with empty memories. -/
def powerUp (config : SimulatorConfig) : Simulator where
  config := config
  frequency := 6000000
  ir := 0
  tap := .testLogicReset
  history := #[]
  clocks := 0
  slept := 0
  editMode := false
  eraseCountdown? := none
  memoryErased := false
  doneFinal := false
  gowinValid := false
  powerOnReset := config.powerOn
  usercode := config.usercode?.getD 0
  sram := []
  chunks := #[]
  checksum? := none
  sramValid := false
  pages := ∅
  eraseArmed := false
  pulses := 0
  eraseLog := #[]
  pageWrite? := none
  flash := .powerUp config.flash
  bus := { selected := false, clock := false, miso := false, bits := [], driven := 0 }

variable (sim : Simulator)

/-- How the simulated family behaves. -/
def profile : Profile :=
  .ofIdcode sim.config.idcode

/-- The bits of the boundary-scan vector that are SPI pins. -/
def pins : SpiPins :=
  match sim.profile.spi with
  | .bitBang pins => pins
  | .shiftRegister => .standard

/-- The flags that are set in the status register. -/
def statusFlags : List StatusFlag :=
  [(StatusFlag.systemEditMode, sim.editMode), (.memoryErase, sim.memoryErased),
    (.doneFinal, sim.doneFinal), (.gowinValid, sim.gowinValid),
    (.powerOnReset, sim.powerOnReset)].filterMap fun (flag, isSet) =>
      if isSet then some flag else none

/-- The status register. Looking at it changes nothing. -/
def status : Status :=
  .ofFlags sim.statusFlags

/-- Page 0 of the embedded flash starts with the boot signature. -/
def isSigned : Bool :=
  match sim.pages[(0 : UInt32)]? with
  | none => false
  | some page => Device.EmbeddedFlash.autobootSignature.isPrefixOf page

/-- There is a design to boot from: a signed page, or an SPI flash whose first byte is not
erased. -/
def hasBootSource : Bool :=
  sim.isSigned || (sim.flash.memory.byte? 0).any (· != Nor.erasedByte)

/-- Boots from flash, if there is a design. -/
def reload : Simulator :=
  { sim with doneFinal := sim.hasBootSource, gowinValid := sim.hasBootSource }

/-- Puts a page into the embedded flash and boots. -/
def preload (address : UInt32) (page : Bytes) : Simulator :=
  { sim with pages := sim.pages.insert address page }.reload

end Simulator

end FpgaProgrammer
