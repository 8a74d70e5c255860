import FpgaProgrammer.Nor.Memory

/-!
# A serial NOR flash

A model of the flash chip behind the SPI pins, one byte at a time. While the chip is selected,
`Flash.driven` is what it drives while the master clocks in the next byte, and `Flash.receive`
takes that byte. Commands that write take effect when the chip is released.

`Flash.transact` runs a whole transaction: it is the meaning of what the pin-level and scan-level
encodings do.
-/

namespace FpgaProgrammer.Nor

/-- The commands of the chip. -/
inductive Command where
  /-- Write the status register. -/
  | writeStatus
  /-- Program a page. -/
  | pageProgram
  /-- Read the array. -/
  | read
  /-- Clear the write-enable latch. -/
  | writeDisable
  /-- Read the status register. -/
  | readStatus
  /-- Set the write-enable latch. -/
  | writeEnable
  /-- Erase 4 KiB. -/
  | eraseSector
  /-- Erase 64 KiB. -/
  | eraseBlock
  /-- Erase everything. -/
  | eraseChip
  /-- Read the manufacturer and the device. -/
  | readId
  deriving Repr, DecidableEq

/-- The command that a byte stands for. Two bytes stand for the chip erase. -/
def Command.ofByte? (byte : UInt8) : Option Command :=
  if byte == 0x01 then some .writeStatus
  else if byte == 0x02 then some .pageProgram
  else if byte == 0x03 then some .read
  else if byte == 0x04 then some .writeDisable
  else if byte == 0x05 then some .readStatus
  else if byte == 0x06 then some .writeEnable
  else if byte == 0x20 then some .eraseSector
  else if byte == 0xD8 then some .eraseBlock
  else if byte == 0x60 || byte == 0xC7 then some .eraseChip
  else if byte == 0x9F then some .readId
  else none

/-- The status bit of a running write. -/
def busyBit : UInt8 := 0x01

/-- The status bit of the write-enable latch. -/
def latchBit : UInt8 := 0x02

/-- The status bits that protect the array. -/
def protectBits : UInt8 := 0x1C

/-- What kind of chip it is. -/
structure Config where
  /-- The JEDEC number of the manufacturer. -/
  manufacturer : UInt8 := 0xEF
  /-- The JEDEC number of the device. -/
  device : UInt16 := 0x4016
  /-- The size in bytes. -/
  size : Nat := 4194304
  /-- The status reads during which a program or erase is reported as running. -/
  busyReads : Nat := 3
  /-- The array is protected at power-up. -/
  isProtected : Bool := false
  deriving Repr, DecidableEq

/-- The chip is small enough for its bytes to be held in one array, which takes less than half of
the address space. Memory itself is taken as sufficient. -/
def Config.fits (config : Config) : Bool :=
  config.size < UInt64.size / 2

/-- The state of a chip. -/
structure Flash where
  /-- The kind of chip. -/
  config : Config
  /-- The array. -/
  memory : Memory
  /-- The write-enable latch. -/
  writeEnabled : Bool
  /-- The protection bits that are set. -/
  protection : UInt8
  /-- The status reads for which a write is still reported as running. -/
  busy : Nat
  /-- The bytes of the current transaction. -/
  received : Array UInt8

namespace Flash

/-- A chip that has just been powered up, all erased. -/
def powerUp (config : Config) : Flash where
  config := config
  memory := .blank config.size
  writeEnabled := false
  protection := if config.isProtected then protectBits else 0
  busy := 0
  received := #[]

/-- A program or erase is still running. -/
def isBusy (flash : Flash) : Bool :=
  flash.busy > 0

/-- The status register. -/
def status (flash : Flash) : UInt8 :=
  flash.protection ||| (if flash.isBusy then busyBit else 0) |||
    (if flash.writeEnabled then latchBit else 0)

/-- The command of the current transaction, if its first byte is one. -/
def command? (flash : Flash) : Option Command :=
  flash.received[0]?.bind Command.ofByte?

/-- The address of the current transaction: the three bytes after the command. -/
def address? (flash : Flash) : Option Nat :=
  match flash.received[1]?, flash.received[2]?, flash.received[3]? with
  | some high, some mid, some low => some (high.toNat * 65536 + mid.toNat * 256 + low.toNat)
  | _, _, _ => none

/-- The array may be changed: the latch is set and nothing is protected. -/
def isWritable (flash : Flash) : Bool :=
  flash.writeEnabled && flash.protection == 0

/-! ## Bytes of a transaction -/

/-- The bytes that identify the chip. -/
def identity (flash : Flash) : List UInt8 :=
  [flash.config.manufacturer, (flash.config.device >>> 8).toUInt8, flash.config.device.toUInt8]

/-- What the chip drives while it takes the next byte. -/
def driven (flash : Flash) : UInt8 :=
  let count := flash.received.size
  match flash.command? with
  | some .readId => flash.identity.getD (count - 1) 0xFF
  | some .readStatus => flash.status
  | some .read =>
    match flash.address? with
    | some address => (flash.memory.byte? (address + (count - 4))).getD 0xFF
    | none => 0xFF
  | _ => 0xFF

/-- The chip is selected. -/
def select (flash : Flash) : Flash :=
  { flash with received := #[] }

/-- The chip takes a byte. Each status byte that is read out brings a running write nearer to its
end. -/
def receive (flash : Flash) (byte : UInt8) : Flash :=
  let flash := { flash with received := flash.received.push byte }
  if flash.command? = some .readStatus && flash.received.size > 1 then
    { flash with busy := flash.busy - 1 }
  else
    flash

/-! ## Effects of a transaction -/

/-- A write was begun: the latch is cleared and the chip is busy. -/
def beginWrite (flash : Flash) : Flash :=
  { flash with writeEnabled := false, busy := flash.config.busyReads }

/-- Sets the protection bits to those of the second byte. -/
def writeStatus (flash : Flash) : Flash :=
  match flash.received[1]? with
  | none => flash
  | some value =>
    if flash.writeEnabled then
      { flash with protection := value &&& protectBits }.beginWrite
    else
      flash

/-- Programs bytes from an offset within a page on. At the end of the page it goes on at its
start. -/
def programPage (memory : Memory) (page : Nat) : (offset : Nat) → List UInt8 → Memory
  | _, [] => memory
  | offset, byte :: rest =>
    programPage (memory.programByte (page * 256 + offset % 256) byte) page (offset + 1) rest

/-- Programs the bytes after the address into the page that holds it. -/
def pageProgram (flash : Flash) : Flash :=
  match flash.address? with
  | none => flash
  | some address =>
    let data := flash.received.toList.drop 4
    if !flash.isWritable || data.isEmpty then flash
    else
      { flash with
        memory := programPage flash.memory (address / 256) (address % 256) data }.beginWrite

/-- Erases the block of the given size that holds the address. -/
def eraseBlock (flash : Flash) (size : Nat) : Flash :=
  match flash.address? with
  | none => flash
  | some address =>
    if !flash.isWritable then flash
    else
      let start := address / size * size
      { flash with memory := flash.memory.eraseRange start (start + size) }.beginWrite

/-- Erases the array. -/
def eraseChip (flash : Flash) : Flash :=
  if !flash.isWritable then flash
  else { flash with memory := flash.memory.eraseAll }.beginWrite

/-- The effect of a command when the chip is released. -/
def execute (flash : Flash) : Command → Flash
  | .writeEnable => { flash with writeEnabled := true }
  | .writeDisable => { flash with writeEnabled := false }
  | .writeStatus => flash.writeStatus
  | .pageProgram => flash.pageProgram
  | .eraseSector => flash.eraseBlock 4096
  | .eraseBlock => flash.eraseBlock 65536
  | .eraseChip => flash.eraseChip
  | .read => flash
  | .readStatus => flash
  | .readId => flash

/-- The chip is released: the command of the transaction takes effect. -/
def release (flash : Flash) : Flash :=
  match flash.command? with
  | none => { flash with received := #[] }
  | some command => { flash.execute command with received := #[] }

/-! ## Transactions -/

/-- Exchanges bytes with the selected chip: what it drove during each, after `driven`, which holds
what it drove before, the latest first. -/
def exchange (flash : Flash) : (bytes : Bytes) → (driven : Bytes) → Bytes × Flash
  | [], driven => (driven.reverse, flash)
  | byte :: bytes, driven =>
    let out := flash.driven
    (flash.receive byte).exchange bytes (out :: driven)

/-- Runs a whole transaction: what the chip drove during each byte, and the chip afterwards. -/
def transact (flash : Flash) (bytes : Bytes) : Bytes × Flash :=
  let (driven, flash) := flash.select.exchange bytes []
  (driven, flash.release)

end Flash

end FpgaProgrammer.Nor
