import FpgaProgrammer.Spi.Encoding

/-!
# Drivers for external flash chips

The programmer moves bytes to and from an external SPI flash; which commands the chip takes is the
business of a `ChipDriver`. A driver is a program over its own small set of requests. It sees
neither the cable nor the device in between: `SpiRequest.serve` turns its requests into what the
host does.
-/

namespace FpgaProgrammer

/-- What a chip driver asks for. Each call is a complete SPI transaction. -/
inductive SpiRequest where
  /-- Send a command byte and then bytes, or zeros if there are none. -/
  | command (code : UInt8) (tx? : Option Bytes) (rxLength? : Option Nat)
  /-- Send bytes, or zeros if there are none. -/
  | transfer (tx? : Option Bytes) (rxLength? : Option Nat)
  /-- Poll a status byte. -/
  | await (poll : SpiEncoding.Poll)
  /-- Say something about the work. -/
  | remark (text : String)

/-- What a chip driver gets back. -/
def SpiRequest.Answer : SpiRequest → Type
  | .command _ _ _ => Except Error Bytes
  | .transfer _ _ => Receipt
  | .await _ => Except Error Unit
  | .remark _ => Unit

/-- A program of a chip driver. -/
abbrev Spi := ExceptT Error (Dialogue SpiRequest SpiRequest.Answer)

/-- How an external flash is to be written. -/
structure WriteOptions where
  /-- Read the data back afterwards. -/
  verify : Bool
  /-- Lift the write protection first. -/
  unprotect : Bool
  deriving Repr, DecidableEq

/-- A driver erases what is needed and programs the data at the offset. -/
abbrev ChipDriver := (offset : UInt32) → (data : Bytes) → WriteOptions → Spi Unit

namespace Spi

/-- Puts one request. -/
def put (request : SpiRequest) : Dialogue SpiRequest SpiRequest.Answer request.Answer :=
  Dialogue.put request

/-- Runs a transaction that starts with a command byte and returns what came back after it. -/
def command (code : UInt8) (tx? : Option Bytes) (rxLength? : Option Nat) : Spi Bytes :=
  ExceptT.mk (put (.command code tx? rxLength?))

/-- Runs a transaction and returns what came back, also if it fails. -/
def attempt (tx? : Option Bytes) (rxLength? : Option Nat) : Spi Receipt :=
  ExceptT.lift (put (.transfer tx? rxLength?))

/-- Runs a transaction and returns what came back. -/
def transfer (tx? : Option Bytes) (rxLength? : Option Nat) : Spi Bytes := do
  let receipt ← attempt tx? rxLength?
  ExceptT.mk (pure receipt.toExcept)

/-- Polls a status byte. -/
def await (poll : SpiEncoding.Poll) : Spi Unit :=
  ExceptT.mk (put (.await poll))

/-- Says something about the work. -/
def remark (text : String) : Spi Unit :=
  ExceptT.lift (put (.remark text))

end Spi

/-- What the host does for a request of a chip driver. -/
def SpiRequest.serve (encoding : SpiEncoding) :
    (request : SpiRequest) → HostDialogue request.Answer
  | .command code tx? rxLength? => ExceptT.run (encoding.command code tx? rxLength?)
  | .transfer tx? rxLength? => encoding.transfer tx? rxLength?
  | .await poll => ExceptT.run (encoding.await poll)
  | .remark text => Dialogue.put (Request.remark text)

/-- Runs a chip driver's program on the host. -/
def Spi.onHost {α : Type} (encoding : SpiEncoding) (program : Spi α) : Host α :=
  ExceptT.mk (Dialogue.substitute (SpiRequest.serve encoding) (ExceptT.run program))

end FpgaProgrammer
