import FpgaProgrammer.Device.Command
import FpgaProgrammer.Spi.Pins

/-!
# SPI over JTAG

The external SPI flash of a device is reached through its JTAG chain in one of two ways. Most
families show the flash pins in the boundary-scan register, and the host toggles them one clock
edge at a time. GW2A devices connect the data register to the flash instead, so that a whole
transaction is one scan whose response trails the request by one bit.

`SpiEncoding.transfer` runs one transaction, `SpiEncoding.command` one that starts with a command
byte, and `SpiEncoding.await` polls until a status byte has an expected value. Every call is a
complete transaction of its own.
-/

namespace FpgaProgrammer

/-- How the SPI flash of a family is reached. -/
inductive SpiEncoding where
  /-- By toggling the flash pins in the boundary-scan register. -/
  | bitBang (pins : SpiPins)
  /-- By scans that go straight to the flash. -/
  | shiftRegister
  deriving Repr, DecidableEq

/-- What a transaction brings back. A failure does not take away what had been received before
it. -/
structure Receipt where
  /-- The bytes received, first byte first. -/
  received : Bytes
  /-- How the transaction ended. -/
  ending : Except Error Unit

namespace Receipt

/-- The receipt of a transaction that receives all its bytes at once, or none. -/
def ofExcept : Except Error Bytes → Receipt
  | .ok received => ⟨received, .ok ()⟩
  | .error error => ⟨[], .error error⟩

/-- The bytes received, if the transaction succeeded. -/
def toExcept (receipt : Receipt) : Except Error Bytes :=
  receipt.ending.map fun _ => receipt.received

/-- A result is not changed by being taken apart into a receipt and put together again. -/
@[simp]
theorem toExcept_ofExcept (received : Except Error Bytes) :
    (ofExcept received).toExcept = received := by
  cases received <;> rfl

end Receipt

namespace SpiEncoding

/-- The device connects its data register to the flash. -/
def isPassthrough : SpiEncoding → Bool
  | bitBang _ => false
  | shiftRegister => true

/-- The bytes that go out: those given, or as many zeros as bytes are wanted back. -/
def outgoing (tx? : Option Bytes) (rxLength? : Option Nat) : Bytes :=
  tx?.getD (List.replicate (rxLength?.getD 0) 0)

/-! ## Toggling pins -/

namespace BitBang

/-- The clocks the pins take to settle. -/
def settlingClocks : UInt32 := 6

/-- Writes a vector to the pins. -/
def write (vector : UInt8) : Host Unit := do
  let _ ← Host.shiftDr ⟨some [vector], none, 8, .runTestIdle⟩
  Host.toggleClock settlingClocks

/-- Writes a vector to the pins and returns the vector captured from them. -/
def exchange (vector : UInt8) : Host UInt8 := do
  let captured ← Host.shiftDr ⟨some [vector], some 1, 8, .runTestIdle⟩
  Host.toggleClock settlingClocks
  pure (captured.headD 0)

/-- Clocks one bit out and returns the bit sampled at the rising edge. -/
def clockBit (pins : SpiPins) (bit : Bool) : Host Bool := do
  write (pins.low bit)
  let captured ← exchange (pins.high bit)
  Host.flush
  pure (pins.sample captured)

/-- Clocks bits out, one after the other, and returns the sampled ones. -/
def clockBits (pins : SpiPins) : List Bool → Host (List Bool)
  | [] => pure []
  | bit :: rest => do
    let sampled ← clockBit pins bit
    let others ← clockBits pins rest
    pure (sampled :: others)

/-- Clocks a byte out, most significant bit first, and returns the byte sampled. -/
def clockByte (pins : SpiPins) (byte : UInt8) : Host UInt8 := do
  let sampled ← clockBits pins (Bytes.bitsOf byte)
  pure (Bytes.ofBits sampled)

/-- Clocks bytes out and receives the sampled ones, which are added to `received`, the latest
first. A byte that fails on the way is not received, and none is clocked after it. -/
def clockBytes (pins : SpiPins) : Bytes → (received : Bytes) → HostDialogue Receipt
  | [], received => pure ⟨received.reverse, .ok ()⟩
  | byte :: rest, received => do
    match ← ExceptT.run (clockByte pins byte) with
    | .ok sampled => clockBytes pins rest (sampled :: received)
    | .error error => pure ⟨received.reverse, .error error⟩

/-- Selects the chip. -/
def select (pins : SpiPins) : Host Unit := do
  write pins.idle
  Host.flush

/-- Releases the chip. -/
def release (pins : SpiPins) : Host Unit := do
  write pins.released
  Host.flush

/-- Runs one transaction and receives the bytes sampled during it. A failure leaves the chip
selected. -/
def transact (pins : SpiPins) (bytes : Bytes) : HostDialogue Receipt := do
  match ← ExceptT.run (select pins) with
  | .error error => pure ⟨[], .error error⟩
  | .ok _ =>
    let receipt ← clockBytes pins bytes []
    match receipt.ending with
    | .error _ => pure receipt
    | .ok _ =>
      let released ← ExceptT.run (release pins)
      pure { receipt with ending := released }

end BitBang

/-! ## Scans that go to the flash -/

namespace ShiftRegister

/-- Undoes the delay by one bit: each byte of the response has its upper seven bits in one captured
byte and its lowest bit in the next. -/
def decode (captured : Bytes) : Bytes :=
  List.zipWith (fun (byte next : UInt8) => Bytes.reverseBits (byte >>> 1) ||| (next &&& 1))
    captured captured.tail

/-- Connects the data register to the flash. -/
def connect : Host Unit := do
  Device.send .spiPassthrough
  Host.setState .exit2Dr

/-- Runs one transaction and returns the response to all bytes, if one is wanted. One byte more is
then shifted to catch the last bit. -/
def transact (bytes : Bytes) (wanted : Bool) : Host Bytes := do
  let tx := bytes.map Bytes.reverseBits
  connect
  if wanted then
    let length := bytes.length + 1
    let captured ←
      Host.shiftDr ⟨some (Bytes.fit length tx), some length, 8 * length, .runTestIdle⟩
    pure (decode captured)
  else
    Host.shiftDr ⟨some tx, none, 8 * bytes.length, .runTestIdle⟩

/-- Sends a command and returns the byte that answers it. -/
def sample (command : UInt8) : Host UInt8 := do
  connect
  let captured ← Host.shiftDr ⟨some [Bytes.reverseBits command, 0, 0], some 3, 24, .runTestIdle⟩
  pure ((decode captured).getD 1 0)

end ShiftRegister

/-! ## Transactions -/

/-- Runs one transaction. It sends `tx?`, or zeros if there is nothing to send, and receives no
more bytes than `rxLength?` asks for. -/
def transfer (encoding : SpiEncoding) (tx? : Option Bytes) (rxLength? : Option Nat) :
    HostDialogue Receipt := do
  let bytes := outgoing tx? rxLength?
  let receipt ←
    match encoding with
    | bitBang pins => BitBang.transact pins bytes
    | shiftRegister =>
      Receipt.ofExcept <$> ExceptT.run (ShiftRegister.transact bytes rxLength?.isSome)
  pure { receipt with received := receipt.received.take (rxLength?.getD 0) }

/-- Runs one transaction that starts with a command byte, and returns the bytes that came back
after it. A failed command brings nothing back. -/
def command (encoding : SpiEncoding) (code : UInt8) (tx? : Option Bytes)
    (rxLength? : Option Nat) : Host Bytes := do
  let bytes := code :: outgoing tx? rxLength?
  let received ← ExceptT.mk
    (Receipt.toExcept <$> encoding.transfer (some bytes) (rxLength?.map fun _ => bytes.length))
  pure ((received.drop 1).take (rxLength?.getD 0))

/-! ## Polling -/

/-- What a poll looks for. -/
structure Poll where
  /-- The command that asks for the status byte. -/
  command : UInt8
  /-- The bits of the status byte that count. -/
  mask : UInt8
  /-- The value awaited in them. -/
  expected : UInt8
  /-- The number of samples after which to give up. At least one is always taken. -/
  timeout : UInt32
  /-- Every sample is to be logged. -/
  verbose : Bool
  deriving Repr, DecidableEq

/-- The numbers that a poll logs with a sample. -/
def Poll.describe (poll : Poll) (value : UInt8) : String :=
  "0x" ++ Text.hexLower 2 value.toNat ++ " 0x" ++ Text.hexLower 2 poll.mask.toNat ++ " 0x" ++
    Text.hexLower 2 poll.expected.toNat

/-- Takes samples until one has the awaited value. `taken` samples were taken before, and `left`
more may be taken after the next one. -/
def Poll.watch (poll : Poll) (sample : Host UInt8) : (left taken : Nat) → Host Unit
  | left, taken => do
    let value ← sample
    if poll.verbose then
      Host.log .debug ("SPI wait: " ++ poll.describe value ++ s!" ({taken + 1})")
    if value &&& poll.mask == poll.expected then
      pure ()
    else
      match left with
      | 0 =>
        Host.log .error ("SPI wait timeout: " ++ poll.describe value)
        throw .spiTimeout
      | left + 1 => poll.watch sample left (taken + 1)

/-- Polls the flash until the status byte has the awaited value. When pins are toggled, the
command is sent once, status bytes follow, and the chip is released at the end whatever happened;
a failure of the poll is then reported before one of the release. -/
def await (encoding : SpiEncoding) (poll : Poll) : Host Unit :=
  let left := poll.timeout.toNat - 1
  match encoding with
  | bitBang pins => do
    BitBang.select pins
    let polled ← ExceptT.lift (ExceptT.run (do
      let _ ← BitBang.clockByte pins poll.command
      poll.watch (BitBang.clockByte pins 0) left 0))
    let released ← ExceptT.lift (ExceptT.run (BitBang.release pins))
    ExceptT.mk (pure (polled >>= fun _ => released))
  | shiftRegister => poll.watch (ShiftRegister.sample poll.command) left 0

end SpiEncoding

end FpgaProgrammer
