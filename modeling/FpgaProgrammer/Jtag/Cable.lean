import FpgaProgrammer.Bytes
import FpgaProgrammer.Dialogue
import FpgaProgrammer.Error

/-!
# JTAG cables

What a programmer needs of the adapter between host and device: shifting the instruction and the
data register, moving the TAP controller, free-running the clock, and flushing what the adapter
has queued. Each call is a value of `CableCall`, and `CableCall.Reply` says what comes back. A
`Cable` is anything that answers the calls.

Data goes least significant bit first: bit 0 of the first byte is the first bit shifted in, and
captured bits are stored the same way.
-/

namespace FpgaProgrammer

/-- The states of the TAP controller. -/
inductive TapState where
  | testLogicReset
  | runTestIdle
  | selectDr
  | captureDr
  | shiftDr
  | exit1Dr
  | pauseDr
  | exit2Dr
  | updateDr
  | selectIr
  | captureIr
  | shiftIr
  | exit1Ir
  | pauseIr
  | exit2Ir
  | updateIr
  deriving Repr, DecidableEq

/-- One pass of bits through the data register. -/
structure Scan where
  /-- The bytes shifted in, or zeros if there are none. -/
  tx? : Option Bytes
  /-- How many of the captured bytes the host wants, if any. -/
  rxLength? : Option Nat
  /-- The number of bits shifted. -/
  bits : Nat
  /-- Where the TAP controller is left. `shiftDr` keeps the register open, so that the next scan
  continues this one. -/
  endState : TapState
  deriving Repr, DecidableEq

/-- What the host holds after a scan, given the bytes that the cable captured: as many bytes as it
asked for, zeros where nothing was captured. -/
def Scan.receive (scan : Scan) (captured : Bytes) : Bytes :=
  match scan.rxLength? with
  | none => []
  | some n => Bytes.fit n captured

/-- One thing that the host asks of the cable. -/
inductive CableCall where
  /-- Shift bits of the given bytes into the instruction register and go to Run-Test/Idle. -/
  | shiftIr (data : Bytes) (bits : Nat)
  /-- Shift bits through the data register. -/
  | shiftDr (scan : Scan)
  /-- Move the TAP controller. -/
  | setState (state : TapState)
  /-- Pulse the clock without moving the TAP controller. -/
  | toggleClock (cycles : UInt32)
  /-- Push everything that is queued to the device. -/
  | flush
  /-- The current clock frequency in hertz. -/
  | clockFrequency
  /-- Ask for a clock frequency; the one applied is returned. -/
  | setClockFrequency (hertz : UInt32)
  /-- The idcode of the device on the chain. -/
  | readIdcode
  /-- Let wall-clock time pass. -/
  | sleep (milliseconds : UInt32)
  deriving Repr, DecidableEq

/-- What a call returns. Asking for the frequency and sleeping cannot fail. -/
def CableCall.Reply : CableCall → Type
  | .shiftIr _ _ => Except Error Unit
  | .shiftDr _ => Except Error Bytes
  | .setState _ => Except Error Unit
  | .toggleClock _ => Except Error Unit
  | .flush => Except Error Unit
  | .clockFrequency => UInt32
  | .setClockFrequency _ => Except Error UInt32
  | .readIdcode => Except Error UInt32
  | .sleep _ => Unit

/-- A far end that answers every call. -/
abbrev Cable (σ : Type) : Type :=
  Handler CableCall CableCall.Reply σ

end FpgaProgrammer
