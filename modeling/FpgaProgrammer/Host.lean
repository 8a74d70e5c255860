import FpgaProgrammer.Jtag.Cable
import FpgaProgrammer.Log
import FpgaProgrammer.Progress

/-!
# The host side

A `Host` program is what runs on the host while it drives a device: a dialogue that calls the
cable, writes messages, asks whether messages of a level are recorded, and reports progress, and
that may end with an `Error`. `Host.run` runs it over a cable and keeps everything that was
exchanged.
-/

namespace FpgaProgrammer

/-- What a host program asks of its surroundings. -/
inductive Request where
  /-- Call the cable. -/
  | cable (call : CableCall)
  /-- Are messages of this level recorded? -/
  | records (level : LogLevel)
  /-- Write a message. -/
  | log (level : LogLevel) (text : String)
  /-- Report progress. -/
  | progress (report : Progress)
  /-- Note down what the driver of an external flash chip says about its work. -/
  | remark (text : String)

/-- What comes back. -/
def Request.Answer : Request → Type
  | .cable call => call.Reply
  | .records _ => Bool
  | .log _ _ => Unit
  | .progress _ => Unit
  | .remark _ => Unit

/-- A dialogue of the host with its surroundings. -/
abbrev HostDialogue := Dialogue Request Request.Answer

/-- A host program: a dialogue that ends with a value or with an error. -/
abbrev Host := ExceptT Error HostDialogue

namespace Host

/-! ## Calls -/

/-- Calls the cable and returns its reply, be it a value or a failure. -/
def call (call : CableCall) : HostDialogue call.Reply :=
  Dialogue.put (Request.cable call)

/-- Asks something that cannot fail. -/
def ask (request : Request) : Host request.Answer :=
  ExceptT.lift (Dialogue.put request)

/-- Shifts the low `bits` bits of the bytes into the instruction register. -/
def shiftIr (data : Bytes) (bits : Nat) : Host Unit :=
  ExceptT.mk (call (.shiftIr data bits))

/-- Runs a scan and returns the bytes that the host wants of it. -/
def shiftDr (scan : Scan) : Host Bytes := do
  let captured ← ExceptT.mk (call (.shiftDr scan))
  pure (scan.receive captured)

/-- Moves the TAP controller. -/
def setState (state : TapState) : Host Unit :=
  ExceptT.mk (call (.setState state))

/-- Pulses the clock. -/
def toggleClock (cycles : UInt32) : Host Unit :=
  ExceptT.mk (call (.toggleClock cycles))

/-- Pushes everything that is queued to the device. -/
def flush : Host Unit :=
  ExceptT.mk (call .flush)

/-- The current clock frequency in hertz. -/
def clockFrequency : Host UInt32 :=
  ExceptT.lift (call .clockFrequency)

/-- Asks for a clock frequency and returns the one applied. -/
def setClockFrequency (hertz : UInt32) : Host UInt32 :=
  ExceptT.mk (call (.setClockFrequency hertz))

/-- The idcode of the device on the chain. -/
def readIdcode : Host UInt32 :=
  ExceptT.mk (call .readIdcode)

/-- Lets wall-clock time pass. -/
def sleep (milliseconds : UInt32) : Host Unit :=
  ExceptT.lift (call (.sleep milliseconds))

/-- Are messages of this level recorded? -/
def records (level : LogLevel) : Host Bool :=
  ask (.records level)

/-- Writes a message. -/
def log (level : LogLevel) (text : String) : Host Unit :=
  ask (.log level text)

/-- Reports progress. -/
def progress (report : Progress) : Host Unit :=
  ask (.progress report)

/-- Runs `body` as a stage: its report starts before and is finished afterwards, whether `body`
succeeds or fails. -/
def reporting (stage : Stage) (total : Nat) (body : Host Unit) : Host Unit := do
  progress (.start stage total)
  try
    body
  catch error =>
    progress (.finish false)
    throw error
  progress (.finish true)

/-! ## Running -/

/-- The surroundings made of a cable and a log filter. -/
def surroundings {σ : Type} (cable : Cable σ) (filter : LogFilter) :
    Handler Request Request.Answer σ
  | .cable call, state => cable call state
  | .records level, state => (filter.records level, state)
  | .log _ _, state => ((), state)
  | .progress _, state => ((), state)
  | .remark _, state => ((), state)

/-- Everything that came of a run. -/
structure Outcome (σ α : Type) where
  /-- How the program ended. -/
  result : Except Error α
  /-- The far end of the cable afterwards. -/
  device : σ
  /-- All exchanges, in order. -/
  exchanges : List (Exchange Request Request.Answer)

/-- Runs a program over a cable. -/
def run {σ α : Type} (cable : Cable σ) (filter : LogFilter) (program : Host α) (device : σ) :
    Outcome σ α :=
  let (result, device, exchanges) :=
    Dialogue.run (surroundings cable filter).recording (ExceptT.run program) (device, [])
  { result, device, exchanges := exchanges.reverse }

/-- The messages among the exchanges that a filter records. -/
def logLines (filter : LogFilter) (exchanges : List (Exchange Request Request.Answer)) :
    List LogLine :=
  exchanges.filterMap fun exchange =>
    match exchange.1 with
    | .log level text => if filter.records level then some ⟨level, text⟩ else none
    | _ => none

end Host

end FpgaProgrammer
