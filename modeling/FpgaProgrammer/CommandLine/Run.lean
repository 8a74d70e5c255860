import FpgaProgrammer.CommandLine.Command
import FpgaProgrammer.CommandLine.Report
import FpgaProgrammer.Session

/-!
# Running commands

What each command does, as a function of the files that can be read and of the messages that are
recorded: it writes to standard output and to the log, and ends well or with a failure.
`CommandLine.execute` is the whole program.
-/

namespace FpgaProgrammer.CommandLine

/-- Why a command failed. -/
inductive Failure where
  /-- A file cannot be read. -/
  | unreadable (path reason : String)
  /-- There is no such programmer, or it refuses an option. -/
  | programmer (fault : Programmer.Fault)
  /-- The device could not be programmed. -/
  | device (error : Error)
  /-- The device does not report the checksum of the image. -/
  | checksum (usercode : UInt32) (expected : UInt16)
  deriving Repr, DecidableEq

/-- A failure in words. -/
def Failure.message : Failure → String
  | .unreadable path reason => "Failed to read " ++ path ++ ": " ++ reason
  | .programmer fault => fault.message
  | .device error => error.message
  | .checksum usercode expected =>
    "CRC check failed: usercode 0x" ++ Text.hexLower 8 usercode.toNat ++
      ", image checksum 0x" ++ Text.hexLower 4 expected.toNat

/-- The program does not report the failure but breaks off. -/
def Failure.breaksOff : Failure → Bool
  | .programmer fault => fault.breaksOff
  | _ => false

/-- What a command runs in. -/
structure Surroundings where
  /-- The content of a file, or why it cannot be read. -/
  readFile : String → Except String Bytes
  /-- Which messages are recorded. -/
  filter : LogFilter

/-- What a command has written. -/
structure Written where
  /-- To standard output. -/
  stdout : String := ""
  /-- To the log. -/
  log : List LogLine := []
  deriving Repr, DecidableEq

/-- A command while it runs. -/
abbrev Run := ReaderT Surroundings (ExceptT Failure (StateM Written))

namespace Run

/-- Writes to standard output. -/
def print (text : String) : Run Unit :=
  modify fun written => { written with stdout := written.stdout ++ text }

/-- Writes to the log what the filter records. -/
def note (lines : List LogLine) : Run Unit := do
  let surroundings ← read
  modify fun written =>
    { written with
      log := written.log ++ lines.filter fun line => surroundings.filter.records line.level }

/-- Reads a file. -/
def loadFile (path : String) : Run Bytes := do
  let surroundings ← read
  match surroundings.readFile path with
  | .error reason => throw (.unreadable path reason)
  | .ok data =>
    note [⟨.info, s!"Loaded {data.length} bytes from " ++ path⟩]
    pure data

/-- Reads an image from a file. A raw image has no header fields. -/
def loadImage (path : String) (raw : Bool) (headers : List (String × String)) : Run Image := do
  let data ← loadFile path
  if raw then
    if !headers.isEmpty then
      note [⟨.warn, "Ignoring --header for a raw image"⟩]
    pure (Image.ofRaw data)
  else
    let bitstream := headers.foldl (fun bitstream (key, value) => bitstream.withHeader key value)
      (Bitstream.ofData data)
    pure bitstream.toImage

/-- Opens the device that is chosen. -/
def connect (choice : String) : Run Simulator := do
  let (lines, result) := Programmer.connect choice
  note lines
  match result with
  | .ok device => pure device
  | .error fault => throw (.programmer fault)

/-- Runs a host program on a device. -/
def onDevice {α : Type} (device : Simulator) (program : Host α) : Run (α × Simulator) := do
  let surroundings ← read
  let outcome := Host.run Simulator.cable surroundings.filter program device
  note (Host.logLines surroundings.filter outcome.exchanges)
  match outcome.result with
  | .ok value => pure (value, outcome.device)
  | .error error => throw (.device error)

/-- Opens a session on the device that is chosen. -/
def openSession (choice : String) (job : Job) : Run (Session × Simulator) := do
  let device ← connect choice
  onDevice device (Session.open? job)

end Run

/-! ## Commands -/

/-- The memory that a choice of flash stands for. -/
def FlashChoice.target (choice : FlashChoice) : Target :=
  if choice.isFlash then .flash else .sram

/-- Reports on the comparison of usercode and checksum. -/
def reportCheck : Device.UsercodeCheck → Run Unit
  | .agrees => Run.print "CRC check: Success\n"
  | .skipped => Run.print "CRC check: skipped\n"
  | .differs usercode checksum => throw (.checksum usercode checksum)

/-- Loads an image into SRAM or writes it to flash. -/
def runProgram (request : ProgramRequest) : Run Unit := do
  let image ← Run.loadImage request.input request.raw request.headers
  let firmware? ← request.firmware?.mapM fun path => Run.loadImage path true []
  let target := request.choice.target
  let (session, device) ← Run.openSession request.programmer {
    target
    externalFlash := request.choice.externalFlash
    verify := request.verify
    unprotect := request.unprotect
    image? := some image
    firmware? }
  if session.usesExternalFlash && !request.choice.externalFlash && target == .flash then
    Run.note [⟨.info, session.profile.family.name ++ " only boots from external flash"⟩]
  let (check, _) ← Run.onDevice device (session.program request.offset)
  reportCheck check

/-- Erases the SRAM or the embedded flash. -/
def runErase (programmer : String) (choice : FlashChoice) : Run Unit := do
  let (session, device) ← Run.openSession programmer
    { target := choice.target, externalFlash := choice.externalFlash }
  let _ ← Run.onDevice device session.erase
  Run.print "Erase complete\n"

/-- Reloads the configuration. -/
def runReset (programmer : String) : Run Unit := do
  let (_, device) ← Run.openSession programmer { target := .sram }
  let _ ← Run.onDevice device Session.reset
  Run.print "Configuration reloaded\n"

/-- Shows what device it is. -/
def runIdcode (programmer : String) : Run Unit := do
  let (session, _) ← Run.openSession programmer { target := .sram }
  Run.print (deviceReport session.idcode session.profile)

/-- Shows the status and the usercode. -/
def runStatus (programmer : String) : Run Unit := do
  let (_, device) ← Run.openSession programmer { target := .sram }
  let ((status, usercode), _) ← Run.onDevice device do
    let status ← Device.readStatus
    let usercode ← Device.readUsercode
    pure (status, usercode)
  Run.print (statusReport status usercode)

/-- Runs a command. -/
def Command.run : Command → Run Unit
  | .program request => runProgram request
  | .erase programmer choice => runErase programmer choice
  | .reset programmer => runReset programmer
  | .idcode programmer => runIdcode programmer
  | .status programmer => runStatus programmer
  | .listProgrammers => Run.print Programmer.longList
  | .listDevices => Run.print deviceTableReport

/-- What came of a command: how it ended, and what it has written. -/
structure Completed where
  /-- How it ended. -/
  result : Except Failure Unit
  /-- What it has written. -/
  written : Written

/-- Runs a command in given surroundings. -/
def Command.complete (command : Command) (surroundings : Surroundings) : Completed :=
  let (result, written) := (command.run.run surroundings).run.run {}
  { result, written }

/-! ## The whole program -/

/-- The messages that are recorded at a verbosity. -/
def filterFor (verbosity : Nat) : LogFilter :=
  if verbosity = 0 then some .info
  else if verbosity = 1 then some .debug
  else some .trace

/-- How the program ends. -/
inductive Ending where
  /-- The command was run. -/
  | ran (completed : Completed)
  /-- The command line was not understood, or asks for help or for the version. -/
  | usage (error : UsageError)

/-- The exit code: 0 after success, 1 after a failure, 2 for a bad command line. A program that
breaks off ends with 101 if it is built to unwind, as it is taken to be here, and else by a
signal. -/
def Ending.exitCode : Ending → UInt32
  | .ran ⟨.ok _, _⟩ => 0
  | .ran ⟨.error failure, _⟩ => if failure.breaksOff then 101 else 1
  | .usage error => if error.isMistake then 2 else 0

/-- The program, as a function of its arguments and of the files that it can read. -/
def execute (readFile : String → Except String Bytes) (arguments : List String) : Ending :=
  match Invocation.ofArguments arguments with
  | .error error => .usage error
  | .ok invocation =>
    .ran (invocation.command.complete ⟨readFile, filterFor invocation.verbosity⟩)

end FpgaProgrammer.CommandLine
