import FpgaProgrammer.CommandLine.Grammar
import FpgaProgrammer.Text.Hex

/-!
# Commands

The commands of the program and their options, and how a command line is read as one of them. The
verbosity may be given before or after the name of the command; if it is given after it, what was
given before does not count.
-/

namespace FpgaProgrammer.CommandLine

/-- Which flash is meant, if any. -/
structure FlashChoice where
  /-- Flash rather than SRAM. -/
  flash : Bool
  /-- The external flash. -/
  externalFlash : Bool
  deriving Repr, DecidableEq

/-- A flash is meant at all. -/
def FlashChoice.isFlash (choice : FlashChoice) : Bool :=
  choice.flash || choice.externalFlash

/-- What the command `program` is asked to do. -/
structure ProgramRequest where
  /-- The choice of programmer. -/
  programmer : String
  /-- The file with the payload. -/
  input : String
  /-- Where it goes. -/
  choice : FlashChoice
  /-- The byte offset in an external flash. -/
  offset : UInt32
  /-- The file with firmware. -/
  firmware? : Option String
  /-- Read an external flash back. -/
  verify : Bool
  /-- Lift the write protection of an external flash. -/
  unprotect : Bool
  /-- The payload is a blob without a header. -/
  raw : Bool
  /-- The header fields of the payload. -/
  headers : List (String × String)
  deriving Repr, DecidableEq

/-- A command. -/
inductive Command where
  /-- Load an image into SRAM or write it to flash. -/
  | program (request : ProgramRequest)
  /-- Erase the SRAM or the embedded flash. -/
  | erase (programmer : String) (choice : FlashChoice)
  /-- Reload the configuration. -/
  | reset (programmer : String)
  /-- Show what device it is. -/
  | idcode (programmer : String)
  /-- Show the status and the usercode. -/
  | status (programmer : String)
  /-- List the programmers. -/
  | listProgrammers
  /-- List the known devices. -/
  | listDevices
  deriving Repr, DecidableEq

/-- A command line that was understood. -/
structure Invocation where
  /-- How often verbosity was asked for. -/
  verbosity : Nat
  /-- The command. -/
  command : Command
  deriving Repr, DecidableEq

/-- The files that a command reads. -/
def Command.files : Command → List String
  | .program request => request.input :: request.firmware?.toList
  | _ => []

/-! ## Options -/

/-- What an option stands for. -/
inductive Setting where
  | verbose
  | programmer (choice : String)
  | input (path : String)
  | flash
  | externalFlash
  | offset (value : UInt32)
  | firmware (path : String)
  | verify
  | unprotect
  | raw
  | header (key value : String)
  deriving Repr, DecidableEq

/-- Reads a word in hexadecimal after `0x` or `0X`, and in decimal otherwise. -/
def readWord (text : String) : Except String UInt32 :=
  match Text.hexMarker? text.toList with
  | some digits =>
    match Text.readNumeral 16 UInt32.size digits with
    | .ok value => .ok value.toUInt32
    | .error fault => .error ("Invalid hex value: " ++ fault.message)
  | none =>
    match Text.readNumeral 10 UInt32.size text.toList with
    | .ok value => .ok value.toUInt32
    | .error fault => .error ("Invalid number: " ++ fault.message)

/-- Reads a header field `key=value`. The key may not be empty. -/
def readHeader (text : String) : Except String (String × String) :=
  match Text.keyValue? text.toList with
  | some (key, value) =>
    if key.isEmpty then .error ("Expected key=value, got '" ++ text ++ "'") else .ok (key, value)
  | none => .error ("Expected key=value, got '" ++ text ++ "'")

/-- A value that is a path. It may not be empty. -/
def readPath (text : String) : Except ValueFault String :=
  if text.isEmpty then .error .blank else .ok text

/-- The options that every command has. -/
def commonSwitches : List (Switch Setting) :=
  [⟨"verbose", some 'v', .counted .verbose⟩, ⟨"help", some 'h', .help⟩]

/-- The options that choose a flash. -/
def flashSwitches : List (Switch Setting) :=
  [⟨"flash", some 'f', .once .flash⟩, ⟨"external-flash", none, .once .externalFlash⟩]

/-- The option that chooses the programmer. -/
def programmerOption : Valued Setting :=
  ⟨"programmer", some 'p', false, fun text => .ok (.programmer text)⟩

/-- The options before the name of the command. -/
def rootTable : OptionTable Setting where
  switches := commonSwitches ++ [⟨"version", some 'V', .version⟩]
  valued := []

/-- The options of the command `program`. -/
def programTable : OptionTable Setting where
  switches := commonSwitches ++ flashSwitches ++
    [⟨"verify", none, .once .verify⟩, ⟨"unprotect-flash", none, .once .unprotect⟩,
      ⟨"raw", none, .once .raw⟩]
  valued :=
    [programmerOption,
      ⟨"input", some 'i', false, fun text => (readPath text).map .input⟩,
      ⟨"offset", none, false, fun text => ((readWord text).map .offset).mapError .refused⟩,
      ⟨"mcufw", none, false, fun text => (readPath text).map .firmware⟩,
      ⟨"header", none, true, fun text =>
        ((readHeader text).map fun (key, value) => .header key value).mapError .refused⟩]

/-- The options of the command `erase`. -/
def eraseTable : OptionTable Setting where
  switches := commonSwitches ++ flashSwitches
  valued := [programmerOption]

/-- The options of the commands that ask the device something or reset it. -/
def deviceTable : OptionTable Setting where
  switches := commonSwitches
  valued := [programmerOption]

/-- The options of the commands that need no device. -/
def listTable : OptionTable Setting where
  switches := commonSwitches
  valued := []

/-! ## Settings -/

/-- The choice of programmer among the settings. -/
def programmer? (settings : List Setting) : Option String :=
  settings.findSome? fun
    | .programmer choice => some choice
    | _ => none

/-- The input file among the settings. -/
def input? (settings : List Setting) : Option String :=
  settings.findSome? fun
    | .input path => some path
    | _ => none

/-- The offset among the settings. -/
def offset? (settings : List Setting) : Option UInt32 :=
  settings.findSome? fun
    | .offset value => some value
    | _ => none

/-- The firmware file among the settings. -/
def firmware? (settings : List Setting) : Option String :=
  settings.findSome? fun
    | .firmware path => some path
    | _ => none

/-- The header fields among the settings. -/
def headers (settings : List Setting) : List (String × String) :=
  settings.filterMap fun
    | .header key value => some (key, value)
    | _ => none

/-- The choice of a flash among the settings. -/
def flashChoice (settings : List Setting) : FlashChoice where
  flash := settings.contains .flash
  externalFlash := settings.contains .externalFlash

/-- How often verbosity is asked for among the settings. It is counted up to 255. -/
def verbosityOf (settings : List Setting) : Nat :=
  min (settings.count .verbose) 255

/-- The programmer that a command cannot do without. -/
def requireProgrammer (settings : List Setting) : Except UsageError String :=
  match programmer? settings with
  | some choice => .ok choice
  | none => .error .missingOption

/-- The request that settings of the command `program` make. -/
def programRequest (settings : List Setting) : Except UsageError ProgramRequest :=
  match programmer? settings, input? settings with
  | some programmer, some input =>
    .ok {
      programmer, input
      choice := flashChoice settings
      offset := (offset? settings).getD 0
      firmware? := firmware? settings
      verify := settings.contains .verify
      unprotect := settings.contains .unprotect
      raw := settings.contains .raw
      headers := headers settings }
  | _, _ => .error .missingOption

/-! ## Reading -/

/-- A command by its name: its options, and the command that settings of them make. -/
structure CommandForm where
  /-- The name. -/
  name : String
  /-- The options. -/
  table : OptionTable Setting
  /-- The command that settings make. -/
  build : List Setting → Except UsageError Command

/-- All commands. -/
def commandForms : List CommandForm :=
  [⟨"program", programTable, fun settings => (programRequest settings).map .program⟩,
    ⟨"erase", eraseTable, fun settings =>
      (requireProgrammer settings).map fun programmer =>
        .erase programmer (flashChoice settings)⟩,
    ⟨"reset", deviceTable, fun settings => (requireProgrammer settings).map .reset⟩,
    ⟨"idcode", deviceTable, fun settings => (requireProgrammer settings).map .idcode⟩,
    ⟨"status", deviceTable, fun settings => (requireProgrammer settings).map .status⟩,
    ⟨"list-programmers", listTable, fun _ => .ok .listProgrammers⟩,
    ⟨"list-devices", listTable, fun _ => .ok .listDevices⟩]

/-- The command with the given name. -/
def commandForm? (name : String) : Option CommandForm :=
  commandForms.find? (·.name == name)

/-- What the word `help` leads to: help on the command named after it, if it is one and no further
word follows. -/
def helpOn : (words : List String) → UsageError
  | [] => .help
  | [word] => if word == "help" || (commandForm? word).isSome then .help else .unknownCommand
  | _ => .unknownCommand

/-- Reads the options of a command. `outer` is the verbosity asked for before its name. -/
def readCommand (outer : Nat) (form : CommandForm) (arguments : List String) :
    Except UsageError Invocation := do
  let settings := (← Reading.all form.table arguments).map (·.2)
  let command ← form.build settings
  let inner := verbosityOf settings
  pure { verbosity := if inner = 0 then outer else inner, command }

/-- Reads a command line. -/
def Invocation.ofArguments (arguments : List String) : Except UsageError Invocation := do
  let (reading, stop) ← Reading.options rootTable .start arguments
  let settings := reading.settings.map (·.2)
  match stop with
  | .word name rest =>
    if name == "help" then
      throw (helpOn rest)
    else
      match commandForm? name with
      | some form => readCommand (verbosityOf settings) form rest
      | none => throw .unknownCommand
  | .separated (name :: _) =>
    if name == "help" || (commandForm? name).isSome then throw .unknownArgument
    else throw .unknownCommand
  | .separated [] | .finished =>
    if settings.isEmpty then throw .noArguments else throw .missingCommand

/-! ## Usage -/

/-- Asking for help or for the version is not a mistake. -/
def UsageError.isMistake : UsageError → Bool
  | .help | .version => false
  | _ => true

/-- What is wrong with a command line, in words. -/
def UsageError.message : UsageError → String
  | .missingOption => "a required option is missing"
  | .unknownArgument => "an argument is not understood"
  | .unknownCommand => "there is no such command"
  | .missingValue => "an option is given without a value"
  | .refusedValue reason => reason
  | .repeatedOption => "an option is given twice"
  | .unexpectedValue => "an option is given a value that it does not take"
  | .help => "help is asked for"
  | .version => "the version is asked for"
  | .noArguments => "there are no arguments"
  | .missingCommand => "there is no command"

/-- How the program is used. -/
def usage : String :=
  "Usage: gwflasher [OPTIONS] <COMMAND>\n\nCommands: " ++
    ", ".intercalate (commandForms.map (·.name)) ++ "\n"

/-- What is shown instead of running a command. -/
def UsageError.text (error : UsageError) : String :=
  if error = .version then "gwflasher\n"
  else if error.isMistake then "error: " ++ error.message ++ "\n\n" ++ usage
  else usage

end FpgaProgrammer.CommandLine
