import FpgaProgrammer.Simulator.Options
import FpgaProgrammer.Simulator.Step
import FpgaProgrammer.Text.Split

/-!
# Programmers

A programmer is a kind of cable that can be chosen by name. The choice is written as the name
alone, or as `name:key=value,key=value`. At present the simulated device is the only programmer.
-/

namespace FpgaProgrammer

/-- The kinds of cable there are. -/
inductive Programmer where
  /-- The cable to a simulated device. -/
  | simulated
  deriving Repr, DecidableEq

namespace Programmer

/-- All programmers. -/
def all : List Programmer :=
  [simulated]

/-- The name of a programmer. -/
def name : Programmer → String
  | simulated => "dummy"

/-- Other names of a programmer. -/
def aliases : Programmer → List String
  | simulated => ["sim"]

/-- What a programmer is, and which options it takes. -/
def description : Programmer → String
  | simulated =>
    "Simulated Gowin FPGA (idcode=<hex>,usercode=<hex>,flash_size=<bytes>,erase_latency=<n>)"

/-- The programmer with the given name or alias. -/
def find? (wanted : String) : Option Programmer :=
  all.find? fun programmer => programmer.name == wanted || programmer.aliases.contains wanted

/-- The names of all programmers, for short. -/
def shortList : String :=
  ", ".intercalate (all.map name)

/-- The text continued with blanks to a width. -/
def padRight (width : Nat) (text : String) : String :=
  text ++ String.ofList (List.replicate (width - text.length) ' ')

/-- The lines that present a programmer. -/
def presentation (programmer : Programmer) : String :=
  "  " ++ padRight 12 programmer.name ++ " - " ++ programmer.description ++ "\n" ++
    if programmer.aliases.isEmpty then ""
    else "  " ++ padRight 12 "" ++ "   aliases: " ++ ", ".intercalate programmer.aliases ++ "\n"

/-- The list of all programmers. -/
def longList : String :=
  "Available programmers:\n" ++ String.join (all.map presentation)

/-! ## Choosing -/

/-- A choice of programmer, as it is written. -/
structure Choice where
  /-- The name that was written. -/
  name : String
  /-- The options that were written. -/
  options : List (String × String)
  deriving Repr, DecidableEq

/-- Reads a choice. Options that are not of the form `key=value` are passed over. -/
def Choice.ofText (text : String) : Choice :=
  match Text.cutAt? ':' text.toList with
  | none => ⟨text, []⟩
  | some (name, options) =>
    ⟨String.ofList name, (Text.splitAt ',' options).filterMap Text.keyValue?⟩

/-- Why a choice of programmer is refused. -/
inductive Fault where
  /-- There is no such programmer. -/
  | unknown (name : String)
  /-- The programmer refuses an option. -/
  | invalidOptions (programmer : Programmer) (reason : Simulator.OptionFault)
  /-- The options are accepted, but no array can hold the flash that they ask for. -/
  | flashTooLarge
  deriving Repr, DecidableEq

/-- A fault in words. -/
def Fault.message : Fault → String
  | .unknown name =>
    "Unknown programmer: " ++ name ++ "\n\n" ++ longList ++
      "\nUse 'gwflasher list-programmers' for more details"
  | .invalidOptions programmer reason =>
    "Invalid " ++ programmer.name ++ " parameters: " ++ reason.message
  | .flashTooLarge => "capacity overflow"

/-- The program does not report the fault but breaks off: the size of the flash is not checked
before the array is made. -/
def Fault.breaksOff : Fault → Bool
  | .flashTooLarge => true
  | _ => false

/-- Opens the simulated device that a choice asks for. Returns what is to be logged, and the device
or a fault. The array of the flash is made last, when the opening has been logged. -/
def connect (text : String) : List LogLine × Except Fault Simulator :=
  let choice := Choice.ofText text
  match find? choice.name with
  | none => ([], .error (.unknown choice.name))
  | some .simulated =>
    match Simulator.readOptions choice.options with
    | (warnings, .error reason) => (warnings, .error (.invalidOptions .simulated reason))
    | (warnings, .ok config) =>
      (warnings ++ [⟨.info, "Opening simulated device (idcode 0x" ++
        Text.hexLower 8 config.idcode.toNat ++ ")"⟩],
        if config.flash.fits then .ok (.powerUp config) else .error .flashTooLarge)

end Programmer

end FpgaProgrammer
