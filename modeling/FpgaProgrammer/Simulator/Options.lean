import FpgaProgrammer.Log
import FpgaProgrammer.Simulator.Basic

/-!
# Options of the simulated device

The simulated device is configured by `key=value` options. They are read from left to right: a
later value of a key replaces an earlier one, the first bad value ends the reading, and a key that
is not known is only warned about.
-/

namespace FpgaProgrammer.Simulator

/-- Why an option is refused. -/
inductive OptionFault where
  /-- The value cannot be read. -/
  | invalidValue (key value : String)
  /-- A flash of this size cannot be simulated. -/
  | flashSize (size : Nat)
  deriving Repr, DecidableEq

/-- A fault in words. -/
def OptionFault.message : OptionFault → String
  | .invalidValue key value => "Invalid value for " ++ key ++ ": " ++ value
  | .flashSize size => s!"flash_size must be a power of two, got {size}"

/-- Reads a decimal value below a limit. -/
def readDecimal (limit : Nat) (key value : String) : Except OptionFault Nat :=
  (Text.readNumeral 10 limit value.toList).mapError fun _ => .invalidValue key value

/-- Reads a word in hexadecimal. -/
def readWord (key value : String) : Except OptionFault UInt32 :=
  match Text.readHexWord? value with
  | some word => .ok word
  | none => .error (.invalidValue key value)

/-- The number is a power of two. -/
def isPowerOfTwo (n : Nat) : Bool :=
  n != 0 && 1 <<< n.log2 == n

/-- The effect of one option, or `none` if its key is not known. -/
def applyOption? (config : SimulatorConfig) (key value : String) :
    Option (Except OptionFault SimulatorConfig) :=
  match key with
  | "idcode" => some do
    let idcode ← readWord key value
    pure { config with idcode }
  | "usercode" => some do
    let usercode ← readWord key value
    pure { config with usercode? := some usercode }
  | "flash_size" => some do
    let size ← readDecimal UInt64.size key value
    if isPowerOfTwo size then
      pure { config with flash := { config.flash with size } }
    else
      throw (.flashSize size)
  | "erase_latency" => some do
    let eraseLatency ← readDecimal UInt32.size key value
    pure { config with eraseLatency }
  | _ => none

/-- The warning about an unknown option. -/
def unknownOption (key value : String) : LogLine :=
  ⟨.warn, "dummy: Unknown option: " ++ key ++ "=" ++ value⟩

/-- Applies options to a configuration. Returns the warnings, and the configuration or the first
fault. -/
def applyOptions (config : SimulatorConfig) :
    (options : List (String × String)) → List LogLine × Except OptionFault SimulatorConfig
  | [] => ([], .ok config)
  | (key, value) :: options =>
    match applyOption? config key value with
    | none =>
      let (warnings, result) := applyOptions config options
      (unknownOption key value :: warnings, result)
    | some (.ok config) => applyOptions config options
    | some (.error fault) => ([], .error fault)

/-- The configuration that options describe. -/
def readOptions (options : List (String × String)) :
    List LogLine × Except OptionFault SimulatorConfig :=
  applyOptions {} options

end FpgaProgrammer.Simulator
