import FpgaProgrammer.Text.Split

/-!
# The grammar of command lines

Arguments are long options (`--name`, `--name=value`), clusters of short ones (`-f`, `-p value`,
`-pvalue`, `-p=value`, `-fv`), and words. After a lone `--` everything is a word. An option that
takes a value takes it from the same argument or from the word that follows.

A value is not looked at before the next option, or the end, is reached. So of two faults the one
that is met first in this order is reported, and an argument that is no option at all is reported
before a bad value just before it.

What an option means is left open: the settings that options stand for have a type `α`.
-/

namespace FpgaProgrammer.CommandLine

/-- Why a command line is not understood, or what it asks for instead of a command. -/
inductive UsageError where
  /-- A required option is missing. -/
  | missingOption
  /-- An argument is neither an option nor has a place among the words. -/
  | unknownArgument
  /-- A word is not the name of a command. -/
  | unknownCommand
  /-- An option is given without the value that it takes. -/
  | missingValue
  /-- The value of an option is refused. -/
  | refusedValue (reason : String)
  /-- An option is given twice that may be given once. -/
  | repeatedOption
  /-- An option is given a value that it does not take. -/
  | unexpectedValue
  /-- Help is asked for. -/
  | help
  /-- The version is asked for. -/
  | version
  /-- There are no arguments at all. -/
  | noArguments
  /-- There are options but no command. -/
  | missingCommand
  deriving Repr, DecidableEq

/-- Why the value of an option is refused. -/
inductive ValueFault where
  /-- The value is empty, which counts as missing. -/
  | blank
  /-- The value is refused for a reason. -/
  | refused (reason : String)
  deriving Repr, DecidableEq

/-- What an option without a value does. -/
inductive SwitchAction (α : Type) where
  /-- It stands for a setting and may be given once. -/
  | once (setting : α)
  /-- It stands for a setting and may be given any number of times. -/
  | counted (setting : α)
  /-- It asks for help. -/
  | help
  /-- It asks for the version. -/
  | version

/-- An option without a value. -/
structure Switch (α : Type) where
  /-- Its long name. -/
  name : String
  /-- Its short name. -/
  letter? : Option Char
  /-- What it does. -/
  action : SwitchAction α

/-- An option with a value. -/
structure Valued (α : Type) where
  /-- Its long name. -/
  name : String
  /-- Its short name. -/
  letter? : Option Char
  /-- It may be given any number of times. -/
  repeatable : Bool
  /-- The setting that a value stands for. -/
  read : String → Except ValueFault α

/-- The options that are understood. -/
structure OptionTable (α : Type) where
  /-- The options without a value. -/
  switches : List (Switch α)
  /-- The options with a value. -/
  valued : List (Valued α)

/-! ## Arguments -/

/-- An argument by its form. -/
inductive Token where
  /-- A lone `--`. -/
  | separator
  /-- A long option, with the value after its equals sign. -/
  | long (name : String) (value? : Option String)
  /-- A cluster of short options. -/
  | cluster (letters : List Char)
  /-- Anything else. -/
  | word (text : String)
  deriving Repr, DecidableEq

/-- The form of an argument. A lone `-` is a word. -/
def Token.ofText (text : String) : Token :=
  match text.toList with
  | ['-', '-'] => .separator
  | '-' :: '-' :: rest =>
    match Text.cutAt? '=' rest with
    | some (name, value) => .long (String.ofList name) (some (String.ofList value))
    | none => .long (String.ofList rest) none
  | '-' :: letter :: letters => .cluster (letter :: letters)
  | _ => .word text

/-! ## Reading -/

/-- How far a command line has been read. -/
structure Reading (α : Type) where
  /-- The settings so far, in order, with the names of the options that stand for them. -/
  settings : List (String × α)
  /-- The last option, if it takes a value, with the value if it has been met. -/
  pending? : Option (Valued α × Option String)

namespace Reading

variable {α : Type}

/-- Nothing has been read. -/
def start : Reading α :=
  { settings := [], pending? := none }

/-- The option has been given. -/
def has (reading : Reading α) (name : String) : Bool :=
  reading.settings.any fun setting => setting.1 == name

/-- Adds a setting. -/
def add (reading : Reading α) (name : String) (setting : α) : Reading α :=
  { reading with settings := reading.settings ++ [(name, setting)] }

/-- Takes the value of an option. -/
def accept (reading : Reading α) (option : Valued α) (value : String) :
    Except UsageError (Reading α) :=
  if reading.has option.name && !option.repeatable then
    throw .repeatedOption
  else
    match option.read value with
    | .ok setting => pure (reading.add option.name setting)
    | .error .blank => throw .missingValue
    | .error (.refused reason) => throw (.refusedValue reason)

/-- Takes the value of the last option, if that takes one. -/
def settle (reading : Reading α) : Except UsageError (Reading α) :=
  match reading.pending? with
  | none => pure reading
  | some (_, none) => throw .missingValue
  | some (option, some value) => { reading with pending? := none }.accept option value

/-- Follows an option without a value. -/
def follow (reading : Reading α) (switch : Switch α) : Except UsageError (Reading α) := do
  let reading ← reading.settle
  match switch.action with
  | .once setting =>
    if reading.has switch.name then throw .repeatedOption
    else pure (reading.add switch.name setting)
  | .counted setting => pure (reading.add switch.name setting)
  | .help => throw .help
  | .version => throw .version

/-- Meets an option with a value, which may be given along with it. -/
def meet (reading : Reading α) (option : Valued α) (value? : Option String) :
    Except UsageError (Reading α) := do
  let reading ← reading.settle
  match value? with
  | some value => reading.accept option value
  | none => pure { reading with pending? := some (option, none) }

/-- Reads a long option. -/
def long (table : OptionTable α) (reading : Reading α) (name : String) (value? : Option String) :
    Except UsageError (Reading α) :=
  match table.valued.find? (·.name == name), table.switches.find? (·.name == name), value? with
  | some option, _, _ => reading.meet option value?
  | none, some _, some _ => throw .unexpectedValue
  | none, some switch, none => reading.follow switch
  | none, none, _ => throw .unknownArgument

/-- The value that the rest of a cluster gives to an option: an equals sign before it is dropped,
and an empty rest is none. -/
def attached? : List Char → Option String
  | [] => none
  | '=' :: value => some (String.ofList value)
  | value => some (String.ofList value)

/-- Reads a cluster of short options. The first one that takes a value takes the rest. -/
def cluster (table : OptionTable α) (reading : Reading α) :
    List Char → Except UsageError (Reading α)
  | [] => pure reading
  | letter :: letters =>
    match table.valued.find? (·.letter? == some letter),
      table.switches.find? (·.letter? == some letter) with
    | some option, _ => reading.meet option (attached? letters)
    | none, some switch => do
      let reading ← reading.follow switch
      cluster table reading letters
    | none, none => throw .unknownArgument

/-- Where the reading of options stopped. -/
inductive Stop where
  /-- At the end. -/
  | finished
  /-- At a word that is no option's value. -/
  | word (text : String) (rest : List String)
  /-- At a lone `--`. -/
  | separated (rest : List String)

/-- Reads options and their values as far as there are any. -/
def options (table : OptionTable α) (reading : Reading α) :
    List String → Except UsageError (Reading α × Stop)
  | [] => pure (reading, .finished)
  | argument :: arguments =>
    match Token.ofText argument with
    | .separator => pure (reading, .separated arguments)
    | .long name value? => do
      let reading ← reading.long table name value?
      options table reading arguments
    | .cluster letters => do
      let reading ← reading.cluster table letters
      options table reading arguments
    | .word text =>
      match reading.pending? with
      | some (option, none) =>
        options table { reading with pending? := some (option, some text) } arguments
      | _ => pure (reading, .word text arguments)

/-- Reads arguments that are all options. -/
def all (table : OptionTable α) (arguments : List String) :
    Except UsageError (List (String × α)) := do
  let (reading, stop) ← options table start arguments
  match stop with
  | .finished | .separated [] =>
    let reading ← reading.settle
    pure reading.settings
  | .word _ _ | .separated (_ :: _) => throw .unknownArgument

end Reading

end FpgaProgrammer.CommandLine
