import FpgaProgrammer.CommandLine.Run

/-!
# The command-line program

Reads the files that the command line names, runs the command, and writes what it has written:
messages to standard error, the rest to standard output.
-/

namespace FpgaProgrammer

/-- A failure to read a file in words. -/
def ioFailureText : IO.Error → String
  | .noFileOrDirectory _ _ _ => "No such file or directory (os error 2)"
  | .permissionDenied _ _ _ => "Permission denied (os error 13)"
  | .inappropriateType _ _ _ => "Is a directory (os error 21)"
  | error => toString error

/-- The content of a file, or why it cannot be read. -/
def fileContent (path : String) : IO (Except String Bytes) := do
  try
    let content ← IO.FS.readBinFile path
    pure (.ok content.toList)
  catch error =>
    pure (.error (ioFailureText error))

/-- The files that a command line names. -/
def namedFiles (arguments : List String) : List String :=
  match CommandLine.Invocation.ofArguments arguments with
  | .ok invocation => invocation.command.files
  | .error _ => []

end FpgaProgrammer

open FpgaProgrammer in
/-- The program. -/
def main (arguments : List String) : IO UInt32 := do
  let contents ← (namedFiles arguments).mapM fun path => do
    pure (path, ← fileContent path)
  let ending := CommandLine.execute
    (fun path => (contents.lookup path).getD (.error "not read")) arguments
  match ending with
  | .ran completed =>
    for line in completed.written.log do
      IO.eprintln line.render
    IO.print completed.written.stdout
    if let .error failure := completed.result then
      IO.eprintln (if failure.breaksOff then failure.message else "Error: " ++ failure.message)
  | .usage error =>
    if error.isMistake then IO.eprint error.text else IO.print error.text
  pure ending.exitCode
