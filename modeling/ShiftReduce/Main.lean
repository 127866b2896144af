import ShiftReduce.CommandLine

/-!
# The executable

Reads the file that the arguments name, runs the command on its bytes, and prints what the command
leaves behind.
-/

set_option autoImplicit false

namespace ShiftReduce.CommandLine

/-- The bytes of a file, or why they cannot be had. -/
def readContents (path : String) : IO (Except ReadError ByteArray) := do
  try
    return .ok (← IO.FS.readBinFile path)
  catch error =>
    match error with
    | .noFileOrDirectory .. => return .error .missing
    | other => return .error (.refused (toString other))

/-- Run the command with the arguments of a process, and give its exit code. -/
def execute (arguments : List String) : IO UInt32 := do
  match parseArguments {} none arguments with
  | none =>
    IO.eprint usage
    return 2
  | some (options, path) =>
    let outcome := run options path (← readContents path)
    IO.print outcome.output
    IO.eprint outcome.complaint
    return outcome.code.toUInt32

end ShiftReduce.CommandLine

/-- The command as a program. -/
def main (arguments : List String) : IO UInt32 :=
  ShiftReduce.CommandLine.execute arguments
