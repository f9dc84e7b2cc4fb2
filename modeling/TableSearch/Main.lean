import TableSearch.CommandLine.Perform

/-!
# The command line

Reads the arguments, performs the command on the files of the system and shows its outcome.
-/

namespace TableSearch.CommandLine

/-- The cause of a file error of the system. Some actions report its number with a minus sign. -/
def causeOf (e : IO.Error) : FileError :=
  match e with
  | .noFileOrDirectory _ _ _ => .notFound
  | .inappropriateType _ code details =>
    match code.toInt32.toInt.natAbs with
    | 20 => .notADirectory
    | 21 => .isADirectory
    | _ => .other details
  | e => .other (toString e)

instance : Files IO where
  read path := do
    try return .ok (← IO.FS.readBinFile path).toList
    catch e => return .error (causeOf e)
  write path content := do
    try
      IO.FS.writeBinFile path (ByteArray.mk content.toArray)
      return .ok ()
    catch e => return .error (causeOf e)

/-- Performs a command on the files of the system and shows its outcome. -/
def execute (command : Command) : IO UInt32 := do
  let outcome : Outcome ← command.perform
  let thresholds := Level.threshold (← IO.getEnv "RUST_LOG")
  (← IO.getStderr).putStr (outcome.errorOutput thresholds)
  (← IO.getStdout).write (ByteArray.mk outcome.output.toArray)
  return outcome.exitCode.toUInt32

end TableSearch.CommandLine

open TableSearch.CommandLine in
/-- Exits with 2 if the arguments make no command. -/
def main (arguments : List String) : IO UInt32 := do
  match Command.ofArguments? arguments with
  | some command => execute command
  | none =>
    IO.eprintln "usage: gen --size N [--output PATH] [--header PATH]"
    IO.eprintln "       run --image PATH --public N.. [--private N..] [--trace]"
    return 2
