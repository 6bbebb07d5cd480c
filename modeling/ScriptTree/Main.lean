/-
  The command: `main` reads the files named by its arguments, writes what a run writes to
  the standard error, and exits with the code of the run.
-/
import ScriptTree.CommandLine.Run

namespace ScriptTree

/-- The reason behind an error of the system. -/
def readFailure : IO.Error → ReadFailure
  | .noFileOrDirectory .. => .notFound
  | .permissionDenied .. => .permissionDenied
  | .inappropriateType _ code _ => if code = 21 then .isDirectory else .notDirectory
  | error@(.invalidArgument _ code _) =>
    if code = -36 then .nameTooLong else .other (toString error)
  | error => .other (toString error)

/-- Reads the files of a run beforehand, since a run does nothing by itself. -/
def readFiles (names : List String) : IO (List (String × Except ReadFailure ByteArray)) :=
  names.mapM fun (name : String) => do
    try
      return (name, .ok (← IO.FS.readBinFile name))
    catch error =>
      return (name, .error (readFailure error))

/-- Whether the standard error shows colour. -/
def supportsColor : IO Bool := do
  match ← IO.getEnv "FORCE_COLOR" with
  | some value => return value != "0"
  | none => return (← IO.getEnv "NO_COLOR").isNone && (← (← IO.getStderr).isTty)

/-- The forms of the command. -/
def usage : String := "usage: [--strict] [--expression] [--no-color] [--verbose] FILE..."

end ScriptTree

open ScriptTree

/-- Checks the files that are named, and exits with the code of the run. -/
def main (words : List String) : IO UInt32 := do
  match Invocation.read? words with
  | none =>
    IO.eprintln usage
    return 2
  | some .help =>
    IO.println usage
    return 0
  | some (.check arguments) =>
    let contents ← readFiles arguments.files
    let surroundings : Surroundings :=
      { files := fun name => (contents.lookup name).getD (.error .notFound)
        refusal := fun _ => "no document"
        level? := none
        logLine := fun _ event => event.line }
    for piece in arguments.written surroundings (← supportsColor) do
      IO.eprintln piece
    return (arguments.run surroundings).exitCode.toUInt32
