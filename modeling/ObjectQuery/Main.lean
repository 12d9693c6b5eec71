import ObjectQuery.CommandLine.Run
/-!
# The program

The command line over the file system and the environment of the process.
-/
namespace ObjectQuery.CommandLine

/-- The reason why a file cannot be read. -/
def readFailure : IO.Error → String
  | .noFileOrDirectory _ _ _ => "No such file or directory (os error 2)"
  | .inappropriateType _ _ _ => "Is a directory (os error 21)"
  | .permissionDenied _ _ _ => "Permission denied (os error 13)"
  | error => error.toString

/-- The host of a running program. -/
def processHost : Host IO where
  environment name := IO.getEnv name
  pathExists path := do
    try
      let found ← IO.FS.realPath path
      found.pathExists
    catch _ => return false
  readText path := do
    try return .ok (← IO.FS.readFile path)
    catch error => return .error (readFailure error)

end ObjectQuery.CommandLine

/-- Runs the command line and ends with its exit code. -/
def main (arguments : List String) : IO UInt32 := do
  let outcome ← ObjectQuery.CommandLine.run ObjectQuery.CommandLine.processHost arguments
  IO.print outcome.output
  IO.eprint outcome.report.text
  return outcome.code.toUInt32
