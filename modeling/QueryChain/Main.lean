import QueryChain.CommandLine.Run
import QueryChain.CommandLine.Usage

/-!
# The command line tool

Reads files and the environment, prints what a run has printed, and ends with its exit code.
-/

namespace QueryChain.CommandLine

/-- Why the operating system did not give a file. -/
def fileFaultOf : IO.Error → FileFault
  | .noFileOrDirectory _ _ _ => .missing
  | .permissionDenied _ _ _ => .accessDenied
  | .inappropriateType _ code _ => if code = 20 then .notDirectory else .isDirectory
  | _ => .noText

/-- Reads a file. -/
def readTextFile (path : String) : IO (Except FileFault String) := do
  try
    let text ← IO.FS.readFile path
    pure (.ok text)
  catch e =>
    pure (.error (fileFaultOf e))

/-- `default_path`: the usual place of the settings file. -/
def usualSettingsPath : IO (Option String) := do
  let config ← IO.getEnv "XDG_CONFIG_HOME"
  let home ← IO.getEnv "HOME"
  let directory := config.filter (·.startsWith "/") <|> home.map (· ++ "/.config")
  pure (directory.map (· ++ "/exql/config.toml"))

/-- Carries out a command line. -/
def carryOut (a : Arguments) : IO UInt32 := do
  let schema ← IO.getEnv "EXQL_SCHEMA"
  let databaseUrl ← IO.getEnv "EXQL_DATABASE_URL"
  let usual ← usualSettingsPath
  let (ending, transcript) ← (run readTextFile usual (a.withDefaults schema databaseUrl)).run .empty
  IO.print transcript.out
  IO.eprint transcript.err
  match ending with
  | .ok () => pure 0
  | .error stop =>
    IO.eprintln ("Error: " ++ stop.message)
    pure 1

end QueryChain.CommandLine

open QueryChain.CommandLine in
/-- `main`: the whole tool. -/
def main (args : List String) : IO UInt32 := do
  match Arguments.ofList args with
  | .ok a => carryOut a
  | .error fault =>
    if fault.isRequest then
      IO.println fault.message
      pure 0
    else
      IO.eprintln fault.message
      pure 2
