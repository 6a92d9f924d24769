import Schemaless.Shell.Arguments
import Schemaless.Shell.Report

/-!
# The program

Reads the arguments, the environment and the files that they name, runs the command, and prints its
lines and its report.
-/

namespace Schemaless

/-- Why a file cannot be read. -/
def readFault : IO.Error → String
  | .noFileOrDirectory .. => "No such file or directory (os error 2)"
  | e => toString e

/-- The text of a file, or why it cannot be read. -/
def readFile (path : String) : IO (Except String String) := do
  try
    return .ok (← IO.FS.readFile path)
  catch e =>
    return .error (readFault e)

/-- The files of some paths. -/
def readFiles (paths : List String) : IO Files := do
  let texts ← paths.mapM fun path => do return (path, ← readFile path)
  return fun path => (texts.lookup path).getD (noFiles path)

/-- The variables of the environment that count. -/
def readEnvironment : IO (String → Option String) := do
  let names := ["DOCSQL_HOST", "DOCSQL_PORT", "DOCSQL_DATABASE"]
  let values ← names.mapM fun name => do return (name, ← IO.getEnv name)
  return fun name => (values.lookup name).join

/-- Runs a command on the files and the environment of the system. -/
def runCommand (c : Command) : IO Printed := do
  let environment ← readEnvironment
  let files ← readFiles c.paths
  let credentials := match c.configuration environment files with
    | .ok config => config.credentials.toList
    | .error _ => []
  let files ← readFiles (c.paths ++ credentials)
  return c.run environment files

end Schemaless

/-- Runs the command of the arguments; the exit code is 0, 1 after a fault, and 2 if the arguments
make no command. -/
def main (arguments : List String) : IO UInt32 := do
  match Schemaless.Command.ofArguments arguments with
  | .error fault =>
    IO.eprintln ("error: " ++ fault.message)
    return 2
  | .ok command =>
    let printed ← Schemaless.runCommand command
    for line in printed.lines do
      IO.println line
    match printed.fault with
    | none => return 0
    | some fault =>
      IO.eprintln ("Error: " ++ fault.report)
      return 1
