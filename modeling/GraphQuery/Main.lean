import GraphQuery.CommandLine.Run

/-!
# The program

Reads the files, the standard input and the environment, and leaves the rest to
`CommandLine.outcome`.
-/

namespace GraphQuery.CommandLine

/-- Why a file cannot be read. -/
def readReason : IO.Error → String
  | .noFileOrDirectory .. => "No such file or directory (os error 2)"
  | .permissionDenied .. => "Permission denied (os error 13)"
  | e => toString e

/-- A text that is read, or why it cannot be. -/
def attempt (read : IO String) : IO (Except String String) := do
  try
    return .ok (← read)
  catch e => return .error (readReason e)

/-- The files that a command line names. -/
def filesOf (arguments : List String) : List String :=
  match parse arguments with
  | .ok (.run o) =>
    o.schema :: (o.config.toList ++ if o.query == "-" then [] else [o.query])
  | _ => []

/-- The command line wants the query from the standard input. -/
def readsInput (arguments : List String) : Bool :=
  match parse arguments with
  | .ok (.run o) => o.query == "-"
  | _ => false

/-- The texts that a command line needs. -/
def gather (arguments : List String) : IO Sources := do
  let environment ← Settings.variableNames.filterMapM fun name => do
    return (← IO.getEnv name).map fun value => (name, value)
  let files ← (filesOf arguments).mapM fun (path : String) => do
    return (path, ← attempt (IO.FS.readFile path))
  let input ←
    if readsInput arguments then attempt do (← IO.getStdin).readToEnd else pure (.ok "")
  return {
    environment := fun name => environment.lookup name
    file := fun path => (files.lookup path).getD (.error "No such file or directory (os error 2)")
    input }

end GraphQuery.CommandLine

/-- The command line program. -/
def main (arguments : List String) : IO UInt32 := do
  let sources ← GraphQuery.CommandLine.gather arguments
  let outcome := GraphQuery.CommandLine.outcome arguments sources
  (← IO.getStdout).putStr outcome.stdout
  (← IO.getStderr).putStr outcome.stderr
  return outcome.exit.toUInt32
