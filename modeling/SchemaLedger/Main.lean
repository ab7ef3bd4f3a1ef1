import SchemaLedger.CommandLine.Output

/-!
# The program

Reads arguments, environment and files, and prints the output.
-/

open SchemaLedger CommandLine

/-- The texts of the files that can be read. -/
def readFiles (paths : List String) : IO (List (String × String)) :=
  paths.filterMapM fun (path : String) ↦ do
    match ← (IO.FS.readFile path).toBaseIO with
    | .ok text => return some (path, text)
    | .error _ => return none

/-- Prints the lines of an output and returns its exit code. -/
def printOutput (o : Output) : IO UInt32 := do
  o.lines.forM IO.println
  return o.exitCode

/-- Runs the program. -/
def main (args : List String) : IO UInt32 := do
  let setting ← IO.getEnv sideTableVariable
  match Invocation.ofArgs args setting with
  | .error stop =>
    if stop = .usage then IO.eprintln "error: unexpected or missing arguments; try --help"
    printOutput (.ofStop setting stop)
  | .ok invocation =>
    let files ← readFiles invocation.job.files
    let output := invocation.output fun path ↦ (files.find? (·.1 == path)).map (·.2)
    if output.exitCode ≠ 0 then IO.eprintln "error: the command failed"
    printOutput output
