import Synopsis.Sample.Programs

/-!
# Running the sample programs

The first argument names the program, and the others are its arguments.
-/

/-- The sample program of a name. -/
def Synopsis.Sample.program? (name : String) : Option (String → List String → Run Unit) :=
  if name = "connect" then some runConnect
  else if name = "connection" then some runConnection
  else if name = "backup" then some runBackup
  else none

/-- Run a sample program and leave with its exit code. -/
def main (arguments : List String) : IO UInt32 := do
  match arguments with
  | [] => return 2
  | name :: rest =>
    match Synopsis.Sample.program? name with
    | none => return 2
    | some program =>
      let run := program name rest
      (← IO.getStdout).putStr run.console.output
      (← IO.getStderr).putStr run.console.errors
      return run.code.toUInt32
