import Synopsis.Interface
import Synopsis.Match
import Synopsis.Program
import Synopsis.Record.Layout

/-!
# The command line of a program

A command line fits argument lists to a usage and tells the user about help and errors. The calls
it makes are part of its answer, so any interface can carry them out. A program on a console
carries them out at once and ends with an exit code where there is nothing to go on with.
-/

namespace Synopsis

/-- What a command line answers: the calls it made, and a value or an exit code. -/
structure Reply (α : Type) where
  calls : List Call
  result : Except Nat α

namespace Usage

/-- Fit an argument list to the usage. Help ends with code 0 and an error with code 1. Models
`invoke`, and so `parse_tokens`. -/
def reply (usage : Usage) (tokens : List String) : Reply Matches :=
  match usage.fit tokens with
  | .ok (.complete found) => ⟨[], .ok found⟩
  | .ok (.showUsage message) => ⟨[.print message], .error 0⟩
  | .error ⟨offset, error⟩ =>
    ⟨[.printError error.message, .pointAt ⟨offset, tokens⟩], .error 1⟩

/-- Fit an argument list to the usage and read a value from the matches. Models `parse_tokens_into`.
-/
def replyWith {α : Type} (usage : Usage) (read : Matches → Except ExtractError α)
    (tokens : List String) : Reply α :=
  match usage.reply tokens with
  | ⟨calls, .error code⟩ => ⟨calls, .error code⟩
  | ⟨calls, .ok found⟩ =>
    match read found with
    | .ok value => ⟨calls, .ok value⟩
    | .error e => ⟨calls ++ [.printError e.message], .error 1⟩

/-- Fit an argument list to the usage and read a record from the matches. -/
def replyInto (usage : Usage) (layout : Record.Layout) (tokens : List String) :
    Reply Record.Instance :=
  usage.replyWith layout.read tokens

end Usage

/-- A program that runs on a console: what it has written, and the value it goes on with or the
code it has exited with. -/
structure Run (α : Type) where
  console : Console
  ending : Except Nat α

namespace Run

variable {α β : Type}

/-- The exit code; a program that goes on has none yet and counts as successful. -/
def code (r : Run α) : Nat :=
  match r.ending with
  | .ok _ => 0
  | .error code => code

/-- The value that the program goes on with. -/
def returned? (r : Run α) : Option α :=
  match r.ending with
  | .ok value => some value
  | .error _ => none

/-- Go on with the value, if the program has not exited. -/
def andThen (r : Run α) (next : Console → α → Run β) : Run β :=
  match r.ending with
  | .ok value => next r.console value
  | .error code => ⟨r.console, .error code⟩

end Run

namespace CommandLine

/-- Read the usage text of a program started at `path`. An error ends the program. Models
`CommandLine::build`. -/
def prepare (path text : String) : Run Usage :=
  match Usage.read (Program.nameOfPath? path) text with
  | .ok usage => ⟨.empty, .ok usage⟩
  | .error e => ⟨Console.empty.perform (.printError e.message), .error 1⟩

/-- Fit the program's arguments to the usage. Help and errors end the program. -/
def accept (console : Console) (usage : Usage) (arguments : List String) : Run Matches :=
  let reply := usage.reply arguments
  ⟨console.performAll reply.calls, reply.result⟩

/-- Read a value from the matches. An error ends the program. -/
def take {α : Type} (read : Matches → Except ExtractError α) (console : Console)
    (found : Matches) : Run α :=
  match read found with
  | .ok value => ⟨console, .ok value⟩
  | .error e => ⟨console.perform (.printError e.message), .error 1⟩

/-- A program that reads its usage text and then its arguments. Models `CommandLine::build` followed
by `parse`. -/
def run (path text : String) (arguments : List String) : Run Matches :=
  (prepare path text).andThen fun console usage => accept console usage arguments

/-- A program that reads its usage text, then its arguments, and then a value from them. Models
`CommandLine::build` followed by `parse_into`. -/
def runWith {α : Type} (read : Matches → Except ExtractError α) (path text : String)
    (arguments : List String) : Run α :=
  (run path text arguments).andThen (take read)

/-- A program that reads its usage text, then its arguments, and then a record from them. -/
def runInto (layout : Record.Layout) (path text : String) (arguments : List String) :
    Run Record.Instance :=
  runWith layout.read path text arguments

end CommandLine

end Synopsis
