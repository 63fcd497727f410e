import Synopsis.CommandLine
import Synopsis.Record.Render
import Synopsis.Sample.Records

/-!
# Sample programs

Three small programs that take their arguments from a usage text: one looks the matches up by
name, one reads a record, and one does both. Each is given the path it was started with and its
arguments.
-/

namespace Synopsis.Sample

/-- The usage of the program that connects. -/
def connectUsage : String :=
  "Usage: $0 [options] host port\n\nOpen a connection to host.\n\nOptions:\n" ++
  "  -s, --secure        Use a secure connection\n" ++
  "  -r, --retries NUM   Number of retries (default 3)\n" ++
  "  -t, --timeout ARG   Seconds to wait for each attempt"

/-- The usage of the program that connects by a record. -/
def connectionUsage : String :=
  "Usage: $0 [options] [mode] host port\n\nOptions:\n" ++
  "  -s, --secure        Use a secure connection\n" ++
  "  -r, --retries NUM   Number of retries (default 3)\n" ++
  "  -t, --timeout ARG   Seconds to wait for each attempt"

/-- The usage of the program that backs up. -/
def backupUsage : String :=
  "Usage: $0 [-v] [--since DATE] [-n NUM] dest sources...\n\nOptions:\n" ++
  "  -v, --verbose     Print each file as it is copied\n" ++
  "  --since DATE      Only copy files changed after the date\n" ++
  "  -n NUM            Keep this many old backups (default 2)"

/-- A count under a name; zero where there is none that fits. -/
def countOrZero (found : Matches) (name : String) : String :=
  match found.require unsigned32.reader name with
  | .ok (.integer n) => String.ofList (Decimal.signed n)
  | _ => "0"

/-- Say where the program connects to. -/
def runConnect (path : String) (arguments : List String) : Run Unit :=
  (CommandLine.run path connectUsage arguments).andThen fun console found =>
    let scheme := if found.includes "secure" then "https" else "http"
    let host := (found.text? "host").getD ""
    let port := (found.text? "port").getD ""
    let console := console.printLine
      ("Connecting to " ++ scheme ++ "://" ++ host ++ ":" ++ port ++ " with " ++
        countOrZero found "retries" ++ " retries.")
    match found.text? "timeout" with
    | some timeout => ⟨console.printLine ("Each attempt waits " ++ timeout ++ "s."), .ok ()⟩
    | none => ⟨console, .ok ()⟩

/-- Show how the program would connect. -/
def runConnection (path : String) (arguments : List String) : Run Unit :=
  (CommandLine.runInto connection path connectionUsage arguments).andThen
    fun console record => ⟨console.printLine record.render, .ok ()⟩

/-- Show what the program would back up. -/
def runBackup (path : String) (arguments : List String) : Run Unit :=
  (CommandLine.run path backupUsage arguments).andThen fun console found =>
    match backupJob.read found with
    | .ok record =>
      ⟨console.printLine (record.render ++ ", keeping " ++ countOrZero found "n"), .ok ()⟩
    | .error e => ⟨console.errorLine e.message, .error 1⟩

end Synopsis.Sample
