import Synopsis.Proofs.Recorders

/-!
# Programs on a console

A program on a console reads its usage text, fits its arguments and may read a value from the
matches. At each of these places it can exit, after it has written what there is to say. The reply
of a command line says the same in another form: the calls it made, and a value or an exit code.

`CommandLine.console_run_shows_reply` says that the two agree. What is written is told line by line
from the calls (`Console.written`), without the console.
-/

namespace Synopsis

/-! ## What calls write -/

/-- The line that the call writes to standard error. -/
def Call.errorLine? : Call → Option String
  | .print _ => none
  | .printError text => some ("ERROR: " ++ text)
  | .pointAt caret => some caret.render

namespace Console

/-- Lines, with a line feed after each. -/
def written (lines : List String) : String := String.join (lines.map (· ++ "\n"))

theorem written_cons (line : String) (lines : List String) :
    written (line :: lines) = line ++ "\n" ++ written lines := by
  rw [written, List.map_cons, String.join_cons, ← written]

theorem output_performAll (c : Console) (calls : List Call) :
    (c.performAll calls).output = c.output ++ written (calls.filterMap Call.message?) := by
  induction calls generalizing c with
  | nil => simp [performAll, written]
  | cons call calls ih =>
    rw [performAll, List.foldl_cons, ← performAll, ih, List.filterMap_cons]
    cases call with
    | print message => simp [perform, printLine, Call.message?, written_cons, String.append_assoc]
    | printError text => rfl
    | pointAt caret => rfl

theorem errors_performAll (c : Console) (calls : List Call) :
    (c.performAll calls).errors = c.errors ++ written (calls.filterMap Call.errorLine?) := by
  induction calls generalizing c with
  | nil => simp [performAll, written]
  | cons call calls ih =>
    rw [performAll, List.foldl_cons, ← performAll, ih, List.filterMap_cons]
    cases call with
    | print message => rfl
    | printError text =>
      simp [perform, errorLine, errorLabel, Call.errorLine?, written_cons, String.append_assoc]
    | pointAt caret =>
      simp [perform, errorLine, Call.errorLine?, written_cons, String.append_assoc]

/-- Calls on an empty console write their lines, messages apart from errors. -/
theorem performAll_empty (calls : List Call) :
    Console.empty.performAll calls =
      ⟨written (calls.filterMap Call.message?), written (calls.filterMap Call.errorLine?)⟩ := by
  have houtput := output_performAll .empty calls
  have herrors := errors_performAll .empty calls
  rw [empty, String.empty_append] at houtput herrors
  rw [← houtput, ← herrors, empty]

end Console

/-! ## Runs and replies -/

namespace Run

variable {α : Type}

/-- The run shows what the reply says. It goes on with the value of the reply, and then has written
nothing; or it exits with the code of the reply, and has written the messages and the errors of the
calls, in order and each on a line of its own. -/
structure Shows (run : Run α) (r : Reply α) : Prop where
  returns : ∀ value, run.returned? = some value ↔ r.result = .ok value
  silent : ∀ value, r.result = .ok value → run.code = 0 ∧ run.console = ⟨"", ""⟩
  exits : ∀ code, r.result = .error code → run.returned? = none ∧ run.code = code ∧
    run.console.output = Console.written (r.calls.filterMap Call.message?) ∧
    run.console.errors = Console.written (r.calls.filterMap Call.errorLine?)

/-- The run that carries out the calls of a reply. -/
def ofReply (r : Reply α) : Run α := ⟨Console.empty.performAll r.calls, r.result⟩

theorem shows_ofReply {r : Reply α} (h : ∀ value, r.result = .ok value → r.calls = []) :
    (ofReply r).Shows r := by
  refine ⟨fun value => ?_, fun value hvalue => ?_, fun code hcode => ?_⟩
  · rw [returned?, ofReply]
    cases r.result <;> simp
  · rw [code, ofReply, h value hvalue]
    exact ⟨by simp [hvalue], rfl⟩
  · rw [returned?, Run.code, ofReply, Console.performAll_empty]
    simp [hcode]

end Run

theorem Usage.Answers.calls_eq_nil {α : Type} {usage : Usage}
    {read : Matches → Except ExtractError α} {tokens : List String} {r : Reply α}
    (h : usage.Answers read tokens r) {value : α} (hvalue : r.result = .ok value) :
    r.calls = [] := by
  cases h with
  | value => rfl
  | help => cases hvalue
  | misfit => cases hvalue
  | unreadable => cases hvalue

namespace CommandLine

variable {α : Type} {path text : String}

theorem run_of_read {usage : Usage} (h : Usage.read (Program.nameOfPath? path) text = .ok usage)
    (arguments : List String) :
    run path text arguments = .ofReply (usage.reply arguments) := by
  rw [run, prepare, h]
  rfl

/-- Reading a value on a console, after the arguments have been fitted, is what the reply does
without one. -/
theorem runWith_of_read {usage : Usage}
    (h : Usage.read (Program.nameOfPath? path) text = .ok usage)
    (read : Matches → Except ExtractError α) (arguments : List String) :
    runWith read path text arguments = .ofReply (usage.replyWith read arguments) := by
  rw [runWith, run_of_read h, Usage.replyWith]
  obtain ⟨calls, result⟩ := usage.reply arguments
  cases result with
  | error code => rfl
  | ok found =>
    simp only [Run.ofReply, Run.andThen, take]
    cases read found with
    | ok value => rfl
    | error e => simp [Console.performAll]

theorem prepare_of_error {e : UsageError}
    (h : Usage.read (Program.nameOfPath? path) text = .error e) :
    prepare path text = ⟨⟨"", "ERROR: " ++ e.message ++ "\n"⟩, .error 1⟩ := by
  rw [prepare, h]
  simp [Console.perform, Console.errorLine, Console.errorLabel, Console.empty]

/-- **A program on a console shows what the command line replies.** If the usage text can be read,
a run returns a value exactly if the reply to the same arguments has it, and then has written
nothing; otherwise it exits with the code of the reply and has written the reply's calls. This
holds for the matches themselves and for any value that is read from them. If the usage text cannot
be read, either run exits with code 1 and has written this error only. -/
theorem console_run_shows_reply (read : Matches → Except ExtractError α) (path text : String)
    (arguments : List String) :
    (∀ usage, Usage.read (Program.nameOfPath? path) text = .ok usage →
      (run path text arguments).Shows (usage.reply arguments) ∧
      (runWith read path text arguments).Shows (usage.replyWith read arguments)) ∧
    ∀ e, Usage.read (Program.nameOfPath? path) text = .error e →
      run path text arguments = ⟨⟨"", "ERROR: " ++ e.message ++ "\n"⟩, .error 1⟩ ∧
      runWith read path text arguments = ⟨⟨"", "ERROR: " ++ e.message ++ "\n"⟩, .error 1⟩ := by
  constructor
  · intro usage h
    have hreply : (Run.ofReply (usage.reply arguments)).Shows (usage.reply arguments) := by
      rw [← usage.replyWith_ok]
      exact Run.shows_ofReply fun value => (usage.answers_replyWith .ok arguments).calls_eq_nil
    have hvalue := usage.answers_replyWith read arguments
    rw [run_of_read h, runWith_of_read h]
    exact ⟨hreply, Run.shows_ofReply fun value => hvalue.calls_eq_nil⟩
  · intro e h
    rw [runWith, run, prepare_of_error h]
    exact ⟨rfl, rfl⟩

/-- A size that is no number of eight bits ends the program after its arguments have been fitted,
and a text without a usage line before. -/
theorem console_run_shows_reply_size :
    (∃ usage,
      Usage.read (Program.nameOfPath? "/bin/tool") "Usage: $0 [-v] size" = .ok usage ∧
      (runWith (fun found => found.require (ScalarType.integer ⟨false, .bits8⟩).reader "size")
        "/bin/tool" "Usage: $0 [-v] size" ["-v", "256"]).code = 1 ∧
      (runWith (fun found => found.require (ScalarType.integer ⟨false, .bits8⟩).reader "size")
        "/bin/tool" "Usage: $0 [-v] size" ["-v", "256"]).console.errors =
          "ERROR: Cannot convert '256' for 'size' to u8\n") ∧
    Usage.read (Program.nameOfPath? "/bin/tool") "tool size" = .error .missingUsageLine ∧
    run "/bin/tool" "tool size" ["256"] =
      ⟨⟨"", "ERROR: Expected usage string, got none\n"⟩, .error 1⟩ := by
  let read := fun found : Matches =>
    found.require (ScalarType.integer ⟨false, .bits8⟩).reader "size"
  let usage : Usage :=
    { program := "tool"
      message := "Usage: tool [-v] size"
      arguments := [⟨"size", .required⟩]
      options := [⟨"v", .short 'v', none⟩]
      flagTable := NameMap.empty.insert "-v" 0
      defaults := .empty }
  have hread : Usage.read (Program.nameOfPath? "/bin/tool") "Usage: $0 [-v] size" = .ok usage := by
    decide +kernel
  have hbad : Usage.read (Program.nameOfPath? "/bin/tool") "tool size" =
      .error .missingUsageLine := by decide +kernel
  obtain ⟨hshows, -⟩ :=
    console_run_shows_reply read "/bin/tool" "Usage: $0 [-v] size" ["-v", "256"]
  obtain ⟨-, hfails⟩ := console_run_shows_reply read "/bin/tool" "tool size" ["256"]
  have hcode : (usage.replyWith read ["-v", "256"]).result = .error 1 := by rfl
  obtain ⟨-, hone, -, herrors⟩ := (hshows usage hread).2.exits 1 hcode
  exact ⟨⟨usage, hread, hone, herrors.trans (by decide +kernel)⟩, hbad, (hfails _ hbad).1⟩

end CommandLine

end Synopsis
