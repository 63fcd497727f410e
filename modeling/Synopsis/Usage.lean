import Synopsis.NameMap
import Synopsis.OptionSpec
import Synopsis.Text.Lines
import Synopsis.UsageLine.Element
import Synopsis.UsageLine.Token

/-!
# The usage of a program

A `Usage` is the grammar of a command line, obtained from the text that the program shows as its
help. The first line with the marker `Usage:` names the program and declares the positionals;
options are declared in brackets on that line, and on every line that starts with a flag.

The program's name may be left open as `$0`; it is then filled in from outside, here and wherever
else the text has `$0`. A default belongs to a canonical name and stays even if its option is
replaced.
-/

namespace Synopsis

/-- The grammar of a command line. -/
structure Usage where
  program : String
  /-- The help message. -/
  message : String
  /-- The positionals in declared order. -/
  arguments : List Argument
  /-- The options in declared order. -/
  options : List OptionSpec
  /-- The place in `options` of the option that a flag token selects. -/
  flagTable : NameMap Nat
  /-- Default values by canonical name. -/
  defaults : NameMap String
deriving DecidableEq

namespace Usage

/-- Whether two answers of reading are the same. -/
instance decidableEqReading : DecidableEq (Except UsageError Usage)
  | .ok x, .ok y =>
    if h : x = y then isTrue (h ▸ rfl) else isFalse fun e => h (Except.ok.inj e)
  | .error x, .error y =>
    if h : x = y then isTrue (h ▸ rfl) else isFalse fun e => h (Except.error.inj e)
  | .ok _, .error _ => isFalse nofun
  | .error _, .ok _ => isFalse nofun

/-- The marker of the usage line. -/
def marker : List Char := "Usage:".toList

/-- The token that stands for all options together. -/
def optionsToken : List Char := "[options]".toList

/-- The token that stands for the program's name. -/
def programToken : List Char := ['$', '0']

/-- The text with the program's name in place of every `$0`. -/
def substitute (program : List Char) : List Char → List Char
  | [] => []
  | '$' :: '0' :: s => program ++ substitute program s
  | c :: s => c :: substitute program s

/-- The help message: the text with the program's name filled in and no blanks at the end. Models
`render_message`. -/
def helpText (program text : List Char) : List Char :=
  Text.trimEnd (substitute program text)

/-- The tokens of the first line that has the marker. -/
def lineTokens? (lines : List (List Char)) : Option (List (List Char)) :=
  (lines.findSome? (Text.afterFirst? marker)).map UsageLine.tokens

/-- The tokens after the program's name, without one that stands for all options. -/
def elementTokens : List (List Char) → List (List Char)
  | [] => []
  | token :: rest => if token = optionsToken then rest else token :: rest

/-- The declarations on lines of their own. -/
def listedDeclarations (lines : List (List Char)) : List Declaration :=
  (lines.filter Declaration.startsWithFlag).filterMap Declaration.read?

/-- The default values of a list of declarations. A later one replaces an earlier one of the same
canonical name. -/
def defaultsOf (ds : List Declaration) : NameMap String :=
  ds.foldl (fun m d =>
    match d.defaultValue with
    | some value => m.insert d.flags.canonicalName value
    | none => m) .empty

/-- The program's name: the one that is given, if the usage line leaves it open. -/
def programName (given : Option String) (token : List Char) : String :=
  match given with
  | some program => if token = programToken then program else String.ofList token
  | none => String.ofList token

/-- Put a usage together from the parts of its text. -/
def assemble (program : String) (text : List Char) (elements : List UsageLine.Element) : Usage :=
  let declarations :=
    UsageLine.inlineDeclarations elements ++ listedDeclarations (Text.lines text)
  let options := OptionSpec.ofDeclarations declarations
  { program
    message := String.ofList (helpText program.toList text)
    arguments := UsageLine.positionals elements
    options
    flagTable := OptionSpec.flagTable options
    defaults := defaultsOf declarations }

/-- Read a usage text. `given` is the program's name, if it is known; it replaces a name that the
usage line leaves open. Models `Usage::parse_inner`, and so `parse` and `parse_as`. -/
def read (given : Option String) (text : String) : Except UsageError Usage :=
  match lineTokens? (Text.lines text.toList) with
  | none => .error .missingUsageLine
  | some [] => .error .missingProgramName
  | some (token :: rest) =>
    match UsageLine.elements false (elementTokens rest) with
    | .error e => .error e
    | .ok elements =>
      if UsageLine.isAmbiguous (UsageLine.positionals elements) then .error .ambiguousArity
      else .ok (assemble (programName given token) text.toList elements)

/-- What a source of usage text delivers: its bytes, and the cause if it failed before its end. -/
structure Source where
  bytes : ByteArray
  failure : Option String

/-- Read a usage text from a source. A failure of the source is reported even if its bytes are no
text either. Models `Usage::read`. -/
def readFrom (given : Option String) (source : Source) : Except UsageError Usage :=
  match source.failure with
  | some cause => .error (.unreadable cause)
  | none =>
    match String.fromUTF8? source.bytes with
    | none => .error (.unreadable "stream did not contain valid UTF-8")
    | some text => read given text

/-- The option that a flag token selects. Models `Usage::option`. -/
def option? (usage : Usage) (flag : String) : Option OptionSpec :=
  (usage.flagTable.get? flag).bind fun place => usage.options[place]?

/-- The default value of the option with a canonical name. Models `Usage::default_value`. -/
def default? (usage : Usage) (name : String) : Option String := usage.defaults.get? name

/-- How many positionals have the arity. -/
def count (usage : Usage) (arity : Arity) : Nat :=
  usage.arguments.countP (·.arity = arity)

/-- How many positionals take exactly one value. -/
def requiredCount (usage : Usage) : Nat := usage.count .required

/-- How many positionals take at most one value. -/
def optionalCount (usage : Usage) : Nat := usage.count .optional

/-- Whether a positional takes a run of values. Models `Usage::has_vararg`. -/
def hasRepeated (usage : Usage) : Bool := usage.arguments.any (·.arity = .repeated)

/-- How many positional values the command line takes. -/
def bound (usage : Usage) : Bound := Bound.ofArguments usage.arguments

end Usage

end Synopsis
