import Synopsis.Calendar.Date
import Synopsis.Calendar.Time
import Synopsis.Numeric.Integer

/-!
# Values of options and positionals

The placeholder of an option decides the *kind* of its value: `NUM` stands for an integer, `DATE`
for a date, `TIME` for a time of day, and every other word for a text. A *value* is what is bound
to a name once an argument list has been matched.
-/

namespace Synopsis

/-- What an option's value has to be. Models `ValueKind`. -/
inductive Kind where
  | plain
  | integer
  | date
  | time
deriving DecidableEq, Repr

/-- What is bound to a name. -/
inductive Value where
  /-- A text as it was given: positional values, values of plain options and defaults. -/
  | text (s : String)
  | integer (n : Int)
  | date (d : Date)
  | time (t : Time)
  /-- The values of a repeated positional. -/
  | list (items : List String)
deriving DecidableEq

/-- The kind that a placeholder asks for. Models `ValueKind::from_placeholder`. -/
def Kind.ofPlaceholder (word : String) : Kind :=
  if word = "NUM" then .integer
  else if word = "DATE" then .date
  else if word = "TIME" then .time
  else .plain

/-- The kind in words, as a message to the user has it. -/
def Kind.description : Kind → String
  | .plain => "a value"
  | .integer => "an integer value"
  | .date => "a date (e.g. YYYY-MM-DD)"
  | .time => "a timestamp (e.g. HH:MM:SS)"

/-- The date that a text names in one of the forms of an option's value. -/
def Date.coerce? (s : List Char) : Option Date :=
  Date.Pattern.ofOption.findSome? fun p => p.read? s

/-- The time that a text names in one of the forms of an option's value. -/
def Time.coerce? (s : List Char) : Option Time :=
  Time.Pattern.ofOption.findSome? fun p => p.read? s

/-- The value of the kind that a text names, with the forms of dates and times in a given order. -/
def Kind.coerceIn (dates : List Date.Pattern) (times : List Time.Pattern) (kind : Kind)
    (raw : String) : Option Value :=
  match kind with
  | .plain => some (.text raw)
  | .integer => (IntegerType.int64.read? raw.toList).map .integer
  | .date => (dates.findSome? fun p => p.read? raw.toList).map .date
  | .time => (times.findSome? fun p => p.read? raw.toList).map .time

/-- The value of the kind that a text names, if it names one. Models `ValueKind::coerce`. -/
def Kind.coerce? (kind : Kind) (raw : String) : Option Value :=
  kind.coerceIn Date.Pattern.ofOption Time.Pattern.ofOption raw

namespace Kind

variable (raw : String)

@[simp] theorem coerce?_plain : plain.coerce? raw = some (.text raw) := rfl

@[simp] theorem coerce?_integer :
    integer.coerce? raw = (IntegerType.int64.read? raw.toList).map .integer := rfl

@[simp] theorem coerce?_date : date.coerce? raw = (Date.coerce? raw.toList).map .date := rfl

@[simp] theorem coerce?_time : time.coerce? raw = (Time.coerce? raw.toList).map .time := rfl

end Kind

/-- The value as text. A list is its items with a space between each two. Models how a `Value` is
displayed. -/
def Value.render : Value → String
  | .text s => s
  | .integer n => String.ofList (Decimal.signed n)
  | .date d => String.ofList d.render
  | .time t => String.ofList t.render
  | .list items => " ".intercalate items

end Synopsis
