import Synopsis.Match.Chunk
import Synopsis.Matches

/-!
# Positional values

The values that options leave over are counted against the bound of the usage line and then bound
to the positionals.

If a positional takes a run of values, the positionals before it take the first values, those
after it the last ones, and the run is what lies between. Otherwise the required positionals take
the last values, and the optional ones take those before, as far as they go.
-/

namespace Synopsis.Positional

/-- Accept at least `lower` values. `stop` is the number of tokens in the argument list. -/
def checkLower (lower : Nat) (values : List Token) (lastValued : Option String) (stop : Nat) :
    Except Failure Unit :=
  if values.length < lower then
    .error ⟨stop, .tooFewArguments lower values.length lastValued⟩
  else .ok ()

/-- Accept a number of values that is within the bound. Models `validate_arity`, with
`MatchBuffer::close`. -/
def checkCount (bound : Bound) (values : List Token) (lastValued : Option String) (stop : Nat) :
    Except Failure Unit :=
  match bound with
  | .range lower upper =>
    if upper < values.length then
      match values[upper]? with
      | some excess => .error ⟨excess.offset, .tooManyArguments lower upper⟩
      | none => .error ⟨stop, .internalInconsistency "no value beyond the upper bound"⟩
    else checkLower lower values lastValued stop
  | .atLeast lower => checkLower lower values lastValued stop

/-- The failure of a positional for which no value is left. -/
def exhausted (stop : Nat) (name : String) : Failure :=
  ⟨stop, .internalInconsistency ("no value left for '" ++ name ++ "'")⟩

/-- No value may be left over in the end. -/
def finish (found : Matches) : List Token → Except Failure Matches
  | [] => .ok found
  | v :: _ => .error ⟨v.offset, .internalInconsistency ("leftover token '" ++ v.text ++ "'")⟩

/-- The first `count` values and the others, if there are that many. -/
def drain? (count : Nat) (values : List Token) : Option (List Token × List Token) :=
  if count ≤ values.length then some (values.take count, values.drop count) else none

/-- Bind values from left to right, where one positional takes a run of them. `remaining` counts
the positionals that are still to come. -/
def bindRun (stop : Nat) (found : Matches) (values : List Token) :
    (remaining : Nat) → List Argument → Except Failure Matches
  | _, [] => finish found values
  | 0, ⟨name, _⟩ :: _ =>
    .error ⟨stop, .internalInconsistency ("argument '" ++ name ++ "' was not counted")⟩
  | remaining + 1, ⟨name, .required⟩ :: rest =>
    match values with
    | [] => .error (exhausted stop name)
    | v :: values => bindRun stop (found.set name (.text v.text)) values remaining rest
  | remaining + 1, ⟨name, .repeated⟩ :: rest =>
    if remaining ≤ values.length then
      match drain? (values.length - remaining) values with
      | some (items, values) =>
        bindRun stop (found.set name (.list (items.map Token.text))) values remaining rest
      | none => .error ⟨stop, .internalInconsistency ("run of '" ++ name ++ "' out of range")⟩
    else .error (exhausted stop name)
  | _ + 1, ⟨name, .optional⟩ :: _ =>
    .error ⟨stop,
      .internalInconsistency ("optional argument '" ++ name ++ "' alongside a vararg")⟩

/-- Bind `first` to the optional positionals and `last` to the required ones. -/
def bindSplit (stop : Nat) (found : Matches) (first last : List Token) :
    List Argument → Except Failure Matches
  | [] => finish found first
  | ⟨name, .required⟩ :: rest =>
    match last with
    | [] => .error (exhausted stop name)
    | v :: last => bindSplit stop (found.set name (.text v.text)) first last rest
  | ⟨name, .optional⟩ :: rest =>
    match first with
    | [] => bindSplit stop found [] last rest
    | v :: first => bindSplit stop (found.set name (.text v.text)) first last rest
  | ⟨name, .repeated⟩ :: _ =>
    .error ⟨stop, .internalInconsistency ("unexpected run of values '" ++ name ++ "'")⟩

/-- The offset after the last value. -/
def stopOf (values : List Token) : Nat :=
  match values.getLast? with
  | some v => v.offset + 1
  | none => 0

/-- Bind the positional values to the positionals of the usage. Models `bind_positionals`. -/
def bind (usage : Usage) (found : Matches) (values : List Token) : Except Failure Matches :=
  let stop := stopOf values
  if usage.hasRepeated then bindRun stop found values usage.arguments.length usage.arguments
  else if usage.requiredCount ≤ values.length then
    let optional := values.length - usage.requiredCount
    bindSplit stop found (values.take optional) (values.drop optional) usage.arguments
  else .error (exhausted stop "required arguments")

end Synopsis.Positional
