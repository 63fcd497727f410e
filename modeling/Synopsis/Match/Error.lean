import Synopsis.Value

/-!
# Errors of an argument list

A `MatchError` says what is wrong with an argument list, and a `Failure` also where: at the
offset of a token, or at the number of tokens when the list ends too early.
-/

namespace Synopsis

/-- Why an argument list does not fit a usage. Models `ParseError`. -/
inductive MatchError where
  /-- A positional value stands before an option. -/
  | argumentsBeforeOption (option : String)
  /-- A letter of a group of short flags is not declared. `suggestion` is the long flag that the
  group spells, if that is declared. -/
  | unknownShorthand (letter : Char) (group : String) (suggestion : Option String)
  /-- An option is not declared. -/
  | unknownOption (option : String)
  /-- An option that takes a value is followed by none. -/
  | missingOptionValue (option : String)
  /-- The value of an option is not of the option's kind. -/
  | invalidTypedValue (value option : String) (expected : Kind)
  /-- There are more positional values than the usage takes. -/
  | tooManyArguments (min max : Nat)
  /-- There are fewer positional values than the usage asks for. `hint` is the last option, if
  that took a value and so may have taken one too many. -/
  | tooFewArguments (min received : Nat) (hint : Option String)
  /-- A state that matching cannot reach. -/
  | internalInconsistency (detail : String)
deriving DecidableEq, Repr

namespace MatchError

/-- A number of values, or a range of such numbers. Models `count_range`. -/
def countText (min max : Nat) : String :=
  if min = max then toString min else toString min ++ "-" ++ toString max

/-- A number of values that was too small. Models `received_phrase`. -/
def shortfallText : Nat → String
  | 0 => "none"
  | 1 => "only one"
  | _ => "too few"

/-- The error in words. -/
def message : MatchError → String
  | .argumentsBeforeOption option =>
    "Unexpected arguments found before option '" ++ option ++
      "', please provide all options before arguments"
  | .unknownShorthand letter group suggestion =>
    "Found unknown option -" ++ String.ofList [letter] ++ " inside '" ++ group ++ "'" ++
      (match suggestion with
       | some flag => ", did you mean '" ++ flag ++ "'?"
       | none => "")
  | .unknownOption option => "Found unknown option '" ++ option ++ "'"
  | .missingOptionValue option => "Expected argument for option '" ++ option ++ "', got none"
  | .invalidTypedValue value option expected =>
    "Invalid argument \"" ++ value ++ "\" for option '" ++ option ++ "', please provide " ++
      expected.description
  | .tooManyArguments min max =>
    "Expected " ++ countText min max ++ " arguments, but received too many"
  | .tooFewArguments min received hint =>
    "Expected " ++ toString min ++ " required arguments, but received " ++
      shortfallText received ++
      (match hint with
       | some option => " (considering " ++ option ++ " takes an argument)"
       | none => "")
  | .internalInconsistency detail => "Internal error: unreachable state (" ++ detail ++ ")"

end MatchError

/-- An error and the offset of the token at fault. -/
structure Failure where
  offset : Nat
  error : MatchError
deriving DecidableEq, Repr

end Synopsis
