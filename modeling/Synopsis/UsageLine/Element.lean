import Synopsis.Arity
import Synopsis.Declaration
import Synopsis.Usage.Error

/-!
# Elements of the usage line

The tokens after the program name form elements: positionals and options declared in brackets. A
required positional is a bare name, an optional one a name in brackets, and a repeated one a name
with an ellipsis, either attached or as the next token.
-/

namespace Synopsis.UsageLine

/-- What a single token is. -/
inductive Shape where
  /-- An option in brackets. -/
  | option (declaration : Declaration)
  /-- A name in brackets. -/
  | bracketed (name : List Char)
  /-- A name with an ellipsis attached. -/
  | dotted (name : List Char)
  /-- A bare name. -/
  | bare (name : List Char)
deriving DecidableEq, Repr

/-- The mark of a repeated positional. -/
def ellipsis : List Char := ['.', '.', '.']

/-- The inside of a token in brackets. -/
def inside? (token : List Char) : Option (List Char) :=
  (Text.after? ['['] token).bind (Text.before? [']'])

/-- What the inside of a pair of brackets is. -/
def Shape.ofInside? (inner : List Char) : Option Shape :=
  if inner.head? = some '-' then (Declaration.read? inner).map .option
  else if Text.isName inner then some (.bracketed inner)
  else none

/-- What a token without brackets is. -/
def Shape.ofWord? (token : List Char) : Option Shape :=
  match (Text.before? ellipsis token).filter Text.isName with
  | some name => some (.dotted name)
  | none => if Text.isName token then some (.bare token) else none

/-- What a token is, if it can stand on a usage line. -/
def Shape.ofToken? (token : List Char) : Option Shape :=
  match inside? token with
  | some inner => ofInside? inner
  | none => ofWord? token

/-- A part of the usage line. -/
inductive Element where
  | positional (argument : Argument)
  | option (declaration : Declaration)
deriving DecidableEq, Repr

/-- The positional with the canonical spelling of the name. -/
def Element.named (name : List Char) (arity : Arity) : Element :=
  .positional ⟨String.ofList (Text.canonical name), arity⟩

/-- The elements that a list of tokens forms, from left to right. `dotted` tells whether a repeated
positional came before: there may be one only. Models the loop in `classify`, with `push_vararg`. -/
def elements (dotted : Bool) : List (List Char) → Except UsageError (List Element)
  | [] => .ok []
  | token :: rest =>
    match Shape.ofToken? token with
    | none => .error (.invalidToken (String.ofList token))
    | some (.option declaration) => (elements dotted rest).map (.option declaration :: ·)
    | some (.bracketed name) => (elements dotted rest).map (.named name .optional :: ·)
    | some (.dotted name) =>
      if dotted then .error .multipleRepeated
      else (elements true rest).map (.named name .repeated :: ·)
    | some (.bare name) =>
      match rest with
      | [] => .ok [.named name .required]
      | next :: rest =>
        if next = ellipsis then
          if dotted then .error .multipleRepeated
          else (elements true rest).map (.named name .repeated :: ·)
        else (elements dotted (next :: rest)).map (.named name .required :: ·)

/-- The positionals among the elements, in order. -/
def positionals (elements : List Element) : List Argument :=
  elements.filterMap fun
    | .positional argument => some argument
    | .option _ => none

/-- The options among the elements, in order. -/
def inlineDeclarations (elements : List Element) : List Declaration :=
  elements.filterMap fun
    | .positional _ => none
    | .option declaration => some declaration

/-- Whether values could be attributed to the positionals in more than one way. Models the check at
the end of `classify`. -/
def isAmbiguous (arguments : List Argument) : Bool :=
  arguments.any (·.arity = .optional) && arguments.any (·.arity = .repeated)

end Synopsis.UsageLine
