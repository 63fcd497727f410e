import Synopsis.Record.Item
import Synopsis.Record.Snippet.Lexeme

/-!
# Paths and types of source

A path is a row of words with separators between them, and a word may have arguments in angle
brackets. Angle brackets do not always come in pairs, so they are matched only where arguments can
stand: after a separator, and in types also directly after a word.

Types are read for the last word of the path that they are, if they are one, and for where they
end. `plus` says whether a sum of bounds is allowed: it is not where the sum would be read as an
addition or as bounds of a type around.
-/

namespace Synopsis.Record.Snippet

/-! ## Paths -/

/-- What follows the angle bracket that closes the outermost of `depth` open ones. -/
def afterAngles : (depth : Nat) → List Lexeme → List Lexeme
  | _, [] => []
  | depth, .sign '<' _ :: rest => afterAngles (depth + 1) rest
  | depth, .sign '>' _ :: rest => if depth ≤ 1 then rest else afterAngles (depth - 1) rest
  | depth, _ :: rest => afterAngles depth rest

/-- What follows the arguments after a separator, if there are any. -/
def afterTypeArguments? : List Lexeme → Option (List Lexeme)
  | .separator :: .sign '<' _ :: rest => some (afterAngles 1 rest)
  | _ => none

/-- What follows the arguments of a word, if it has any. -/
def afterArguments? (inType : Bool) (ls : List Lexeme) : Option (List Lexeme) :=
  match ls with
  | .sign '<' _ :: rest =>
    if inType && !startsWith "<=" ls && !startsWith "<<=" ls then some (afterAngles 1 rest)
    else none
  | _ => afterTypeArguments? ls

/-- A word of a path, and whether it has arguments. -/
structure Segment where
  word : String
  applied : Bool
deriving DecidableEq, Repr

/-- Read the segments of a path, at most `fuel` of them. -/
def readSegments (inType : Bool) : (fuel : Nat) → List Lexeme → List Segment × List Lexeme
  | fuel + 1, .word x :: ls =>
    let arguments := afterArguments? inType ls
    match arguments.getD ls with
    | .separator :: .word y :: rest =>
      let (segments, rest) := readSegments inType fuel (.word y :: rest)
      (⟨x, arguments.isSome⟩ :: segments, rest)
    | rest => ([⟨x, arguments.isSome⟩], rest)
  | _, ls => ([], ls)

/-- Where a path starts. -/
inductive Root where
  /-- At its first word. -/
  | plain
  /-- At a separator. -/
  | global
  /-- At a type in angle brackets. -/
  | qualified
deriving DecidableEq, Repr

/-- Read the start of a path. -/
def readRoot : List Lexeme → Root × List Lexeme
  | .sign '<' _ :: rest => (.qualified, (afterAngles 1 rest).drop 1)
  | .separator :: rest => (.global, rest)
  | ls => (.plain, ls)

/-! ## Types -/

/-- Whether a bound can start with the lexemes. -/
def startsBound : List Lexeme → Bool
  | .word _ :: _ => true
  | .separator :: _ => true
  | .lifetime :: _ => true
  | .bracketed _ :: _ => true
  | .sign c _ :: _ => c == '?' || c == '~' || c == '<'
  | _ => false

/-- The words and signs that may stand before the path of a bound. -/
def isBoundMark : Lexeme → Bool
  | .word x => x == "async" || x == "const"
  | .sign c _ => c == '?' || c == '~'
  | .bracketed c => c == '['
  | _ => false

/-- What follows the words and lifetimes between the sign of a reference or pointer and its
type. -/
def afterPointer : List Lexeme → List Lexeme
  | .lifetime :: rest => afterPointer rest
  | .word x :: rest => if x = "mut" ∨ x = "const" then rest else .word x :: rest
  | ls => ls

mutual

/-- Read a type. -/
def readType : (fuel : Nat) → (plus : Bool) → List Lexeme → FieldType × List Lexeme
  | 0, _, ls => (.other, ls)
  | fuel + 1, plus, ls =>
    match ls with
    | .bracketed '(' :: rest => (.other, moreBounds fuel plus rest)
    | .bracketed _ :: rest => (.other, rest)
    | .lifetime :: _ => (.other, bounds fuel plus ls)
    | .sign '*' _ :: rest => (.other, (readType fuel false (afterPointer rest)).2)
    | .sign '&' _ :: rest => (.other, (readType fuel false (afterPointer rest)).2)
    | .sign '<' _ :: _ => pathType fuel plus ls
    | .sign _ _ :: rest => (.other, rest)
    | .other :: rest => (.other, rest)
    | .word "for" :: .sign '<' _ :: rest => (.other, (readType fuel plus (afterAngles 1 rest)).2)
    | .word "builtin" :: .sign '#' _ :: rest => (.other, rest.drop 2)
    | .word x :: rest =>
      if ["fn", "unsafe", "extern"].contains x then
        (.other, afterResult fuel ((ls.dropWhile (· != .bracketed '(')).drop 1))
      else if x = "dyn" ∨ x = "impl" then (.other, bounds fuel plus rest)
      else pathType fuel plus ls
    | _ => pathType fuel plus ls

/-- What follows a result type, if there is one. -/
def afterResult : (fuel : Nat) → List Lexeme → List Lexeme
  | fuel + 1, .arrow :: rest => (readType fuel false rest).2
  | _, ls => ls

/-- Read a type that starts like a path. It may turn out to be a macro or a sum of bounds. -/
def pathType : (fuel : Nat) → (plus : Bool) → List Lexeme → FieldType × List Lexeme
  | 0, _, ls => (.other, ls)
  | fuel + 1, plus, ls =>
    match readPath fuel ls with
    | (none, rest) => (.other, rest)
    | (some last, rest) =>
      match rest with
      | .sign '!' _ :: .bracketed _ :: rest => (.other, rest)
      | .sign '+' _ :: _ => if plus then (.other, moreBounds fuel plus rest) else (.path last, rest)
      | _ => (.path last, rest)

/-- Read a path in a type for its last word. -/
def readPath : (fuel : Nat) → List Lexeme → Option String × List Lexeme
  | 0, ls => (none, ls)
  | fuel + 1, ls =>
    let (segments, rest) := readSegments true ls.length (readRoot ls).2
    match segments.getLast? with
    | none => (none, rest)
    | some last => readParameters fuel last rest

/-- Read the parameter types in parentheses that may follow the last word of a path, and their
result type. The path goes on after the parameters, or after a result type in parentheses. -/
def readParameters : (fuel : Nat) → Segment → List Lexeme → Option String × List Lexeme
  | 0, last, ls => (some last.word, ls)
  | fuel + 1, last, ls =>
    match last.applied, ls with
    | false, .bracketed '(' :: rest => afterParameters fuel last.word rest
    | false, .separator :: .bracketed '(' :: rest => afterParameters fuel last.word rest
    | _, _ => (some last.word, ls)

/-- Read what follows the parameter types after a word. -/
def afterParameters : (fuel : Nat) → String → List Lexeme → Option String × List Lexeme
  | 0, x, ls => (some x, ls)
  | fuel + 1, x, ls =>
    match ls with
    | .separator :: .word y :: rest => readPath fuel (.word y :: rest)
    | .arrow :: .bracketed '(' :: .separator :: .word y :: rest => readPath fuel (.word y :: rest)
    | _ => (some x, afterResult fuel ls)

/-- What follows a sum of bounds, or its first bound where no sum is allowed. -/
def bounds : (fuel : Nat) → (plus : Bool) → List Lexeme → List Lexeme
  | 0, _, ls => ls
  | fuel + 1, plus, ls =>
    match ls with
    | .lifetime :: rest => moreBounds fuel plus rest
    | .bracketed '(' :: rest => moreBounds fuel plus rest
    | .word "for" :: .sign '<' _ :: rest => bounds fuel plus (afterAngles 1 rest)
    | .word "use" :: .sign '<' _ :: rest => moreBounds fuel plus (afterAngles 1 rest)
    | l :: rest =>
      if isBoundMark l then bounds fuel plus rest
      else moreBounds fuel plus (readPath fuel ls).2
    | [] => []

/-- What follows the bounds that are added to those read before. -/
def moreBounds : (fuel : Nat) → (plus : Bool) → List Lexeme → List Lexeme
  | fuel + 1, true, .sign '+' _ :: rest => if startsBound rest then bounds fuel true rest else rest
  | _, _, ls => ls

end

/-- A bound on the calls that reading a type takes: no more than four for each lexeme. -/
def typeFuel (ls : List Lexeme) : Nat := 4 * ls.length + 4

/-- What follows a type. -/
def afterType (plus : Bool) (ls : List Lexeme) : List Lexeme := (readType (typeFuel ls) plus ls).2

/-- Read the type of a field. -/
def fieldType (source : String) : FieldType :=
  let ls := lexemes source
  (readType (typeFuel ls) true ls).1

end Synopsis.Record.Snippet
