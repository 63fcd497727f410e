/-!
# Pointing at a token

An argument list is shown on one line, and below it a caret points at the token at fault. Columns
count characters.
-/

namespace Synopsis

/-- An argument list and the offset of the token at fault. Models `ErrorContext`. -/
structure Caret where
  offset : Nat
  tokens : List String
deriving DecidableEq, Repr

namespace Caret

/-- The argument list on one line. -/
def line (c : Caret) : String := " ".intercalate c.tokens

/-- How much of the line the tokens take up, each with the space that follows it. -/
def extent : List String → Nat
  | [] => 0
  | t :: rest => t.length + 1 + extent rest

/-- The column of the caret: the first character of the token at fault, or one space past the
end of a line that is not empty. -/
def column (c : Caret) : Nat :=
  if c.offset < c.tokens.length then extent (c.tokens.take c.offset)
  else if c.tokens.isEmpty then 0
  else c.line.length + 1

/-- The argument list, and the caret below it. Models how an `ErrorContext` is displayed. -/
def render (c : Caret) : String :=
  c.line ++ "\n" ++ String.ofList (List.replicate c.column ' ') ++ "^"

end Caret

end Synopsis
