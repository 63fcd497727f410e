import Synopsis.Record.Snippet.Expression

/-!
# Reading snippets of source

The attributes and types of a record declaration come as snippets of Rust source. Types are read by
`fieldType`, and attributes here: a path, and what follows it. A list of arguments is read as
expressions with commas between them, each of which may turn out to be an assignment. It is not
readable if something else follows an expression, or if there is none before a comma; within an
expression the source is taken to be well formed.
-/

namespace Synopsis.Record.Snippet

/-- The form as an argument of an attribute. -/
def Form.toArgument : Form → Argument
  | .assignment key value => .assign key value
  | form => .lone form.toExpr

/-- Read arguments, at most `fuel` of them, or tell what is wrong. A comma may follow the last
one. -/
def readArguments : (fuel : Nat) → List Lexeme → Except String (List Argument)
  | _, [] => .ok []
  | 0, _ => .error "expected an expression"
  | fuel + 1, ls =>
    let (form, rest) := readExpr (exprFuel ls) true 0 ls
    if rest.length < ls.length then
      match rest with
      | [] => .ok [form.toArgument]
      | .sign ',' _ :: rest => (readArguments fuel rest).map (form.toArgument :: ·)
      | _ => .error "expected `,`"
    else .error "expected an expression"

/-- The kind of brackets that a character opens. -/
def delimiter? : Char → Option Delimiter
  | '(' => some .parenthesis
  | '[' => some .bracket
  | '\x7b' => some .brace
  | _ => none

/-- Read what follows the path of an attribute, brackets taken one by one: a list up to the bracket
that closes it, or else a value after an equals sign. -/
def attributeBody : List Lexeme → AttributeBody
  | [] => .bare
  | .sign c _ :: rest =>
    match delimiter? c with
    | none => .value (formOf (fold 0 rest)).toExpr
    | some delimiter =>
      let ls := fold 0 rest.dropLast
      match readArguments ls.length ls with
      | .ok args => .arguments delimiter args
      | .error reason => .unreadable delimiter reason
  | _ :: _ => .bare

/-- Whether the lexeme can be part of the path of an attribute. -/
def isPathPart : Lexeme → Bool
  | .word _ => true
  | .separator => true
  | _ => false

/-- Read an attribute, without the hash and the brackets around it. -/
def attributeOf (source : String) : Attribute :=
  let ls := flatLexemes source.toList
  ⟨(readPathExpr false (ls.takeWhile isPathPart)).1.toExpr,
    attributeBody (ls.dropWhile isPathPart)⟩

end Synopsis.Record.Snippet
