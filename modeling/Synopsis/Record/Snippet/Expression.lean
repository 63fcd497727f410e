import Synopsis.Record.Snippet.Path

/-!
# Expressions of source

An expression is an operand, or operands with operators between them. Expressions are read for
what attributes tell apart: identifiers, other paths, string literals and assignments. All else is
alike, but has to be read for where it ends, because some expressions take in an assignment that
follows them and others leave it to the expression around.

`structs` says whether curly brackets after a path belong to it. In the condition of a branch or a
loop they do not, since they start its body.
-/

namespace Synopsis.Record.Snippet

/-- What an expression turned out to be. -/
inductive Form where
  /-- An expression as attributes see it. -/
  | expr (expr : Expr)
  /-- A range, which no operator can follow. -/
  | range
  /-- An assignment. -/
  | assignment (key value : Expr)
deriving DecidableEq, Repr

namespace Form

/-- An expression that is nothing in particular. -/
def other : Form := .expr .other

/-- The form as a part of another expression. -/
def toExpr : Form → Expr
  | .expr e => e
  | _ => .other

/-- The form with an attribute before it. A literal with an attribute is no mere literal. -/
def withAttribute : Form → Form
  | .expr (.text _) => other
  | f => f

end Form

/-! ## Operators -/

/-- What stands between operands, as far as it matters for where an expression ends. -/
inductive Operator where
  | assignment
  /-- An assignment joined with another operator. -/
  | update
  | range (closed : Bool)
  /-- A conjunction or disjunction. -/
  | logical
  /-- Comparisons and all that bind more tightly. -/
  | tight
  /-- A conversion, with a type after it. -/
  | cast
deriving DecidableEq, Repr

namespace Operator

/-- How tightly an operator binds. -/
def strength : Operator → Nat
  | assignment => 1
  | update => 1
  | range _ => 2
  | logical => 3
  | tight => 4
  | cast => 4

/-- How tightly an operator binds that may stand in the right operand. Assignments group to the
right, the others to the left. -/
def rightStrength : Operator → Nat
  | assignment => 1
  | update => 1
  | o => o.strength + 1

end Operator

/-- The operators by their signs. Where one sign starts another, the longer one comes first. -/
def operatorSigns : List (String × Operator) :=
  [("+=", .update), ("-=", .update), ("*=", .update), ("/=", .update), ("%=", .update),
    ("^=", .update), ("&=", .update), ("|=", .update), ("<<=", .update), (">>=", .update),
    ("&&", .logical), ("||", .logical), ("<<", .tight), (">>", .tight), ("==", .tight),
    ("<=", .tight), ("!=", .tight), (">=", .tight), ("+", .tight), ("-", .tight), ("*", .tight),
    ("/", .tight), ("%", .tight), ("^", .tight), ("&", .tight), ("|", .tight), ("<", .tight),
    (">", .tight), ("=", .assignment), ("..=", .range true), ("..", .range false)]

/-- The operator at the start, and what follows it. -/
def readOperator? (ls : List Lexeme) : Option (Operator × List Lexeme) :=
  match ls with
  | .word "as" :: rest => some (.cast, rest)
  | _ => operatorSigns.findSome? fun (sign, o) => (afterSign? sign.toList ls).map (o, ·)

/-- Whether an operand can start with the lexemes. -/
def startsOperand (ls : List Lexeme) : Bool :=
  match ls with
  | [] => false
  | .arrow :: _ => false
  | .word x :: _ => x != "as"
  | .sign c _ :: _ =>
    c == '#' || startsWith ".." ls ||
      ['!', '-', '*', '|', '&', '<'].contains c && !startsWith (String.ofList [c, '=']) ls &&
        !startsWith "<<=" ls
  | _ => true

/-- The signs that end a range without an upper end. -/
def rangeEnds : List String :=
  [",", ";", ".", "?", "=", "+", "/", "%", "^", ">", "<=", "!=", "-=", "*=", "&=", "|=", "<<="]

/-- Whether a range that may lack its upper end does so. -/
def endsRange (structs : Bool) (ls : List Lexeme) : Bool :=
  match ls with
  | [] => true
  | .word x :: _ => x == "as"
  | .bracketed c :: _ => c == '\x7b' && !structs
  | _ => rangeEnds.any (startsWith · ls) && !startsWith ".." ls

/-! ## Parts of operands -/

/-- What follows a block. -/
def afterBlock (ls : List Lexeme) : List Lexeme := ls.drop 1

/-- What follows a label, if there is one. -/
def afterLabel : List Lexeme → List Lexeme
  | .lifetime :: rest => rest
  | ls => ls

/-- What follows the words between the sign of a reference and its operand. -/
def afterBorrow : List Lexeme → List Lexeme
  | .word "raw" :: .word "mut" :: rest => rest
  | .word "raw" :: .word "const" :: rest => rest
  | .word "mut" :: rest => rest
  | ls => ls

/-- Whether the lexeme is the bar around the parameters of a closure. -/
def isBar : Lexeme → Bool
  | .sign c _ => c == '|'
  | _ => false

/-- What follows the parameters of a closure, and the words before them. -/
def afterBars (ls : List Lexeme) : List Lexeme :=
  let next (ls : List Lexeme) := (ls.dropWhile fun l => !isBar l).drop 1
  next (next ls)

/-- Whether the lexemes after the word `for` introduce the lifetimes of a closure. -/
def startsBinder : List Lexeme → Bool
  | .sign '<' _ :: .lifetime :: _ => true
  | .sign '<' _ :: .sign '>' _ :: _ => true
  | _ => false

/-- What follows the equals sign after a pattern, inside `depth` angle brackets. The one of a
closed range is part of the pattern. -/
def afterPattern : (depth : Nat) → List Lexeme → List Lexeme
  | _, [] => []
  | depth, .sign '.' true :: .sign '=' _ :: rest => afterPattern depth rest
  | depth, .sign '<' _ :: rest => afterPattern (depth + 1) rest
  | depth, .sign '>' _ :: rest => afterPattern (depth - 1) rest
  | depth, .sign '=' _ :: rest => if depth = 0 then rest else afterPattern depth rest
  | depth, _ :: rest => afterPattern depth rest

/-- Read a path as an expression. With brackets after it, it is a macro or the value of a
struct. -/
def readPathExpr (structs : Bool) (ls : List Lexeme) : Form × List Lexeme :=
  let (root, start) := readRoot ls
  let (segments, rest) := readSegments false start.length start
  let named : Expr :=
    match root, segments with
    | .plain, [⟨x, false⟩] => .identifier x
    | _, _ => .path
  match rest with
  | .sign '!' _ :: .bracketed _ :: rest => (.other, rest)
  | .bracketed c :: body => if c = '\x7b' ∧ structs then (.other, body) else (.expr named, rest)
  | _ => (.expr named, rest)

/-- Read what may follow the first part of an operand: calls, indices, members and questions. -/
def readTrailers : (fuel : Nat) → Form → List Lexeme → Form × List Lexeme
  | 0, f, ls => (f, ls)
  | fuel + 1, f, ls =>
    match f, ls with
    | .range, _ => (f, ls)
    | _, .bracketed c :: rest => if c = '\x7b' then (f, ls) else readTrailers fuel .other rest
    | _, .sign '?' _ :: rest => readTrailers fuel .other rest
    | _, .sign '.' _ :: _ :: rest =>
      if startsWith ".." ls then (f, ls)
      else readTrailers fuel .other ((afterTypeArguments? rest).getD rest)
    | _, _ => (f, ls)

/-! ## Expressions -/

mutual

/-- Read an expression whose operators all bind at least as tightly as `strength`. -/
def readExpr : (fuel : Nat) → (structs : Bool) → (strength : Nat) → List Lexeme →
    Form × List Lexeme
  | 0, _, _, ls => (.other, ls)
  | fuel + 1, structs, strength, ls =>
    let (first, rest) := readOperand fuel structs ls
    readOperators fuel structs strength first rest

/-- Read the operators that follow an expression, with their right operands. -/
def readOperators : (fuel : Nat) → (structs : Bool) → (strength : Nat) → Form → List Lexeme →
    Form × List Lexeme
  | 0, _, _, left, ls => (left, ls)
  | fuel + 1, structs, strength, left, ls =>
    match left, readOperator? ls with
    | .range, _ => (left, ls)
    | _, none => (left, ls)
    | _, some (o, rest) =>
      if o.strength < strength then (left, ls)
      else
        match o with
        | .cast => readOperators fuel structs strength .other (afterType false rest)
        | .range closed => (.range, afterRangeEnd fuel structs closed rest)
        | .assignment =>
          let (right, rest) := readExpr fuel structs o.rightStrength rest
          readOperators fuel structs strength (.assignment left.toExpr right.toExpr) rest
        | _ =>
          let (_, rest) := readExpr fuel structs o.rightStrength rest
          readOperators fuel structs strength .other rest

/-- What follows the upper end of a range, if it has one. -/
def afterRangeEnd : (fuel : Nat) → (structs closed : Bool) → List Lexeme → List Lexeme
  | 0, _, _, ls => ls
  | fuel + 1, structs, closed, ls =>
    if !closed && endsRange structs ls then ls
    else (readExpr fuel structs (Operator.range closed).rightStrength ls).2

/-- Read an operand: what stands between operators. -/
def readOperand : (fuel : Nat) → (structs : Bool) → List Lexeme → Form × List Lexeme
  | 0, _, ls => (.other, ls)
  | fuel + 1, structs, ls =>
    match ls with
    | .sign '#' _ :: .bracketed '[' :: rest =>
      let (form, rest) := readOperand fuel structs rest
      (form.withAttribute, rest)
    | .sign '&' _ :: rest => (.other, (readOperand fuel structs (afterBorrow rest)).2)
    | .sign '*' _ :: rest => (.other, (readOperand fuel structs rest).2)
    | .sign '!' _ :: rest => (.other, (readOperand fuel structs rest).2)
    | .sign '-' _ :: rest => (.other, (readOperand fuel structs rest).2)
    | _ =>
      let (form, rest) := readFirst fuel structs ls
      readTrailers rest.length form rest

/-- Read the first part of an operand. -/
def readFirst : (fuel : Nat) → (structs : Bool) → List Lexeme → Form × List Lexeme
  | 0, _, ls => (.other, ls)
  | fuel + 1, structs, ls =>
    match ls with
    | .text value :: rest => (.expr (.text value), rest)
    | .other :: rest => (.other, rest)
    | .bracketed _ :: rest => (.other, rest)
    | .lifetime :: rest => readFirst fuel structs (rest.drop 1)
    | .sign '|' _ :: _ => (.other, afterClosure fuel structs ls)
    | .sign '.' _ :: _ =>
      match readOperator? ls with
      | some (.range closed, rest) => (.range, afterRangeEnd fuel structs closed rest)
      | _ => (.other, ls)
    | .word x :: rest =>
      match afterKeyword? fuel structs x rest with
      | some rest => (.other, rest)
      | none => readPathExpr structs ls
    | _ => readPathExpr structs ls

/-- What follows a closure. A closure with a result type has a block for its body. -/
def afterClosure : (fuel : Nat) → (structs : Bool) → List Lexeme → List Lexeme
  | 0, _, ls => ls
  | fuel + 1, structs, ls =>
    match afterBars ls with
    | .arrow :: rest => afterBlock (afterType true rest)
    | rest => (readExpr fuel structs 0 rest).2

/-- What follows the operand of a jump, if it has one. -/
def afterJump : (fuel : Nat) → List Lexeme → List Lexeme
  | 0, ls => ls
  | fuel + 1, ls => if startsOperand ls then (readExpr fuel true 0 ls).2 else ls

/-- What follows a condition, or whatever stands before a body, and the body. -/
def afterCondition : (fuel : Nat) → List Lexeme → List Lexeme
  | 0, ls => ls
  | fuel + 1, ls => afterBlock (readExpr fuel false 0 ls).2

/-- What follows a branch after its first word. -/
def afterBranch : (fuel : Nat) → List Lexeme → List Lexeme
  | 0, ls => ls
  | fuel + 1, ls =>
    match afterCondition fuel ls with
    | .word "else" :: .word "if" :: rest => afterBranch fuel rest
    | .word "else" :: rest => afterBlock rest
    | rest => rest

/-- What follows an expression that starts with a keyword, from what follows the keyword. For
other words there is none. -/
def afterKeyword? : (fuel : Nat) → (structs : Bool) → (word : String) → List Lexeme →
    Option (List Lexeme)
  | 0, _, _, _ => none
  | fuel + 1, structs, word, ls =>
    match word, ls with
    | "true", _ => some ls
    | "false", _ => some ls
    | "async", .bracketed '\x7b' :: rest => some rest
    | "async", .word "move" :: .bracketed '\x7b' :: rest => some rest
    | "async", _ => some (afterClosure fuel structs ls)
    | "become", _ => some (readExpr fuel true 0 ls).2
    | "break", _ =>
      let rest := afterLabel ls
      if rest.head? = some (.bracketed '\x7b') ∧ ¬structs then some rest
      else some (afterJump fuel rest)
    | "builtin", .sign '#' _ :: rest => some (rest.drop 2)
    | "const", .bracketed '\x7b' :: rest => some rest
    | "const", _ => some (afterClosure fuel structs ls)
    | "continue", _ => some (afterLabel ls)
    | "for", _ =>
      if startsBinder ls then some (afterClosure fuel structs ls)
      else some (afterCondition fuel ((ls.dropWhile (· != .word "in")).drop 1))
    | "if", _ => some (afterBranch fuel ls)
    | "let", _ => some (readExpr fuel structs Operator.tight.strength (afterPattern 0 ls)).2
    | "loop", _ => some (afterBlock ls)
    | "match", _ => some (afterCondition fuel ls)
    | "move", _ => some (afterClosure fuel structs ls)
    | "return", _ => some (afterJump fuel ls)
    | "static", _ => some (afterClosure fuel structs ls)
    | "try", .bracketed '\x7b' :: rest => some rest
    | "unsafe", _ => some (afterBlock ls)
    | "while", _ => some (afterCondition fuel ls)
    | "yield", _ => some (afterJump fuel ls)
    | _, _ => none

end

/-- A bound on the calls that reading an expression takes: no more than six for each lexeme. -/
def exprFuel (ls : List Lexeme) : Nat := 6 * ls.length + 6

/-- Read all lexemes as one expression. -/
def formOf (ls : List Lexeme) : Form :=
  match readExpr (exprFuel ls) true 0 ls with
  | (form, []) => form
  | _ => .other

end Synopsis.Record.Snippet
