import Synopsis.Text.Blank
import Synopsis.Text.Search

/-!
# Lexemes of source

Rust source is a sequence of lexemes with blanks and comments between them. A documentation
comment is more than a comment: it stands for an attribute. String literals are read for their
value; the other literals only have to be told apart from what stands around them, so that a quote
or a bracket inside one is not taken for a lexeme. The source is taken to be well formed, and
nothing inside brackets matters, so every bracketed part is one lexeme.
-/

namespace Synopsis.Record.Snippet

/-- A piece of source. -/
inductive Lexeme where
  /-- A word, with the mark of a raw identifier if it has one. -/
  | word (text : String)
  /-- A string literal, by its value. -/
  | text (value : String)
  /-- The other literals and the placeholder. -/
  | other
  | lifetime
  /-- A path separator. -/
  | separator
  /-- The arrow before a result type. -/
  | arrow
  /-- Another sign of one character, and whether the next sign follows at once. -/
  | sign (c : Char) (joined : Bool)
  /-- A part in round, square or curly brackets, by its opening bracket. -/
  | bracketed (opening : Char)
deriving DecidableEq, Repr

/-! ## Blanks and words -/

/-- Whether the character only separates lexemes: white space and the two direction marks. -/
def isSpace (c : Char) : Bool := Text.isBlank c || c == '\u200e' || c == '\u200f'

/-- Whether a word can start with the character. Beyond ASCII every character that is not blank
is taken for a letter. -/
def startsWord (c : Char) : Bool :=
  c.isAlpha || c == '_' || (128 ≤ c.toNat && !isSpace c)

/-- Whether a word can go on with the character. -/
def continuesWord (c : Char) : Bool := startsWord c || c.isDigit

/-- The number of characters at the start that can belong to a word. -/
def wordLength (s : List Char) : Nat := (s.takeWhile continuesWord).length

/-! ## Comments -/

/-- The number of characters up to the end of a line. -/
def lineLength (s : List Char) : Nat := (s.takeWhile (· != '\n')).length

/-- The number of characters up to the end of a block comment, inside `depth` of them: a comment
may hold others. -/
def blockLength : (depth : Nat) → List Char → Nat
  | 0, _ => 0
  | _ + 1, [] => 0
  | depth + 1, '/' :: '*' :: s => blockLength (depth + 2) s + 2
  | depth + 1, '*' :: '/' :: s => blockLength depth s + 2
  | depth + 1, _ :: s => blockLength (depth + 1) s + 1

/-- An attribute without what it says. -/
def attributeMark : List Lexeme := [.sign '#' false, .bracketed '[']

/-- What a comment amounts to, from what follows its opening. It documents if its mark stands once
more, and neither a third time nor as a part of the closing; an exclamation mark documents as
well. -/
def comment (mark : Char) : List Char → List Lexeme
  | '!' :: _ => attributeMark
  | c :: d :: _ => if c = mark ∧ d ≠ mark ∧ d ≠ '/' then attributeMark else []
  | _ => []

/-! ## Literals -/

/-- The quote of characters and the mark of lifetimes. -/
def apostrophe : Char := Char.ofNat 39

/-- The number of characters up to the end of a string literal, after its opening quote. -/
def textLength : List Char → Nat
  | [] => 0
  | '"' :: _ => 1
  | '\\' :: _ :: s => textLength s + 2
  | _ :: s => textLength s + 1

/-- The number of characters before the first occurrence of `closing`. -/
def lengthBefore (closing : List Char) : List Char → Nat
  | [] => 0
  | c :: s => if (Text.after? closing (c :: s)).isSome then 0 else lengthBefore closing s + 1

/-- The value of a hexadecimal digit. -/
def hexDigit (c : Char) : Nat :=
  if c.isDigit then c.toNat - '0'.toNat else c.toLower.toNat - 'a'.toNat + 10

/-- The character with a number given in hexadecimal digits. -/
def charOfHex (ds : List Char) : Char :=
  Char.ofNat ((ds.filter (· != '_')).foldl (fun n d => 16 * n + hexDigit d) 0)

/-- Whether the character is skipped after a backslash at the end of a line. -/
def isContinuationBlank (c : Char) : Bool := c == ' ' || c == '\n' || c == '\r' || c == '\t'

/-- The value of what stands between the quotes of a string literal. A line end of two characters
counts as one, and a backslash before a line end leaves out all blanks up to the next text. -/
def unescape : List Char → List Char
  | [] => []
  | '\\' :: 'n' :: s => '\n' :: unescape s
  | '\\' :: 'r' :: s => '\r' :: unescape s
  | '\\' :: 't' :: s => '\t' :: unescape s
  | '\\' :: '0' :: s => '\x00' :: unescape s
  | '\\' :: 'x' :: a :: b :: s => charOfHex [a, b] :: unescape s
  | '\\' :: 'u' :: '\x7b' :: s =>
    charOfHex (s.takeWhile (· != '\x7d')) :: unescape ((s.dropWhile (· != '\x7d')).drop 1)
  | '\\' :: '\n' :: s => unescape (s.dropWhile isContinuationBlank)
  | '\\' :: '\r' :: s => unescape (s.dropWhile isContinuationBlank)
  | '\\' :: c :: s => c :: unescape s
  | '\r' :: '\n' :: s => '\n' :: unescape s
  | c :: s => c :: unescape s
termination_by s => s.length
decreasing_by
  all_goals
    have h₁ := (List.dropWhile_sublist (l := s) (· != '\x7d')).length_le
    have h₂ := (List.dropWhile_sublist (l := s) isContinuationBlank).length_le
    simp only [List.length_cons, List.length_drop]
    omega

/-- A literal that takes `n` characters of what follows, and its suffix. -/
def withSuffix (literal : Lexeme) (n : Nat) (s : List Char) : Lexeme × Nat :=
  (literal, n + wordLength (s.drop n))

/-- The string literal after its opening quote, and the number of characters it takes. -/
def lexText (s : List Char) : Lexeme × Nat :=
  withSuffix (.text (String.ofList (unescape (s.take (textLength s - 1))))) (textLength s) s

/-- The body of a raw string literal after the letters that introduce it, and the number of
characters it takes. It ends at a quote with as many hashes as stood before the first one. -/
def rawBody? (s : List Char) : Option (List Char × Nat) :=
  let hashes := s.takeWhile (· == '#')
  match s.drop hashes.length with
  | '"' :: body =>
    let n := lengthBefore ('"' :: hashes) body
    some (body.take n, hashes.length + 1 + n + 1 + hashes.length)
  | _ => none

/-- What follows an apostrophe: a character literal or a lifetime. -/
def lexQuote (s : List Char) : Lexeme × Nat :=
  match s with
  | '\\' :: body => withSuffix .other (3 + ((body.drop 1).takeWhile (· != apostrophe)).length) s
  | c :: d :: rest =>
    if d = apostrophe then withSuffix .other 2 s
    else if c = 'r' ∧ d = '#' then (.lifetime, 2 + wordLength rest)
    else (.lifetime, wordLength s)
  | _ => (.lifetime, wordLength s)

/-- Whether the character can stand among the digits of a number. -/
def isNumeral (c : Char) : Bool := c.isDigit || c == '_'

/-- The number of digits at the start. -/
def numeralLength (s : List Char) : Nat := (s.takeWhile isNumeral).length

/-- The length of the fraction that follows the digits of a number. A point before another point
or before a word is none of the number's. -/
def fractionLength : List Char → Nat
  | '.' :: s => if s.head?.any fun c => c == '.' || startsWord c then 0 else 1 + numeralLength s
  | _ => 0

/-- The length of an exponent with a sign. One without a sign reads as a suffix. -/
def exponentLength : List Char → Nat
  | e :: sign :: s =>
    if (e == 'e' || e == 'E') && (sign == '+' || sign == '-') && s.head?.any isNumeral then
      2 + numeralLength s
    else 0
  | _ => 0

/-- The length of what follows the first digit of a number. -/
def numberLength (s : List Char) : Nat :=
  let n := numeralLength s
  let n := n + fractionLength (s.drop n)
  let n := n + exponentLength (s.drop n)
  n + wordLength (s.drop n)

/-! ## Lexemes -/

/-- The lexeme that starts with a word, and how many of the following characters belong to it
besides. Some words introduce a literal: `r` a raw string, `b` and `c` strings of bytes, raw ones
with another `r`, and `b` also a single byte. Before a hash, `r` marks a raw identifier. -/
def lexWord (word s : List Char) : Lexeme × Nat :=
  let plain : Lexeme × Nat := (.word (String.ofList word), 0)
  match word, s with
  | ['_'], _ => (.other, 0)
  | ['r'], '#' :: rest =>
    match rawBody? s with
    | some (body, n) => withSuffix (.text (String.ofList body)) n s
    | none =>
      (.word (String.ofList (word ++ '#' :: rest.takeWhile continuesWord)), 1 + wordLength rest)
  | ['r'], _ =>
    match rawBody? s with
    | some (body, n) => withSuffix (.text (String.ofList body)) n s
    | none => plain
  | ['b'], '"' :: rest => (.other, 1 + (lexText rest).2)
  | ['c'], '"' :: rest => (.other, 1 + (lexText rest).2)
  | ['b'], c :: rest => if c = apostrophe then (.other, 1 + (lexQuote rest).2) else plain
  | [c, 'r'], _ =>
    match rawBody? s with
    | some (_, n) => if c = 'b' ∨ c = 'c' then withSuffix .other n s else plain
    | none => plain
  | _, _ => plain

/-- The characters of signs. -/
def signs : List Char :=
  ['~', '!', '@', '#', '$', '%', '^', '&', '*', '-', '=', '+', '|', ';', ':', ',', '<', '.', '>',
    '/', '?', apostrophe]

/-- Whether the text starts with a sign. The slash of a comment is none. -/
def startsSign : List Char → Bool
  | '/' :: '/' :: _ => false
  | '/' :: '*' :: _ => false
  | c :: _ => signs.contains c
  | [] => false

/-- The lexeme that starts with a sign or a bracket, and how many of the following characters
belong to it. -/
def lexSign (c : Char) (s : List Char) : Lexeme × Nat :=
  match c, s with
  | ':', ':' :: _ => (.separator, 1)
  | '-', '>' :: _ => (.arrow, 1)
  | _, _ => (.sign c (startsSign s), 0)

/-- The lexeme that starts with a character, and how many of the following ones belong to it. -/
def lexeme (c : Char) (s : List Char) : Lexeme × Nat :=
  if startsWord c then
    let n := wordLength s
    let (l, m) := lexWord (c :: s.take n) (s.drop n)
    (l, n + m)
  else if c.isDigit then (.other, numberLength s)
  else if c = '"' then lexText s
  else if c = apostrophe then lexQuote s
  else lexSign c s

/-- What starts with a character, and how many of the following ones belong to it. -/
def step (c : Char) (s : List Char) : List Lexeme × Nat :=
  match c, s with
  | '/', '/' :: rest => (comment '/' rest, 1 + lineLength rest)
  | '/', '*' :: rest => (comment '*' rest, 1 + blockLength 1 rest)
  | _, _ => if isSpace c then ([], 0) else ([(lexeme c s).1], (lexeme c s).2)

/-- The lexemes of a source, brackets taken one by one. -/
def flatLexemes : List Char → List Lexeme
  | [] => []
  | c :: s => (step c s).1 ++ flatLexemes (s.drop (step c s).2)
termination_by s => s.length
decreasing_by
  simp only [List.length_cons, List.length_drop]
  omega

/-! ## Bracketed parts -/

/-- Whether the character opens a bracketed part. -/
def isOpening (c : Char) : Bool := c == '(' || c == '[' || c == '\x7b'

/-- Whether the character closes a bracketed part. -/
def isClosing (c : Char) : Bool := c == ')' || c == ']' || c == '\x7d'

/-- The lexemes with every bracketed part folded into one, inside `depth` brackets. -/
def fold (depth : Nat) : List Lexeme → List Lexeme
  | [] => []
  | .sign c joined :: rest =>
    if isOpening c then
      if depth = 0 then .bracketed c :: fold 1 rest else fold (depth + 1) rest
    else if isClosing c then fold (depth - 1) rest
    else if depth = 0 then .sign c joined :: fold 0 rest
    else fold depth rest
  | l :: rest => if depth = 0 then l :: fold 0 rest else fold depth rest

/-- The lexemes of a source. -/
def lexemes (source : String) : List Lexeme := fold 0 (flatLexemes source.toList)

/-! ## Signs of several characters -/

/-- What follows a sign of one or more characters that stand next to each other. -/
def afterSign? : (sign : List Char) → List Lexeme → Option (List Lexeme)
  | [], ls => some ls
  | [c], .sign d _ :: ls => if c = d then some ls else none
  | c :: sign, .sign d joined :: ls => if c = d ∧ joined then afterSign? sign ls else none
  | _, _ => none

/-- Whether the lexemes start with a sign. -/
def startsWith (sign : String) (ls : List Lexeme) : Bool := (afterSign? sign.toList ls).isSome

end Synopsis.Record.Snippet
