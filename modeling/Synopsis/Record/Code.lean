import Synopsis.Record.Plan
import Synopsis.Text.Quoted

/-!
# The code of a plan

A plan can be written as Rust source that reads the record. Tokens are separated by one space.
-/

namespace Synopsis.Record

/-- Whether the character is an octal digit. -/
def isOctalDigit (c : Char) : Bool := '0' ≤ c && c ≤ '7'

/-- What stands between the quotes of a string literal. The character number zero is written out
where an octal digit follows, so as not to be taken for an octal escape. -/
def literalBody : List Char → List Char
  | [] => []
  | c :: s =>
    (if c = '\x00' ∧ s.head?.any isOctalDigit then ['\\', 'x', '0', '0']
     else Text.escape Text.doubleQuote c) ++ literalBody s

/-- A string literal. -/
def literal (s : String) : String :=
  "\"" ++ String.ofList (literalBody s.toList) ++ "\""

/-- The call that reads a field. -/
def FieldPlan.call (p : FieldPlan) : String :=
  match p.reading with
  | .switch => "include (" ++ literal p.lookup ++ ")"
  | .optional => "extract (" ++ literal p.lookup ++ ") ?"
  | .collection => "extract_all (" ++ literal p.lookup ++ ") ?"
  | .scalar => "require (" ++ literal p.lookup ++ ") ?"

/-- The initialiser of a field. Models what is generated for a `DeriveField`. -/
def FieldPlan.code (p : FieldPlan) : String :=
  p.field ++ " : matches . " ++ p.call ++ " , "

/-- The code that reads the record. Models what is generated for a `DeriveExtraction`. -/
def Plan.code (p : Plan) : String :=
  "impl :: byexample :: FromMatches for " ++ p.name ++
    " \x7b # [allow (unused_variables)] fn from_matches (matches : & :: byexample :: Matches ,)" ++
    " -> :: std :: result :: Result < Self , :: byexample :: ExtractError >" ++
    " \x7b :: std :: result :: Result :: Ok (Self \x7b " ++
    String.join (p.fields.map FieldPlan.code) ++ "\x7d) \x7d \x7d"

end Synopsis.Record
