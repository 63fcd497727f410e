import Synopsis.Matches
import Synopsis.Scalar

/-!
# Reading matched values

A bound value is read from its text, so an integer option can be read as any integer type, and
any value as any type that texts can be read as. A name may be read if it is bound, must be bound,
or may have any number of values.
-/

namespace Synopsis

/-- Why a value cannot be read. -/
inductive ExtractError where
  /-- Nothing is bound to the name. -/
  | missing (name : String)
  /-- The text is no value of the type. -/
  | invalidConversion (name value typeName : String)
deriving DecidableEq, Repr

/-- The error in words. -/
def ExtractError.message : ExtractError → String
  | .missing name => "Missing argument '" ++ name ++ "'"
  | .invalidConversion name value typeName =>
    "Cannot convert '" ++ value ++ "' for '" ++ name ++ "' to " ++ typeName

/-- A type that texts can be read as: what it is called, and which value a text names. Models
`FromStr`, as far as `extract` uses it. -/
structure Reader (α : Type) where
  typeName : String
  read? : String → Option α

/-- How texts are read as scalars of a type. -/
def ScalarType.reader (type : ScalarType) : Reader Scalar := ⟨type.name, type.read?⟩

instance ScalarType.coeReader : Coe ScalarType (Reader Scalar) := ⟨ScalarType.reader⟩

namespace Matches

variable {α : Type}

/-- Read a text that is bound to the name. -/
def convert (reader : Reader α) (name text : String) : Except ExtractError α :=
  match reader.read? text with
  | some value => .ok value
  | none => .error (.invalidConversion name text reader.typeName)

/-- Read texts that are bound to the name, up to the first that fails. -/
def convertAll (reader : Reader α) (name : String) :
    List String → Except ExtractError (List α)
  | [] => .ok []
  | text :: rest =>
    match convert reader name text with
    | .error e => .error e
    | .ok value => (convertAll reader name rest).map (value :: ·)

/-- Read the value of the name, if it has one. -/
def extract (m : Matches) (reader : Reader α) (name : String) :
    Except ExtractError (Option α) :=
  match m.argument? name with
  | some value => (convert reader name value.render).map some
  | none => .ok none

/-- Read the value of the name, which must have one. -/
def require (m : Matches) (reader : Reader α) (name : String) : Except ExtractError α :=
  match m.extract reader name with
  | .error e => .error e
  | .ok (some value) => .ok value
  | .ok none => .error (.missing name)

/-- Read every value of the name: the items of a list, a single value as one item, and no items
where nothing is bound. Models `extract_all`. -/
def extractAll (m : Matches) (reader : Reader α) (name : String) :
    Except ExtractError (List α) :=
  match m.argument? name with
  | some (.list items) => convertAll reader name items
  | some value => (convert reader name value.render).map fun value => [value]
  | none => .ok []

end Matches

end Synopsis
