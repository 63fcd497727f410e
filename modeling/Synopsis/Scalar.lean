import Synopsis.Numeric.Binary
import Synopsis.Value

/-!
# Scalar types

The types that a bound value can be read as, and how their texts are read. A *scalar* is a value
of such a type.
-/

namespace Synopsis

/-- A type that a text can be read as. -/
inductive ScalarType where
  | integer (type : IntegerType)
  | single
  | double
  | boolean
  | character
  | string
  | date
  | time
deriving DecidableEq, Repr

/-- A value of a scalar type. -/
inductive Scalar where
  | integer (n : Int)
  /-- A floating-point number of 32 bits, as its bits. -/
  | single (bits : Nat)
  /-- A floating-point number of 64 bits, as its bits. -/
  | double (bits : Nat)
  | boolean (b : Bool)
  | character (c : Char)
  | string (s : String)
  | date (d : Date)
  | time (t : Time)
deriving DecidableEq

namespace ScalarType

/-- The full name of the type. -/
def name : ScalarType → String
  | .integer type => type.name
  | .single => "f32"
  | .double => "f64"
  | .boolean => "bool"
  | .character => "char"
  | .string => "alloc::string::String"
  | .date => "chrono::naive::date::NaiveDate"
  | .time => "chrono::naive::time::NaiveTime"

/-- Read a text as a value of the type. -/
def read? (type : ScalarType) (text : String) : Option Scalar :=
  match type with
  | .integer t => (t.read? text.toList).map .integer
  | .single => (BinaryFormat.single.read? text.toList).map .single
  | .double => (BinaryFormat.double.read? text.toList).map .double
  | .boolean =>
    if text = "true" then some (.boolean true)
    else if text = "false" then some (.boolean false)
    else none
  | .character =>
    match text.toList with
    | [c] => some (.character c)
    | _ => none
  | .string => some (.string text)
  | .date => (Date.Pattern.ofText.read? text.toList).map .date
  | .time => (Time.ofText? text.toList).map .time

end ScalarType

end Synopsis
