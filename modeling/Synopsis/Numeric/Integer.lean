import Synopsis.Numeric.Decimal
import Synopsis.Numeric.Power

/-!
# Integers of a fixed range

An integer type is a width with or without a sign. Its texts are an optional sign and then
digits; a minus sign belongs to the signed types only, and a number outside the range is no
number of the type.
-/

namespace Synopsis

/-- The widths of the integer types. A machine word has 64 bits and a name of its own. -/
inductive IntegerWidth where
  | bits8
  | bits16
  | bits32
  | bits64
  | bits128
  | word
deriving DecidableEq, Repr

/-- The number of bits. -/
def IntegerWidth.bits : IntegerWidth → Nat
  | .bits8 => 8
  | .bits16 => 16
  | .bits32 => 32
  | .bits64 => 64
  | .bits128 => 128
  | .word => 64

/-- How the width is written in a type's name. -/
def IntegerWidth.label : IntegerWidth → String
  | .bits8 => "8"
  | .bits16 => "16"
  | .bits32 => "32"
  | .bits64 => "64"
  | .bits128 => "128"
  | .word => "size"

/-- An integer type: a width, with or without a sign. -/
structure IntegerType where
  signed : Bool
  width : IntegerWidth
deriving DecidableEq, Repr

namespace IntegerType

/-- The least number of the type. -/
def least (t : IntegerType) : Int :=
  if t.signed then -(twoPow (t.width.bits - 1) : Int) else 0

/-- The greatest number of the type. -/
def greatest (t : IntegerType) : Int :=
  if t.signed then (twoPow (t.width.bits - 1) : Int) - 1 else (twoPow t.width.bits : Int) - 1

/-- The type's name: `i` or `u` and the width. -/
def name (t : IntegerType) : String :=
  (if t.signed then "i" else "u") ++ t.width.label

/-- Whether a number is in the range of the type. -/
def Holds (t : IntegerType) (n : Int) : Prop := t.least ≤ n ∧ n ≤ t.greatest

instance (t : IntegerType) (n : Int) : Decidable (t.Holds n) :=
  inferInstanceAs (Decidable (_ ∧ _))

/-- The number, if the type holds it. -/
def check? (t : IntegerType) (n : Int) : Option Int :=
  if t.Holds n then some n else none

/-- Read a number of the type: an optional sign, at least one digit, nothing else. -/
def read? (t : IntegerType) : List Char → Option Int
  | '+' :: s => (Decimal.read? s).bind fun n => t.check? n
  | '-' :: s => if t.signed then (Decimal.read? s).bind fun n => t.check? (-n) else none
  | s => (Decimal.read? s).bind fun n => t.check? n

/-- The signed type of 64 bits, which holds the values of integer options. -/
def int64 : IntegerType := ⟨true, .bits64⟩

end IntegerType

end Synopsis
