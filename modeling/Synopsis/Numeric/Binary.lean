import Synopsis.Numeric.Decimal
import Synopsis.Numeric.Power

/-!
# Binary floating-point numbers

A floating-point number is held as its bits: sign, exponent and fraction from the highest bit
down. A decimal text becomes the nearest number of the format, and of two equally near ones the
one with an even last bit. All arithmetic is exact: the decimal is a quotient of whole numbers,
and only the final division rounds.
-/

namespace Synopsis

/-- A binary interchange format: the bits of the significand, counting the hidden one, and the
bits of the exponent. -/
structure BinaryFormat where
  precision : Nat
  exponentBits : Nat
deriving DecidableEq, Repr

namespace BinaryFormat

/-- The format of 64 bits. -/
def double : BinaryFormat := ⟨53, 11⟩

/-- The format of 32 bits. -/
def single : BinaryFormat := ⟨24, 8⟩

/-- The number of bits. -/
def width (f : BinaryFormat) : Nat := f.precision + f.exponentBits

/-- The exponent of the last bit of the numbers next to zero. -/
def minExponent (f : BinaryFormat) : Int := 3 - twoPow (f.exponentBits - 1) - f.precision

/-- The least significand of a number with a full exponent. -/
def hiddenBit (f : BinaryFormat) : Nat := twoPow (f.precision - 1)

/-- The bits of positive infinity. -/
def infinity (f : BinaryFormat) : Nat := (twoPow f.exponentBits - 1) * f.hiddenBit

/-- The bits of the number that is none. -/
def notANumber (f : BinaryFormat) : Nat := f.infinity + f.hiddenBit / 2

/-- The bit of the sign. -/
def signBit (f : BinaryFormat) : Nat := twoPow (f.width - 1)

end BinaryFormat

/-- The whole number nearest to a quotient; of two equally near ones, the even one. -/
def roundHalfEven (num den : Nat) : Nat :=
  let q := num / den
  let r := num % den
  if den < 2 * r ∨ (2 * r = den ∧ q % 2 = 1) then q + 1 else q

namespace BinaryFormat

/-- The quotient of `num / den` by `2 ^ e`, as a pair of whole numbers. -/
def scale (num den : Nat) (e : Int) : Nat × Nat :=
  (num * twoPow (-e).toNat, den * twoPow e.toNat)

/-- An exponent by which a quotient has a full significand, no matter how small it is. -/
def fullExponent (f : BinaryFormat) (num den : Nat) : Int :=
  let e := (num.log2 : Int) - den.log2 - f.precision
  let (n, d) := scale num den e
  if n / d < twoPow f.precision then e else e + 1

/-- The bits of the number nearest to a quotient, infinity if that is out of range. -/
def ofRatio (f : BinaryFormat) (num den : Nat) : Nat :=
  if num = 0 then 0
  else
    let e := max (f.fullExponent num den) f.minExponent
    let (n, d) := scale num den e
    min ((e - f.minExponent).toNat * f.hiddenBit + roundHalfEven n d) f.infinity

/-- A decimal point shift beyond which a number is infinite or zero in every format here. -/
def decimalReach : Int := 400

/-- The bits of the number nearest to `digits * 10 ^ exponent`. -/
def ofDecimal (f : BinaryFormat) (digits : Nat) (exponent : Int) : Nat :=
  let point := (Decimal.digits digits).length + exponent
  if digits = 0 then 0
  else if decimalReach < point then f.infinity
  else if point < -decimalReach then 0
  else f.ofRatio (digits * tenPow exponent.toNat) (tenPow (-exponent).toNat)

/-- Read an exponent: nothing, or the mark, an optional sign and at least one digit. -/
def exponent? : List Char → Option Int
  | [] => some 0
  | c :: s =>
    if c = 'e' ∨ c = 'E' then
      match s with
      | '-' :: ds => (Decimal.read? ds).map fun n => -n
      | '+' :: ds => (Decimal.read? ds).map fun n => n
      | ds => (Decimal.read? ds).map fun n => n
    else none

/-- The digits after a decimal point, if there is a point, and what follows them. -/
def decimals : List Char → List Char × List Char
  | '.' :: s => (s.takeWhile Char.isDigit, s.dropWhile Char.isDigit)
  | s => ([], s)

/-- Read digits with an optional point among or around them and an optional exponent: the digits
as one number, and the power of ten that goes with it. -/
def decimal? (s : List Char) : Option (Nat × Int) :=
  let whole := s.takeWhile Char.isDigit
  let (part, rest) := decimals (s.dropWhile Char.isDigit)
  if whole ++ part = [] then none
  else (exponent? rest).map fun e => (Decimal.value (whole ++ part), e - part.length)

/-- Read a number without its sign: the names of infinity and of no number, in any case of
letters, or a decimal. -/
def magnitude? (f : BinaryFormat) (s : List Char) : Option Nat :=
  let word := s.map Char.toLower
  if word = "inf".toList ∨ word = "infinity".toList then some f.infinity
  else if word = "nan".toList then some f.notANumber
  else (decimal? s).map fun (digits, exponent) => f.ofDecimal digits exponent

/-- Read a number with an optional sign, as the bits of the nearest number of the format. -/
def read? (f : BinaryFormat) : List Char → Option Nat
  | '-' :: s => (f.magnitude? s).map (f.signBit + ·)
  | '+' :: s => f.magnitude? s
  | s => f.magnitude? s

end BinaryFormat

end Synopsis
