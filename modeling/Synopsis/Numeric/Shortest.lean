import Synopsis.Numeric.Binary

/-!
# Shortest decimals

A floating-point number is written with the fewest digits that read back as the same number. The
numbers that do so form an interval around it. For one digit, two digits and so on, the number's
two neighbours on the grid of decimals with that many digits are tried; the first grid with a
neighbour in the interval gives the digits. Of two neighbours the nearer one is taken, and the
upper one if both are equally near.
-/

namespace Synopsis.BinaryFormat

/-- The significand and the exponent of a number without sign. -/
def decode (f : BinaryFormat) (bits : Nat) : Nat × Int :=
  let field := bits / f.hiddenBit
  let fraction := bits % f.hiddenBit
  if field = 0 then (fraction, f.minExponent)
  else (fraction + f.hiddenBit, f.minExponent + (field - 1 : Nat))

/-- The decimals that read back as a number lie between `low / den` and `high / den`, and those
two belong to them if `closed`; the number itself is `num / den`. -/
structure Interval where
  low : Nat
  num : Nat
  high : Nat
  den : Nat
  closed : Bool

/-- The interval of a number: half way to its neighbours. Below a power of two the neighbours are
twice as dense. -/
def interval (f : BinaryFormat) (bits : Nat) : Interval :=
  let (m, e) := f.decode bits
  let up := twoPow (e - 2).toNat
  let below := if m = f.hiddenBit ∧ 2 * f.hiddenBit ≤ bits then 1 else 2
  { low := (4 * m - below) * up
    num := 4 * m * up
    high := (4 * m + 2) * up
    den := twoPow (2 - e).toNat
    closed := m % 2 = 0 }

/-- The exponent of the leading decimal digit of `num / den`. -/
def leadingExponent (num den : Nat) : Int :=
  ((Decimal.digits (num * tenPow decimalReach.toNat / den)).length : Int) - 1 - decimalReach

/-- The number of an interval on the grid of multiples of `10 ^ unit`: the count of its nearest
grid point within the interval. -/
def Interval.onGrid? (v : Interval) (unit : Int) : Option Nat :=
  let num := v.num * tenPow (-unit).toNat
  let low := v.low * tenPow (-unit).toNat
  let high := v.high * tenPow (-unit).toNat
  let den := v.den * tenPow unit.toNat
  let below := num / den
  let above := below + 1
  let hitBelow := if v.closed then low ≤ below * den else low < below * den
  let hitAbove := if v.closed then above * den ≤ high else above * den < high
  if hitBelow ∧ (¬hitAbove ∨ num - below * den < above * den - num) then some below
  else if hitAbove then some above
  else none

/-- The number without the zeros at its end, and how many there were. `fuel` bounds their
count. -/
def stripZeros : (fuel n : Nat) → Nat × Nat
  | 0, n => (n, 0)
  | fuel + 1, n =>
    if n % 10 = 0 ∧ n ≠ 0 then
      let (m, k) := stripZeros fuel (n / 10)
      (m, k + 1)
    else (n, 0)

/-- The most digits that are ever needed. -/
def maxDigits : Nat := 17

/-- The shortest decimal `digits * 10 ^ exponent` that reads back as the number without sign.
Seventeen digits are enough for either format, so the search always ends with a find. -/
def shortest (f : BinaryFormat) (bits : Nat) : Nat × Int :=
  let v := f.interval bits
  let lead := leadingExponent v.num v.den
  let found := (List.range maxDigits).findSome? fun (k : Nat) =>
    (v.onGrid? (lead - k)).map fun n => (n, lead - k)
  match found with
  | some (n, unit) =>
    let (n, zeros) := stripZeros maxDigits n
    (n, unit + zeros)
  | none => (0, 0)

end Synopsis.BinaryFormat

namespace Synopsis

/-- How floating-point numbers are written. -/
structure RealStyle where
  /-- The least exponent of the leading digit that is written with a plain decimal point. -/
  leastPlain : Int
  /-- The least exponent of the leading digit that is too great for that. -/
  firstScientific : Int
  exponentMark : List Char
  infinity : List Char
  notANumber : List Char

namespace RealStyle

/-- Digits with a decimal point and at least one digit on either side of it. -/
def plain (digits : List Char) (exponent : Int) : List Char :=
  if 0 ≤ exponent then digits ++ List.replicate exponent.toNat '0' ++ ['.', '0']
  else
    let places := (-exponent).toNat
    let filled := List.replicate (places + 1 - digits.length) '0' ++ digits
    filled.take (filled.length - places) ++ '.' :: filled.drop (filled.length - places)

/-- Digits with the point after the first and the exponent of the first at the end. -/
def scientific (style : RealStyle) (digits : List Char) (exponent : Int) : List Char :=
  let lead := exponent + (digits.length : Int) - 1
  let significand :=
    match digits with
    | d :: e :: rest => d :: '.' :: e :: rest
    | _ => digits
  significand ++ style.exponentMark ++ Decimal.signed lead

/-- A number without its sign. -/
def magnitude (style : RealStyle) (f : BinaryFormat) (bits : Nat) : List Char :=
  if bits = 0 then plain ['0'] 0
  else
    let (n, exponent) := f.shortest bits
    let digits := Decimal.digits n
    let lead := exponent + (digits.length : Int) - 1
    if style.leastPlain ≤ lead ∧ lead < style.firstScientific then plain digits exponent
    else style.scientific digits exponent

/-- Write the number with the given bits. -/
def render (style : RealStyle) (f : BinaryFormat) (bits : Nat) : List Char :=
  let rest := bits % f.signBit
  if f.infinity < rest then style.notANumber
  else
    let text := if rest = f.infinity then style.infinity else style.magnitude f rest
    if f.signBit ≤ bits then '-' :: text else text

end RealStyle

end Synopsis
