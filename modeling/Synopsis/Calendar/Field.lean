import Synopsis.Numeric.Decimal
import Synopsis.Numeric.Power
import Synopsis.Text.Blank

/-!
# Numeric fields of dates and times

A field of a date or a time is read from the front of a text: blanks are skipped, then comes at
least one digit and at most as many as the field is wide. A year may carry a sign and is then as
wide as its digits go.
-/

namespace Synopsis.Calendar

/-- Read a field of at most `width` digits, and what follows it. -/
def field? (width : Nat) (s : List Char) : Option (Nat × List Char) :=
  let t := Text.trimStart s
  match (t.take width).takeWhile Char.isDigit with
  | [] => none
  | ds => some (Decimal.value ds, t.drop ds.length)

/-- Read a year: four digits at most, or a sign and any number of digits. -/
def year? (s : List Char) : Option (Int × List Char) :=
  match Text.trimStart s with
  | '-' :: t => (Decimal.leading? t).map fun (n, rest) => (-n, rest)
  | '+' :: t => (Decimal.leading? t).map fun (n, rest) => (n, rest)
  | t => (field? 4 t).map fun (n, rest) => (n, rest)

/-- Read a fraction of a second as nanoseconds: nothing, or a point and at least one digit, of
which the first nine count. -/
def fraction? : List Char → Option (Nat × List Char)
  | '.' :: s =>
    match s.takeWhile Char.isDigit with
    | [] => none
    | ds =>
      let counted := ds.take 9
      some (Decimal.value counted * tenPow (9 - counted.length), s.dropWhile Char.isDigit)
  | s => some (0, s)

end Synopsis.Calendar
