import Synopsis.Numeric.Shortest
import Synopsis.Record.Layout
import Synopsis.Text.Quoted

/-!
# Showing records

A record is shown with its name and its fields in order, for programmers to look at: texts are
quoted, floating-point numbers have the fewest digits that read back, and an optional field says
whether there is a value.
-/

namespace Synopsis.Record

/-- Floating-point numbers have a plain decimal point from 0.0001 up to 10^16, and otherwise an
exponent. -/
def realStyle : RealStyle :=
  { leastPlain := -4
    firstScientific := 16
    exponentMark := ['e']
    infinity := "inf".toList
    notANumber := "NaN".toList }

/-- A fraction of a second: nothing, or as many groups of three digits as it takes. -/
def fractionText (nanosecond : Nat) : List Char :=
  if nanosecond = 0 then []
  else if nanosecond % 1000000 = 0 then '.' :: Decimal.padded 3 (nanosecond / 1000000)
  else if nanosecond % 1000 = 0 then '.' :: Decimal.padded 6 (nanosecond / 1000)
  else '.' :: Decimal.padded 9 nanosecond

/-- A scalar as it is shown. -/
def showScalar : Scalar → List Char
  | .integer n => Decimal.signed n
  | .single bits => realStyle.render .single bits
  | .double bits => realStyle.render .double bits
  | .boolean b => if b then "true".toList else "false".toList
  | .character c => Text.quotedChar c
  | .string s => Text.quoted s.toList
  | .date d => d.render
  | .time t => t.render ++ fractionText t.nanosecond

/-- Texts with a comma and a space between each two. -/
def commaSeparated (texts : List String) : String := ", ".intercalate texts

/-- The content of a field as it is shown. -/
def ContentOf.render : ContentOf Scalar → String
  | .switch given => if given then "true" else "false"
  | .optional none => "None"
  | .optional (some value) => "Some(" ++ String.ofList (showScalar value) ++ ")"
  | .collection values =>
    "[" ++ commaSeparated (values.map fun v => String.ofList (showScalar v)) ++ "]"
  | .scalar value => String.ofList (showScalar value)

/-- A record as it is shown. -/
def InstanceOf.render (r : InstanceOf Scalar) : String :=
  match r.fields with
  | [] => r.name
  | fields =>
    r.name ++ " \x7b " ++
      commaSeparated (fields.map fun (name, c) => plainName name ++ ": " ++ c.render) ++ " \x7d"

end Synopsis.Record
