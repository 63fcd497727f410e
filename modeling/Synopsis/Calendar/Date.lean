import Synopsis.Calendar.Field
import Synopsis.Text.Search

/-!
# Dates

A date is a day of the proleptic Gregorian calendar in the years -262143 to 262142. It is read
by a pattern, which says what stands between year, month and day, and written as
`YYYY-MM-DD`; years beyond four digits and years below zero carry a sign.
-/

namespace Synopsis

/-- Whether a year has a 29th of February. -/
def isLeapYear (year : Int) : Bool :=
  year % 4 == 0 && (year % 100 != 0 || year % 400 == 0)

/-- The number of days of a month; none for a number that is no month. -/
def daysInMonth (year : Int) : Nat → Nat
  | 1 => 31
  | 2 => if isLeapYear year then 29 else 28
  | 3 => 31
  | 4 => 30
  | 5 => 31
  | 6 => 30
  | 7 => 31
  | 8 => 31
  | 9 => 30
  | 10 => 31
  | 11 => 30
  | 12 => 31
  | _ => 0

/-- A day of the calendar. -/
structure Date where
  year : Int
  month : Nat
  day : Nat
  year_range : -262143 ≤ year ∧ year ≤ 262142
  day_range : 1 ≤ day ∧ day ≤ daysInMonth year month
deriving DecidableEq

namespace Date

/-- The date with the given year, month and day, if there is one. -/
def ofParts? (year : Int) (month day : Nat) : Option Date :=
  if hy : -262143 ≤ year ∧ year ≤ 262142 then
    if hd : 1 ≤ day ∧ day ≤ daysInMonth year month then some ⟨year, month, day, hy, hd⟩
    else none
  else none

@[simp] theorem ofParts?_self (d : Date) : ofParts? d.year d.month d.day = some d := by
  simp [ofParts?, d.year_range, d.day_range]

/-- How the parts of a date are set apart. -/
structure Pattern where
  /-- What stands between year and month and between month and day. -/
  separator : List Char
  /-- Whether blanks may stand before a separator and at the end. -/
  spaced : Bool
deriving DecidableEq

namespace Pattern

/-- Blanks that the pattern lets pass. -/
def skip (p : Pattern) (s : List Char) : List Char :=
  if p.spaced then Text.trimStart s else s

/-- Read a date that takes up the whole text. -/
def read? (p : Pattern) (s : List Char) : Option Date := do
  let (year, s) ← Calendar.year? s
  let s ← Text.after? p.separator (p.skip s)
  let (month, s) ← Calendar.field? 2 s
  let s ← Text.after? p.separator (p.skip s)
  let (day, s) ← Calendar.field? 2 s
  if p.skip s = [] then ofParts? year month day else none

/-- Year, month and day with dashes, with slashes, or run together: the forms of an option's value,
in the order in which they are tried. Models `DATE_FORMATS`. -/
def ofOption : List Pattern := [⟨['-'], false⟩, ⟨['/'], false⟩, ⟨[], false⟩]

/-- Year, month and day with dashes, and blanks where they do no harm. -/
def ofText : Pattern := ⟨['-'], true⟩

end Pattern

/-- The year in four digits; outside 0 to 9999 with a sign and at least four digits. -/
def yearText (year : Int) : List Char :=
  if 0 ≤ year ∧ year ≤ 9999 then Decimal.padded 4 year.natAbs
  else (if year < 0 then '-' else '+') :: Decimal.padded 4 year.natAbs

/-- The date as `YYYY-MM-DD`. -/
def render (d : Date) : List Char :=
  yearText d.year ++ '-' :: (Decimal.padded 2 d.month ++ '-' :: Decimal.padded 2 d.day)

end Date

end Synopsis
