import Synopsis.Calendar.Field
import Synopsis.Text.Search

/-!
# Times of day

A time of day has hour, minute, second and nanosecond. Second 60 is a leap second and may follow
any minute. A time is read by a pattern and written as `HH:MM:SS`, without its fraction.
-/

namespace Synopsis

/-- A time of day. -/
structure Time where
  hour : Nat
  minute : Nat
  /-- The second; 60 is a leap second. -/
  second : Nat
  nanosecond : Nat
  hour_lt : hour < 24
  minute_lt : minute < 60
  second_le : second ≤ 60
  nanosecond_lt : nanosecond < 1000000000
deriving DecidableEq

namespace Time

/-- The time with the given parts, if there is one. -/
def ofParts? (hour minute second nanosecond : Nat) : Option Time :=
  if h : hour < 24 ∧ minute < 60 ∧ second ≤ 60 ∧ nanosecond < 1000000000 then
    some ⟨hour, minute, second, nanosecond, h.1, h.2.1, h.2.2.1, h.2.2.2⟩
  else none

@[simp] theorem ofParts?_self (t : Time) :
    ofParts? t.hour t.minute t.second t.nanosecond = some t := by
  simp [ofParts?, t.hour_lt, t.minute_lt, t.second_le, t.nanosecond_lt]

/-- Whole seconds since midnight; a leap second counts as the second before it. -/
def secondOfDay (t : Time) : Nat := t.hour * 3600 + t.minute * 60 + min t.second 59

/-- Nanoseconds since the last whole second; a leap second adds a second's worth. -/
def subsecond (t : Time) : Nat := t.nanosecond + if t.second = 60 then 1000000000 else 0

/-- The time at the same whole second. -/
def truncate (t : Time) : Time := { t with nanosecond := 0, nanosecond_lt := by decide }

/-- The forms in which a time can be given. -/
inductive Pattern where
  /-- Hour, minute and second. -/
  | seconds
  /-- Hour, minute, second, and a fraction if there is one. -/
  | fraction
  /-- Hour and minute. -/
  | minutes
deriving DecidableEq

/-- Read hour and minute from the front of a text. -/
def hourMinute? (skip : List Char → List Char) (s : List Char) :
    Option (Nat × Nat × List Char) := do
  let (hour, s) ← Calendar.field? 2 s
  let s ← Text.after? [':'] (skip s)
  let (minute, s) ← Calendar.field? 2 s
  return (hour, minute, s)

/-- Read a colon and the second from the front of a text. -/
def second? (skip : List Char → List Char) (s : List Char) : Option (Nat × List Char) := do
  let s ← Text.after? [':'] (skip s)
  Calendar.field? 2 s

/-- Read a time that takes up the whole text. -/
def Pattern.read? (p : Pattern) (s : List Char) : Option Time := do
  let (hour, minute, s) ← hourMinute? id s
  match p with
  | .minutes => if s = [] then ofParts? hour minute 0 0 else none
  | .seconds =>
    let (second, s) ← second? id s
    if s = [] then ofParts? hour minute second 0 else none
  | .fraction =>
    let (second, s) ← second? id s
    let (nanosecond, s) ← Calendar.fraction? s
    if s = [] then ofParts? hour minute second nanosecond else none

/-- The forms of an option's value, in the order in which they are tried. Models `TIME_FORMATS`. -/
def Pattern.ofOption : List Pattern := [.seconds, .fraction, .minutes]

/-- Read a time from a text: hour and minute, then possibly a second and a fraction of it, with
blanks allowed before each colon and at the end. -/
def ofText? (s : List Char) : Option Time := do
  let (hour, minute, s) ← hourMinute? Text.trimStart s
  if Text.allBlank s then ofParts? hour minute 0 0
  else
    let (second, s) ← second? Text.trimStart s
    let (nanosecond, s) ← Calendar.fraction? s
    if Text.allBlank s then ofParts? hour minute second nanosecond else none

/-- The time as `HH:MM:SS`; its fraction is not shown. -/
def render (t : Time) : List Char :=
  Decimal.padded 2 t.hour ++ ':' :: (Decimal.padded 2 t.minute ++ ':' :: Decimal.padded 2 t.second)

end Time

end Synopsis
