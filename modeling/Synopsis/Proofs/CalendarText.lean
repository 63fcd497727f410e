import Mathlib.Data.Nat.Digits.Defs
import Synopsis.Proofs.Scanning
import Synopsis.Value

/-!
# Dates and times as text

A date is read in three forms as the value of an option and in a fourth one from any text, and a
time likewise. Only one form of each is written. This module tells how the forms are related.

What is written can be read: a date as it is (`Date.coerce?_render`), a time at its whole second
(`Time.coerce?_render`), since its fraction is not written. A field is written with all its digits,
so a reader of as many digits takes it off whatever follows (`Calendar.field?_padded`); only a year
with a sign is read as far as the digits go (`Calendar.year?_yearText`).

What an option takes for a time is the same time for a reader of texts
(`Time.ofText?_of_coerce?`). Of dates this holds only for those with dashes
(`Date.Pattern.ofText_read?_of_coerce?`).
-/

namespace Synopsis

/-! ## Fields -/

theorem Text.isBlank_of_isDigit {c : Char} (h : c.isDigit = true) : isBlank c = false :=
  isBlank_of_isWordChar (by simp [isWordChar, Char.isAlphanum, h])

theorem Text.trimStart_cons_of_not_isBlank {c : Char} (h : isBlank c = false) (s : List Char) :
    trimStart (c :: s) = c :: s :=
  List.dropWhile_cons_of_neg (by simp [h])

namespace Decimal

variable {width n : Nat}

theorem isDigit_of_mem_padded {c : Char} (h : c ∈ padded width n) : c.isDigit = true := by
  rcases List.mem_append.1 h with h | h
  · rw [List.eq_of_mem_replicate h]
    rfl
  · exact isDigit_of_mem_digits h

theorem padded_ne_nil (width n : Nat) : padded width n ≠ [] :=
  List.append_ne_nil_of_right_ne_nil _ (digits_ne_nil n)

theorem length_padded (hwidth : 0 < width) (hn : n < 10 ^ width) :
    (padded width n).length = width := by
  have hle : (digits n).length ≤ width :=
    (Nat.length_toDigits_le_iff (by decide) hwidth).2 hn
  rw [padded, List.length_append, List.length_replicate]
  omega

theorem leading?_padded {s : List Char} (hs : Text.Stops Char.isDigit s) :
    leading? (padded width n ++ s) = some (n, s) := by
  have hdigits : ∀ c ∈ padded width n, c.isDigit = true := fun _ => isDigit_of_mem_padded
  rw [leading?, Text.takeWhile_append_of_stops hs, Text.dropWhile_append_of_stops hs,
    List.takeWhile_eq_self_iff.2 hdigits, List.dropWhile_eq_nil_iff.2 hdigits]
  split
  · next hnil => exact absurd hnil (padded_ne_nil width n)
  · rw [value_padded, List.nil_append]

end Decimal

namespace Calendar

/-- A field that is written with all its digits is read off whatever follows. -/
theorem field?_padded {width n : Nat} (hwidth : 0 < width) (hn : n < 10 ^ width) (s : List Char) :
    field? width (Decimal.padded width n ++ s) = some (n, s) := by
  have hdigits : ∀ c ∈ Decimal.padded width n, c.isDigit = true :=
    fun _ => Decimal.isDigit_of_mem_padded
  have hlength := Decimal.length_padded hwidth hn
  have htrim : Text.trimStart (Decimal.padded width n ++ s) = Decimal.padded width n ++ s := by
    obtain ⟨c, ds, hds⟩ := List.exists_cons_of_ne_nil (Decimal.padded_ne_nil width n)
    rw [hds, List.cons_append]
    exact Text.trimStart_cons_of_not_isBlank
      (Text.isBlank_of_isDigit (hdigits c (by simp [hds]))) _
  have htake : (Decimal.padded width n ++ s).take width = Decimal.padded width n :=
    List.take_left' hlength
  simp only [field?, htrim, htake, List.takeWhile_eq_self_iff.2 hdigits]
  split
  · next hnil => exact absurd hnil (Decimal.padded_ne_nil width n)
  · rw [Decimal.value_padded, hlength, List.drop_left' hlength]

/-- A field starts with a digit, after blanks at most. -/
theorem exists_isDigit_of_field? {width n : Nat} {s rest : List Char}
    (h : field? width s = some (n, rest)) :
    ∃ c t, Text.trimStart s = c :: t ∧ c.isDigit = true := by
  have hne : ((Text.trimStart s).take width).takeWhile Char.isDigit ≠ [] := by
    intro hnil
    simp [field?, hnil] at h
  cases htrim : Text.trimStart s with
  | nil => simp [htrim] at hne
  | cons c t =>
    refine ⟨c, t, rfl, ?_⟩
    by_contra hc
    cases width <;> simp [htrim, hc] at hne

theorem year?_of_isDigit {c : Char} (hc : c.isDigit = true) (s : List Char) :
    year? (c :: s) = (field? 4 (c :: s)).map fun (n, rest) => ((n : Int), rest) := by
  have htrim := Text.trimStart_cons_of_not_isBlank (Text.isBlank_of_isDigit hc) s
  rw [year?, htrim]
  split
  · next h => cases h; cases hc
  · next h => cases h; cases hc
  · rfl

theorem exists_of_year?_dash {year : Int} {s rest : List Char}
    (h : year? ('-' :: s) = some (year, rest)) :
    ∃ c t, s = c :: t ∧ c.isDigit = true ∧ rest = s.dropWhile Char.isDigit := by
  rw [year?, Text.trimStart_cons_of_not_isBlank (by decide)] at h
  obtain ⟨⟨n, rest'⟩, hleading, hyear⟩ := Option.map_eq_some_iff.1 h
  obtain ⟨-, rfl⟩ := Prod.mk.inj hyear
  cases s with
  | nil => cases hleading
  | cons c t =>
    by_cases hc : c.isDigit = true
    · rw [Decimal.leading?, List.takeWhile_cons_of_pos hc, Option.some.injEq,
        Prod.mk.injEq] at hleading
      exact ⟨c, t, rfl, hc, hleading.2.symm⟩
    · rw [Decimal.leading?, List.takeWhile_cons_of_neg hc] at hleading
      cases hleading

/-- A year reads back, if no digit follows it. -/
theorem year?_yearText (year : Int) {s : List Char} (hs : Text.Stops Char.isDigit s) :
    year? (Date.yearText year ++ s) = some (year, s) := by
  rw [Date.yearText]
  split
  · next hrange =>
    have hfield := field?_padded (by decide : 0 < 4) (by omega : year.natAbs < 10 ^ 4) s
    have hyear : (year.natAbs : Int) = year := Int.natAbs_of_nonneg hrange.1
    obtain ⟨c, ds, hds⟩ := List.exists_cons_of_ne_nil (Decimal.padded_ne_nil 4 year.natAbs)
    have hc : c.isDigit = true := Decimal.isDigit_of_mem_padded (by rw [hds]; simp)
    rw [hds, List.cons_append] at hfield ⊢
    rw [year?_of_isDigit hc, hfield]
    simp only [Option.map_some, hyear]
  · next hrange =>
    have hleading := @Decimal.leading?_padded 4 year.natAbs s hs
    by_cases hneg : year < 0
    · have hyear : -(year.natAbs : Int) = year := by omega
      rw [if_pos hneg, List.cons_append, year?,
        Text.trimStart_cons_of_not_isBlank (by decide)]
      simp only [hleading, Option.map_some, hyear]
    · have hyear : (year.natAbs : Int) = year := by omega
      rw [if_neg hneg, List.cons_append, year?,
        Text.trimStart_cons_of_not_isBlank (by decide)]
      simp only [hleading, Option.map_some, hyear]

end Calendar

/-! ## Dates -/

namespace Date

theorem month_lt (d : Date) : d.month < 100 := by
  by_contra h
  have hnone : daysInMonth d.year d.month = 0 := by
    rw [daysInMonth] <;> omega
  have := d.day_range
  omega

theorem day_lt (d : Date) : d.day < 100 := by
  have hmonth : daysInMonth d.year d.month ≤ 31 := by
    unfold daysInMonth
    split <;> (try split) <;> decide
  have := d.day_range
  omega

namespace Pattern

variable {p : Pattern} {s : List Char} {d : Date}

/-- A text is read as a date exactly if it is year, month and day, each set apart as the pattern
says, and these make a date. -/
theorem read?_eq_some_iff :
    p.read? s = some d ↔
      ∃ year month day s₁ s₂ s₃ s₄ s₅, Calendar.year? s = some (year, s₁) ∧
        p.skip s₁ = p.separator ++ s₂ ∧ Calendar.field? 2 s₂ = some (month, s₃) ∧
        p.skip s₃ = p.separator ++ s₄ ∧ Calendar.field? 2 s₄ = some (day, s₅) ∧
        p.skip s₅ = [] ∧ ofParts? year month day = some d := by
  simp only [read?, Option.bind_eq_bind, Option.bind_eq_some_iff, Prod.exists,
    Text.after?_eq_some_iff, Option.ite_none_right_eq_some]
  constructor
  · rintro ⟨year, s₁, hyear, s₂, h₁, month, s₃, hmonth, s₄, h₃, day, s₅, hday, hend, hd⟩
    exact ⟨year, month, day, s₁, s₂, s₃, s₄, s₅, hyear, h₁, hmonth, h₃, hday, hend, hd⟩
  · rintro ⟨year, month, day, s₁, s₂, s₃, s₄, s₅, hyear, h₁, hmonth, h₃, hday, hend, hd⟩
    exact ⟨year, s₁, hyear, s₂, h₁, month, s₃, hmonth, s₄, h₃, day, s₅, hday, hend, hd⟩

theorem skip_dash (p : Pattern) (s : List Char) : p.skip ('-' :: s) = '-' :: s := by
  rw [skip, Text.trimStart_cons_of_not_isBlank (by decide), ite_self]

theorem skip_nil (p : Pattern) : p.skip [] = [] := by
  rw [skip]
  exact ite_self _

/-- A date reads back wherever dashes are expected. -/
theorem read?_render (hp : p.separator = ['-']) (d : Date) : p.read? d.render = some d := by
  have hyear := @Calendar.year?_yearText d.year
    ('-' :: (Decimal.padded 2 d.month ++ '-' :: Decimal.padded 2 d.day))
    (Text.stops_cons.2 (by decide))
  have hmonth := Calendar.field?_padded (by decide : 0 < 2) d.month_lt
    ('-' :: Decimal.padded 2 d.day)
  have hday := Calendar.field?_padded (by decide : 0 < 2) d.day_lt []
  rw [List.append_nil] at hday
  exact read?_eq_some_iff.2 ⟨d.year, d.month, d.day, _, _, _, _, [], hyear,
    by rw [skip_dash, hp]; rfl, hmonth, by rw [skip_dash, hp]; rfl, hday, p.skip_nil,
    d.ofParts?_self⟩

/-- Year, month and day with dashes, and no blank before a dash. -/
def dashed : Pattern := ⟨['-'], false⟩

theorem ofText_of_dashed (h : dashed.read? s = some d) : ofText.read? s = some d := by
  obtain ⟨year, month, day, s₁, s₂, s₃, s₄, s₅, hyear, h₁, hmonth, h₃, hday, h₅, hd⟩ :=
    read?_eq_some_iff.1 h
  obtain rfl : s₁ = '-' :: s₂ := h₁
  obtain rfl : s₃ = '-' :: s₄ := h₃
  obtain rfl : s₅ = [] := h₅
  exact read?_eq_some_iff.2 ⟨year, month, day, _, s₂, _, s₄, [], hyear, skip_dash _ s₂, hmonth,
    skip_dash _ s₄, hday, skip_nil _, hd⟩

theorem coerce?_of_dashed (h : dashed.read? s = some d) : coerce? s = some d := by
  rw [coerce?, Pattern.ofOption, List.findSome?_cons, ← dashed, h]

/-- Of the texts that an option takes for a date, those with dashes are dates wherever a text is
read as one, and no others. -/
theorem ofText_read?_of_coerce? (h : coerce? s = some d) : ofText.read? s = dashed.read? s := by
  cases hdashed : dashed.read? s with
  | some e => exact ofText_of_dashed hdashed
  | none =>
    rw [Option.eq_none_iff_forall_ne_some]
    intro e he
    obtain ⟨year, _, _, s₁, s₂, _, _, _, hyear, hdash, -⟩ := read?_eq_some_iff.1 he
    have htrim : Text.trimStart s₁ = '-' :: s₂ := hdash
    obtain ⟨p, hp, hread⟩ := List.exists_of_findSome?_eq_some h
    obtain ⟨year', month, _, s₁', s₂', _, _, _, hyear', hskip, hmonth, -⟩ :=
      read?_eq_some_iff.1 hread
    rw [hyear, Option.some.injEq, Prod.mk.injEq] at hyear'
    obtain ⟨-, rfl⟩ := hyear'
    simp only [Pattern.ofOption, List.mem_cons, List.not_mem_nil, or_false] at hp
    -- Behind the year stands a dash, after blanks at most, and that is neither slash nor digit.
    rcases hp with rfl | rfl | rfl
    · exact absurd hread (by rw [← dashed, hdashed]; simp)
    · obtain rfl : s₁ = '/' :: s₂' := hskip
      rw [Text.trimStart_cons_of_not_isBlank (by decide)] at htrim
      cases htrim
    · obtain rfl : s₁ = s₂' := hskip
      obtain ⟨c, t, hdigit, hc⟩ := Calendar.exists_isDigit_of_field? hmonth
      rw [htrim, List.cons.injEq] at hdigit
      rw [← hdigit.1] at hc
      cases hc

/-- A text that starts with a dash and is a date goes on with a digit and has another dash. -/
theorem exists_of_ofText_dash (h : ofText.read? ('-' :: s) = some d) :
    ∃ c t, s = c :: t ∧ c.isDigit = true ∧ '-' ∈ t := by
  obtain ⟨year, _, _, s₁, s₂, _, _, _, hyear, hdash, -⟩ := read?_eq_some_iff.1 h
  have htrim : Text.trimStart s₁ = '-' :: s₂ := hdash
  obtain ⟨c, t, hs, hc, rfl⟩ := Calendar.exists_of_year?_dash hyear
  refine ⟨c, t, hs, hc, ?_⟩
  have hmem : '-' ∈ Text.trimStart (s.dropWhile Char.isDigit) := by
    rw [htrim]
    exact List.mem_cons_self
  have hrest := (List.dropWhile_sublist _).subset ((List.dropWhile_sublist _).subset hmem)
  rw [hs, List.mem_cons] at hrest
  refine hrest.resolve_left ?_
  rintro rfl
  cases hc

end Pattern

end Date

/-! ## Times -/

namespace Time

variable {skip : List Char → List Char} {s rest : List Char} {hour minute second : Nat}

theorem hourMinute?_eq_some_iff :
    hourMinute? skip s = some (hour, minute, rest) ↔
      ∃ s₁ s₂, Calendar.field? 2 s = some (hour, s₁) ∧ skip s₁ = ':' :: s₂ ∧
        Calendar.field? 2 s₂ = some (minute, rest) := by
  simp only [hourMinute?, Option.bind_eq_bind, Option.bind_eq_some_iff, Prod.exists,
    Text.after?_eq_some_iff, List.singleton_append, Option.pure_def, Option.some.injEq,
    Prod.mk.injEq]
  constructor
  · rintro ⟨_, s₁, hhour, s₂, hcolon, _, _, hminute, rfl, rfl, rfl⟩
    exact ⟨s₁, s₂, hhour, hcolon, hminute⟩
  · rintro ⟨s₁, s₂, hhour, hcolon, hminute⟩
    exact ⟨hour, s₁, hhour, s₂, hcolon, minute, rest, hminute, rfl, rfl, rfl⟩

theorem second?_eq_some_iff :
    second? skip s = some (second, rest) ↔
      ∃ s₁, skip s = ':' :: s₁ ∧ Calendar.field? 2 s₁ = some (second, rest) := by
  simp only [second?, Option.bind_eq_bind, Option.bind_eq_some_iff, Text.after?_eq_some_iff,
    List.singleton_append]

theorem trimStart_colon (s : List Char) : Text.trimStart (':' :: s) = ':' :: s :=
  Text.trimStart_cons_of_not_isBlank (by decide) s

/-! What is read where no blank may stand before a colon is read where one may. -/

theorem hourMinute?_trimStart (h : hourMinute? id s = some (hour, minute, rest)) :
    hourMinute? Text.trimStart s = some (hour, minute, rest) := by
  obtain ⟨s₁, s₂, hhour, hcolon, hminute⟩ := hourMinute?_eq_some_iff.1 h
  obtain rfl : s₁ = ':' :: s₂ := hcolon
  exact hourMinute?_eq_some_iff.2 ⟨_, s₂, hhour, trimStart_colon s₂, hminute⟩

theorem second?_trimStart (h : second? id s = some (second, rest)) :
    second? Text.trimStart s = some (second, rest) ∧ Text.allBlank s = false := by
  obtain ⟨s₁, hcolon, hsecond⟩ := second?_eq_some_iff.1 h
  obtain rfl : s = ':' :: s₁ := hcolon
  exact ⟨second?_eq_some_iff.2 ⟨s₁, trimStart_colon s₁, hsecond⟩, rfl⟩

/-- A text that has one of the forms of a time is that time wherever a text is read as one. -/
theorem ofText?_of_read? {p : Pattern} {t : Time} (h : p.read? s = some t) :
    ofText? s = some t := by
  simp only [Pattern.read?, Option.bind_eq_bind, Option.bind_eq_some_iff, Prod.exists] at h
  obtain ⟨hour, minute, s₁, hhour, hp⟩ := h
  have hhour' := hourMinute?_trimStart hhour
  have hend : Text.allBlank [] = true := rfl
  cases p with
  | minutes =>
    obtain ⟨rfl, ht⟩ := Option.ite_none_right_eq_some.1 hp
    simpa [ofText?, hhour', hend] using ht
  | seconds =>
    simp only [Option.bind_eq_some_iff, Prod.exists, Option.ite_none_right_eq_some] at hp
    obtain ⟨second, _, hsecond, rfl, ht⟩ := hp
    obtain ⟨hsecond', hblank⟩ := second?_trimStart hsecond
    simpa [ofText?, hhour', hblank, hsecond', Calendar.fraction?, hend] using ht
  | fraction =>
    simp only [Option.bind_eq_some_iff, Prod.exists, Option.ite_none_right_eq_some] at hp
    obtain ⟨second, s₂, hsecond, nanosecond, _, hfraction, rfl, ht⟩ := hp
    obtain ⟨hsecond', hblank⟩ := second?_trimStart hsecond
    simpa [ofText?, hhour', hblank, hsecond', hfraction, hend] using ht

/-- A text that an option takes for a time is that time wherever a text is read as one. -/
theorem ofText?_of_coerce? {t : Time} (h : coerce? s = some t) : ofText? s = some t := by
  obtain ⟨p, -, hp⟩ := List.exists_of_findSome?_eq_some h
  exact ofText?_of_read? hp

/-! ## Written times -/

@[simp] theorem ofParts?_truncate (t : Time) :
    ofParts? t.hour t.minute t.second 0 = some t.truncate :=
  ofParts?_self t.truncate

/-- The time in full: as it is written, and its fraction in nine digits. -/
def exactText (t : Time) : List Char :=
  t.render ++ '.' :: Decimal.padded 9 t.nanosecond

theorem hourMinute?_render_append (t : Time) (s : List Char) :
    hourMinute? id (t.render ++ s) =
      some (t.hour, t.minute, ':' :: (Decimal.padded 2 t.second ++ s)) := by
  have hhour : t.hour < 10 ^ 2 := Nat.lt_trans t.hour_lt (by decide)
  have hminute : t.minute < 10 ^ 2 := Nat.lt_trans t.minute_lt (by decide)
  simp only [render, List.append_assoc, List.cons_append]
  exact hourMinute?_eq_some_iff.2 ⟨_, _, Calendar.field?_padded (by decide) hhour _, rfl,
    Calendar.field?_padded (by decide) hminute _⟩

theorem second?_padded (t : Time) (s : List Char) :
    second? id (':' :: (Decimal.padded 2 t.second ++ s)) = some (t.second, s) := by
  have hsecond : t.second < 10 ^ 2 := Nat.lt_of_le_of_lt t.second_le (by decide)
  exact second?_eq_some_iff.2 ⟨_, rfl, Calendar.field?_padded (by decide) hsecond s⟩

theorem fraction?_padded (t : Time) :
    Calendar.fraction? ('.' :: Decimal.padded 9 t.nanosecond) = some (t.nanosecond, []) := by
  have hdigits : ∀ c ∈ Decimal.padded 9 t.nanosecond, c.isDigit = true :=
    fun _ => Decimal.isDigit_of_mem_padded
  have hlength : (Decimal.padded 9 t.nanosecond).length = 9 :=
    Decimal.length_padded (by decide) (by simpa using t.nanosecond_lt)
  simp only [Calendar.fraction?, List.takeWhile_eq_self_iff.2 hdigits,
    List.dropWhile_eq_nil_iff.2 hdigits]
  split
  · next hnil => exact absurd hnil (Decimal.padded_ne_nil 9 t.nanosecond)
  · rw [List.take_of_length_le (Nat.le_of_eq hlength), hlength, Decimal.value_padded]
    simp [tenPow]

/-- A time reads back without its fraction. -/
theorem coerce?_render (t : Time) : coerce? t.render = some t.truncate := by
  have hhour := t.hourMinute?_render_append []
  have hsecond := t.second?_padded []
  simp only [List.append_nil] at hhour hsecond
  have hread : Pattern.seconds.read? t.render = some t.truncate := by
    simp [Pattern.read?, hhour, hsecond]
  rw [coerce?, Pattern.ofOption, List.findSome?_cons, hread]

/-- A time that is written in full reads back as it is. -/
theorem coerce?_exactText (t : Time) : coerce? t.exactText = some t := by
  have hhour := t.hourMinute?_render_append ('.' :: Decimal.padded 9 t.nanosecond)
  have hsecond := t.second?_padded ('.' :: Decimal.padded 9 t.nanosecond)
  have hseconds : Pattern.seconds.read? t.exactText = none := by
    simp [Pattern.read?, exactText, hhour, hsecond]
  have hfraction : Pattern.fraction.read? t.exactText = some t := by
    simp [Pattern.read?, exactText, hhour, hsecond, t.fraction?_padded]
  rw [coerce?, Pattern.ofOption, List.findSome?_cons, hseconds, List.findSome?_cons, hfraction]

end Time

/-- A date reads back as it is. -/
theorem Date.coerce?_render (d : Date) : coerce? d.render = some d :=
  Pattern.coerce?_of_dashed (Pattern.read?_render rfl d)

end Synopsis
