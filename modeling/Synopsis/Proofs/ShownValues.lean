import Synopsis.Extract
import Synopsis.Match
import Synopsis.Proofs.CalendarText

/-!
# Values and their texts

A value is written as text and may be read again: as the value of an option (`Kind.coerce?`), and
whenever a program asks for it as some type (`Matches.extract`). Numbers and dates come back as they
were. Of a time the text has no fraction, so a time comes back at its whole second
(`Value.shown`), while a leap second stays one.

Reading and writing again changes nothing further: `Value.shown` is written as the value is. But
what a program extracts has gone through the text once, and a fraction that was given to an option
is lost there, although the same text is read in full where it is bound as it stands.
-/

namespace Synopsis

/-! ## Numbers -/

namespace IntegerType

theorem read?_of_isDigit (t : IntegerType) {c : Char} (hc : c.isDigit = true) (s : List Char) :
    t.read? (c :: s) = (Decimal.read? (c :: s)).bind fun n => t.check? n := by
  unfold read?
  split
  · next h => cases h; cases hc
  · next h => cases h; cases hc
  · rfl

/-- A written number is read as every type that holds it, and as no other. -/
theorem read?_signed (t : IntegerType) (n : Int) :
    t.read? (Decimal.signed n) = t.check? n := by
  rw [Decimal.signed]
  split
  · next hneg =>
    have hn : -(n.natAbs : Int) = n := by omega
    rw [read?, Decimal.read?_digits, Option.bind_some, hn]
    split
    · rfl
    · next hsigned =>
      -- A type without sign holds no negative number.
      rw [check?, if_neg]
      intro h
      rw [Holds, least, if_neg hsigned] at h
      omega
  · next hneg =>
    have hn : (n.natAbs : Int) = n := by omega
    obtain ⟨c, ds, hds⟩ := List.exists_cons_of_ne_nil (Decimal.digits_ne_nil n.natAbs)
    have hc : c.isDigit = true := Decimal.isDigit_of_mem_digits (by rw [hds]; simp)
    rw [hds, read?_of_isDigit t hc, ← hds, Decimal.read?_digits, Option.bind_some, hn]

theorem holds_of_read? {t : IntegerType} {s : List Char} {n : Int}
    (h : t.read? s = some n) : t.Holds n := by
  -- With or without a sign, the number that the digits make is checked last.
  have hcheck : ∀ {digits : List Char} {f : Nat → Int},
      ((Decimal.read? digits).bind fun k => t.check? (f k)) = some n → t.Holds n := by
    intro digits f hread
    obtain ⟨k, -, hk⟩ := Option.bind_eq_some_iff.1 hread
    obtain ⟨hholds, hkn⟩ := Option.ite_none_right_eq_some.1 hk
    exact Option.some.inj hkn ▸ hholds
  unfold read? at h
  split at h
  · exact hcheck h
  · split at h
    · exact hcheck h
    · cases h
  · exact hcheck h

end IntegerType

/-! ## Values of a kind -/

/-- The values of a kind. An integer has 64 bits. -/
inductive Kind.Holds : Kind → Value → Prop
  | plain (s : String) : Holds .plain (.text s)
  | integer (n : Int) (h : IntegerType.int64.Holds n) : Holds .integer (.integer n)
  | date (d : Date) : Holds .date (.date d)
  | time (t : Time) : Holds .time (.time t)

/-- What the text of a value says of it: all but the fraction of a time. -/
def Value.shown : Value → Value
  | .time t => .time t.truncate
  | v => v

@[simp] theorem Value.render_shown (v : Value) : v.shown.render = v.render := by
  cases v <;> rfl

namespace Kind

variable {kind : Kind} {v : Value}

theorem holds_of_coerce? {raw : String} (h : kind.coerce? raw = some v) : kind.Holds v := by
  cases kind with
  | plain =>
    cases h
    exact .plain raw
  | integer =>
    obtain ⟨n, hn, rfl⟩ := Option.map_eq_some_iff.1 h
    exact .integer n (IntegerType.holds_of_read? hn)
  | date =>
    obtain ⟨d, -, rfl⟩ := Option.map_eq_some_iff.1 h
    exact .date d
  | time =>
    obtain ⟨t, -, rfl⟩ := Option.map_eq_some_iff.1 h
    exact .time t

/-- A value of a kind reads back as what its text says. -/
theorem coerce?_render (h : kind.Holds v) : kind.coerce? v.render = some v.shown := by
  cases h with
  | plain s => rfl
  | integer n hn =>
    have hcheck : IntegerType.int64.check? n = some n := if_pos hn
    simp [Value.render, IntegerType.read?_signed, hcheck, Value.shown]
  | date d => simp [Value.render, d.coerce?_render, Value.shown]
  | time t => simp [Value.render, t.coerce?_render, Value.shown]

/-- A value of a kind has a text that is read as this value. -/
theorem exists_coerce? (h : kind.Holds v) : ∃ raw, kind.coerce? raw = some v := by
  cases h with
  | plain s => exact ⟨s, rfl⟩
  | integer n hn => exact ⟨_, coerce?_render (.integer n hn)⟩
  | date d => exact ⟨_, coerce?_render (.date d)⟩
  | time t =>
    -- The text that is written will not do: it has no fraction.
    exact ⟨String.ofList t.exactText, by simp [t.coerce?_exactText]⟩

/-- **What is shown of a value reads back.** Any value of a kind has a text that is read as this
value. Writing a value and reading it again gives what its text says of it, and that is written the
same way, so once more changes nothing. It is all of a number or a date, and the whole second of a
time; a leap second stays one. -/
theorem reads_back_what_is_shown (kind : Kind) :
    (∀ v, (∃ raw, kind.coerce? raw = some v) ↔ kind.Holds v) ∧
    ∀ raw v, kind.coerce? raw = some v →
      kind.coerce? v.render = some v.shown ∧ v.shown.render = v.render ∧
      (kind = .integer ∨ kind = .date → v.shown = v) ∧
      (kind = .time → ∃ t, v = .time t ∧ v.shown = .time t.truncate ∧
        t.truncate.secondOfDay = t.secondOfDay ∧
        t.truncate.subsecond = if t.second = 60 then 1000000000 else 0) := by
  constructor
  · intro v
    exact ⟨fun ⟨_, h⟩ => holds_of_coerce? h, exists_coerce?⟩
  · intro raw v h
    have hholds := holds_of_coerce? h
    refine ⟨coerce?_render hholds, v.render_shown, ?_, ?_⟩
    · rintro (rfl | rfl) <;> cases hholds <;> rfl
    · rintro rfl
      cases hholds with
      | time t => exact ⟨t, rfl, rfl, rfl, Nat.zero_add _⟩

/-- The least number and the first date, in forms that are not written, and half a leap second. -/
theorem reads_back_what_is_shown_edges :
    ∃ n d t, Kind.integer.coerce? "-09223372036854775808" = some (.integer n) ∧
      Kind.date.coerce? "-262143/1/ 1" = some (.date d) ∧
      Kind.time.coerce? "23:59:60.5" = some (.time t) ∧
      (Value.date d).render = "-262143-01-01" ∧ (Value.time t).render = "23:59:60" ∧
      Kind.integer.coerce? (Value.integer n).render = some (.integer n) ∧
      Kind.date.coerce? (Value.date d).render = some (.date d) ∧
      Kind.time.coerce? (Value.time t).render = some (.time t.truncate) ∧
      t.subsecond = 1500000000 ∧ t.truncate.subsecond = 1000000000 := by
  let d : Date := ⟨-262143, 1, 1, by decide, by decide⟩
  let t : Time := ⟨23, 59, 60, 500000000, by decide, by decide, by decide, by decide⟩
  have hn : Kind.integer.coerce? "-09223372036854775808" =
      some (.integer (-9223372036854775808)) := by decide +kernel
  have hd : Kind.date.coerce? "-262143/1/ 1" = some (.date d) := by decide +kernel
  have ht : Kind.time.coerce? "23:59:60.5" = some (.time t) := by decide +kernel
  refine ⟨_, d, t, hn, hd, ht, by decide +kernel, by decide +kernel, ?_, ?_, ?_,
    by decide +kernel, ?_⟩
  · exact ((reads_back_what_is_shown .integer).2 _ _ hn).1
  · exact ((reads_back_what_is_shown .date).2 _ _ hd).1
  · exact ((reads_back_what_is_shown .time).2 _ _ ht).1
  · obtain ⟨_, ⟨⟩, -, -, hsubsecond⟩ := ((reads_back_what_is_shown .time).2 _ _ ht).2.2.2 rfl
    exact hsubsecond

end Kind

/-! ## Extracting a time -/

namespace Matches

variable {m : Matches} {name : String}

theorem extract_of_argument? {α : Type} {reader : Reader α} {v : Value} {x : α}
    (hv : m.argument? name = some v) (hread : reader.read? v.render = some x) :
    m.extract reader name = .ok (some x) := by
  simp [extract, hv, convert, hread, Except.map]

theorem argument?_of_time? {t : Time} (h : m.time? name = some t) :
    m.argument? name = some (.time t) := by
  unfold time? at h
  split at h
  · next t' ht => cases h; exact ht
  · cases h

theorem argument?_of_text? {s : String} (h : m.text? name = some s) :
    m.argument? name = some (.text s) := by
  unfold text? at h
  split at h
  · next s' hs => cases h; exact hs
  · cases h

/-- **Extracting a time drops its fraction.** The time that a program extracts is the time that is
bound at its whole second, so it is the same exactly if that has no fraction. A text that names the
same time, and is bound as it stands, is extracted in full. -/
theorem extract_time_drops_fraction {t : Time} (h : m.time? name = some t) :
    m.extract ScalarType.time.reader name = .ok (some (.time t.truncate)) ∧
    (m.extract ScalarType.time.reader name = .ok (some (.time t)) ↔ t.nanosecond = 0) ∧
    ∀ (other : Matches) (raw : String), Kind.time.coerce? raw = some (.time t) →
      other.text? name = some raw →
      other.extract ScalarType.time.reader name = .ok (some (.time t)) := by
  have hshown : m.extract ScalarType.time.reader name = .ok (some (.time t.truncate)) := by
    apply extract_of_argument? (argument?_of_time? h)
    simp [ScalarType.reader, ScalarType.read?, Value.render,
      Time.ofText?_of_coerce? t.coerce?_render]
  refine ⟨hshown, ?_, ?_⟩
  · rw [hshown]
    constructor
    · intro heq
      have htime : t.truncate = t := by simpa using heq
      rw [← htime]
      rfl
    · intro hzero
      have htime : t.truncate = t := by
        cases t
        cases hzero
        rfl
      rw [htime]
  · intro other raw hraw hother
    apply extract_of_argument? (argument?_of_text? hother)
    obtain ⟨t', ht', ht⟩ := Option.map_eq_some_iff.1 hraw
    cases ht
    simp [ScalarType.reader, ScalarType.read?, Value.render, Time.ofText?_of_coerce? ht']

/-- Half a second is lost on the way from an option to the program, and kept on the way from a
default. -/
theorem extract_time_drops_fraction_half :
    ∃ (usage : Usage) (typed left : Matches) (t : Time),
      Usage.read none "Usage: p\n  --at TIME  (default 10:00:00.5)" = .ok usage ∧
      usage.fit ["--at", "10:00:00.5"] = .ok (.complete typed) ∧
      usage.fit [] = .ok (.complete left) ∧ typed.time? "at" = some t ∧ t.nanosecond = 500000000 ∧
      typed.extract ScalarType.time.reader "at" = .ok (some (.time t.truncate)) ∧
      typed.extract ScalarType.time.reader "at" ≠ .ok (some (.time t)) ∧
      left.extract ScalarType.time.reader "at" = .ok (some (.time t)) := by
  let usage : Usage :=
    { program := "p"
      message := "Usage: p\n  --at TIME  (default 10:00:00.5)"
      arguments := []
      options := [⟨"at", .long "at", some "TIME"⟩]
      flagTable := NameMap.empty.insert "--at" 0
      defaults := NameMap.empty.insert "at" "10:00:00.5" }
  let t : Time := ⟨10, 0, 0, 500000000, by decide, by decide, by decide, by decide⟩
  let left : Matches := .ofDefaults usage.defaults
  let typed : Matches := (left.mark "at").set "at" (.time t)
  have hat : typed.time? "at" = some t := by decide +kernel
  obtain ⟨hshown, hsame, htext⟩ := extract_time_drops_fraction hat
  refine ⟨usage, typed, left, t, by decide +kernel, by decide +kernel, by decide +kernel, hat, rfl,
    hshown, ?_, htext left "10:00:00.5" (by decide +kernel) (by decide +kernel)⟩
  rw [ne_eq, hsame]
  decide

end Matches

end Synopsis
