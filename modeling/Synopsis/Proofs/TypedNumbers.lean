import Synopsis.Proofs.TypedDefaults

/-!
# Numbers at every width

A number is bound with 64 bits and a sign, and a program may extract it as any integer type. It goes
through its decimal text, and every type reads the number there exactly if it holds it
(`Matches.extract_integer`).

A default can reach the program without the step through 64 bits. Typed after a flag of its option
it is read as a number first, which drops leading zeros and a plus sign; left to itself it is a text
until the program extracts it. A text that does not start with a dash is the same number for all
types that hold it (`IntegerType.read?_eq_check?`), so the two ways agree. A minus sign would make a
difference, for `-0` is no number of a type without sign, but a value cannot start with a dash.

There is one way to type a default that starts with a dash. Where `-n` takes a value, a dash and a
digit is a number, even if it is a flag of the option as well, and the default behind it stands for
itself. If it is another flag of the option, that flag takes its value from the argument list.
-/

namespace Synopsis

/-! ## Texts of numbers -/

namespace IntegerType

/-- Without a minus sign, every type reads the same digits. -/
theorem exists_digits {s : List Char} (h : s.head? ≠ some '-') :
    ∃ digits, ∀ t : IntegerType,
      t.read? s = (Decimal.read? digits).bind fun n => t.check? n := by
  cases s with
  | nil => exact ⟨[], fun _ => rfl⟩
  | cons c s =>
    by_cases hplus : c = '+'
    · subst hplus
      exact ⟨s, fun _ => rfl⟩
    · refine ⟨c :: s, fun t => ?_⟩
      unfold read?
      split
      · next heq =>
        cases heq
        contradiction
      · next heq =>
        cases heq
        exact absurd rfl h
      · rfl

/-- What one type reads without a minus sign, every type that holds the number reads as well. -/
theorem read?_eq_check? {t : IntegerType} {s : List Char} {n : Int} (hs : s.head? ≠ some '-')
    (h : t.read? s = some n) (u : IntegerType) : u.read? s = u.check? n := by
  obtain ⟨digits, hread⟩ := exists_digits hs
  rw [hread, Option.bind_eq_some_iff] at h
  obtain ⟨k, hk, hcheck⟩ := h
  obtain ⟨-, hkn⟩ := Option.ite_none_right_eq_some.1 hcheck
  rw [hread, hk, Option.bind_some, Option.some.inj hkn]

/-- Behind a minus sign stand digits. -/
theorem read?_eq_none_of_dash {text : String} (hdash : ¬IsValue text)
    (hdigits : Chunk.numberDigits? text = none) (t : IntegerType) : t.read? text.toList = none := by
  obtain ⟨s, hs⟩ := List.head?_eq_some_iff.1 (not_not.1 hdash)
  have hnot : ¬(s ≠ [] ∧ s.all Char.isDigit) := by
    rintro hnumber
    rw [Chunk.numberDigits?, hs] at hdigits
    simp [hnumber] at hdigits
  rw [hs, read?, Decimal.read?, if_neg hnot]
  exact ite_self none

end IntegerType

/-! ## Extracting a number -/

namespace Matches

variable {m : Matches} {name : String}

/-- What a program gets for a bound value, if it asks for an integer type. -/
theorem toOption_extract {v : Value} (h : m.argument? name = some v) (t : IntegerType) :
    (m.extract (ScalarType.integer t).reader name).toOption =
      (t.read? v.render.toList).map fun n => some (.integer n) := by
  rw [extract, h]
  simp only [convert, ScalarType.reader, ScalarType.read?]
  cases t.read? v.render.toList <;> rfl

/-- A number is extracted as every type that holds it, and as no other. -/
theorem extract_integer {n : Int} (h : m.argument? name = some (.integer n)) (t : IntegerType) :
    m.extract (ScalarType.integer t).reader name =
      if t.least ≤ n ∧ n ≤ t.greatest then .ok (some (.integer n))
      else .error (.invalidConversion name (String.ofList (Decimal.signed n)) t.name) := by
  have hread : t.read? (Value.integer n).render.toList = t.check? n := by
    rw [Value.render, String.toList_ofList, IntegerType.read?_signed]
  split
  · next hn =>
    apply extract_of_argument? h
    simp [ScalarType.reader, ScalarType.read?, hread, IntegerType.check?, IntegerType.Holds, hn]
  · next hn =>
    refine extract_eq_error_iff.2 ⟨_, h, ?_, rfl⟩
    simp [ScalarType.reader, ScalarType.read?, hread, IntegerType.check?, IntegerType.Holds, hn]

end Matches

/-! ## Numbers as defaults -/

namespace Usage

variable {usage : Usage} {o : OptionSpec} {kind : Kind} {flag d : String} {texts : List String}
  {left typed : Matches}

namespace TypedDefault

variable (h : TypedDefault usage o kind flag d texts left typed)

include h in
/-- If the option is given although its default starts with a dash, then the flag was read as a
number, and the default is no number. -/
theorem number_of_dash (hi : usage.Indexed) (hc : Coherent usage.arguments)
    (hgiven : typed.includes o.name = true) (hdash : ¬IsValue d) :
    Chunk.numericAllowed usage ∧ (Chunk.numberDigits? flag).isSome ∧
      Chunk.numberDigits? d = none := by
  obtain ⟨-, items, rest, hreading, rfl⟩ := (fit_eq_complete_iff hi hc).1 h.fit_typed
  have hgives := (includes_of_namedApart hi hreading.fits h.mem_options h.apart rest).1 hgiven
  have hopt := hi.option?_eq_some_iff.2 ⟨h.mem_options, h.mem_flags⟩
  rcases flag_in_front_cases hi hopt h.kind_eq hreading with
    ⟨value, more, rfl, -, -⟩ | ⟨digits, more, rfl, hn, htexts⟩
  · exact absurd ((hreading.fits _ List.mem_cons_self).value d rfl) hdash
  have hfits := hreading.fits _ List.mem_cons_self
  have hallowed := numericAllowed_of_select (hfits.selects _ (List.mem_singleton.2 rfl))
  have hflag : flag = (Item.number digits).leader := (List.cons.inj hreading.tokens).1
  have hdigits := Chunk.numberDigits?_eq_some_iff.2 ⟨hflag, hfits.wellFormed⟩
  refine ⟨hallowed, by rw [hdigits]; rfl, ?_⟩
  rw [Option.eq_none_iff_forall_ne_some]
  intro ds hds
  -- Two numbers for `-n`, and then the argument list, which does not give the option.
  have hmore : Reading usage (d :: texts) more rest :=
    ⟨htexts, fun item hitem => hreading.fits item (List.mem_cons_of_mem _ hitem), hreading.values,
      hreading.takes⟩
  obtain ⟨item, others, rfl, rfl, hothers⟩ := hmore.exists_cons hdash
  have hitem := (hmore.fits item List.mem_cons_self).eq_number hallowed hds
  subst hitem
  have hrest : Reading usage texts others rest :=
    ⟨hothers, fun item hitem => hmore.fits item (List.mem_cons_of_mem _ hitem), hmore.values,
      hmore.takes⟩
  obtain ⟨use, huse, hmem⟩ := hgives
  simp only [List.flatMap_cons, List.mem_append, Item.uses, List.mem_singleton] at huse
  rcases huse with rfl | rfl | huse
  · exact hn hmem
  · exact hn hmem
  · exact h.not_gives hi hc hrest ⟨use, huse, hmem⟩

end TypedDefault

/-- A default that is a flag can be typed behind another flag that is read as a number. The option
then takes a value from the argument list, while the default that is left is no number at all. -/
theorem flag_as_default_takes_value :
    ∃ usage o left typed,
      read none "Usage: p [-n NUM] [mode]\n  -5, --five NUM  (default --five)" = .ok usage ∧
      TypedDefault usage o .integer "-5" "--five" ["7"] left typed ∧
      left.extract (ScalarType.integer .int64).reader o.name =
        .error (.invalidConversion o.name "--five" "i64") ∧
      typed.extract (ScalarType.integer .int64).reader o.name = .ok (some (.integer 7)) := by
  let o : OptionSpec := ⟨"five", .both '5' "five", some "NUM"⟩
  let usage : Usage :=
    { program := "p"
      message := "Usage: p [-n NUM] [mode]\n  -5, --five NUM  (default --five)"
      arguments := [⟨"mode", .optional⟩]
      options := [⟨"n", .short 'n', some "NUM"⟩, o]
      flagTable := NameMap.empty.insertAll [("-n", 0), ("-5", 1), ("--five", 1)]
      defaults := NameMap.empty.insert "five" "--five" }
  let left := usage.meaning [] ["7"]
  let typed := usage.meaning [.number ['5'], .single "--five" (some "7")] []
  have hdefault : TypedDefault usage o .integer "-5" "--five" ["7"] left typed :=
    { mem_options := by decide +kernel
      kind_eq := by decide +kernel
      apart := by unfold NamedApart; decide +kernel
      arguments := by decide +kernel
      mem_flags := by decide +kernel
      default_eq := by decide +kernel
      fit_left := by decide +kernel
      omitted := by decide +kernel
      fit_typed := by decide +kernel }
  refine ⟨usage, o, left, typed, by decide +kernel, hdefault, ?_, ?_⟩
  · exact Matches.extract_eq_error_iff.2
      ⟨.text "--five", by decide +kernel, by decide +kernel, rfl⟩
  · exact Matches.extract_of_argument? (v := .integer 7) (by decide +kernel) (by decide +kernel)

/-- **A number is the same at every width.** A bound number is extracted as every type that holds
it; any other type reports its decimal text. The default of an integer option is extracted as the
same number, or not at all, whether it is left or typed. It is different only where the option is
given although the default starts with a dash: then the flag was read as a number for `-n`, the
default that is left is no number of any type, and the option has a number that was given. -/
theorem number_same_at_every_width (t : IntegerType) :
    (∀ (m : Matches) (name : String) (n : Int), m.argument? name = some (.integer n) →
      m.extract (ScalarType.integer t).reader name =
        if t.least ≤ n ∧ n ≤ t.greatest then .ok (some (.integer n))
        else .error (.invalidConversion name (String.ofList (Decimal.signed n)) t.name)) ∧
    ∀ {given : Option String} {source : String} {usage : Usage} {o : OptionSpec} {flag d : String}
      {texts : List String} {left typed : Matches}, read given source = .ok usage →
      TypedDefault usage o .integer flag d texts left typed →
      ((typed.includes o.name = true → IsValue d) →
        (left.extract (ScalarType.integer t).reader o.name).toOption =
          (typed.extract (ScalarType.integer t).reader o.name).toOption) ∧
      (typed.includes o.name = true → ¬IsValue d →
        Chunk.numericAllowed usage ∧ (Chunk.numberDigits? flag).isSome ∧
        left.extract (ScalarType.integer t).reader o.name =
          .error (.invalidConversion o.name d t.name) ∧
        ∃ n, IntegerType.int64.Holds n ∧ typed.argument? o.name = some (.integer n)) := by
  refine ⟨fun m name n hn => Matches.extract_integer hn t, ?_⟩
  intro given source usage o flag d texts left typed hread h
  have hi := indexed_of_read hread
  have hc := coherent_of_read hread
  obtain ⟨hleft, hcases⟩ := typed_default_cases hi hc h
  constructor
  · intro hvalue
    rw [Matches.toOption_extract hleft]
    rcases hcases with ⟨-, hsame⟩ | ⟨hgiven, value, hcoerce, hbound⟩ |
      ⟨hgiven, ⟨item, hfits, rfl⟩, -⟩
    · rw [Matches.toOption_extract hsame]
    · obtain ⟨n, hn, rfl⟩ := Option.map_eq_some_iff.1 hcoerce
      rw [Matches.toOption_extract hbound, Value.render, Value.render, String.toList_ofList,
        IntegerType.read?_signed, IntegerType.read?_eq_check? (hvalue hgiven) hn]
    · exact absurd (hvalue hgiven) (hfits.not_isValue_leader hi)
  · intro hgiven hdash
    obtain ⟨hallowed, hflag, hnone⟩ := h.number_of_dash hi hc hgiven hdash
    refine ⟨hallowed, hflag, ?_, ?_⟩
    · refine Matches.extract_eq_error_iff.2 ⟨_, hleft, ?_, rfl⟩
      simp [ScalarType.reader, ScalarType.read?, Value.render,
        IntegerType.read?_eq_none_of_dash hdash hnone]
    · obtain ⟨raw, value, hcoerce, hbound⟩ :
          ∃ raw value, Kind.integer.coerce? raw = some value ∧
            typed.argument? o.name = some value := by
        rcases hcases with ⟨hnot, -⟩ | ⟨-, value, hcoerce, hbound⟩ | ⟨-, -, hvalue⟩
        · rw [hgiven] at hnot
          cases hnot
        · exact ⟨d, value, hcoerce, hbound⟩
        · exact hvalue
      obtain ⟨n, hn, rfl⟩ := Option.map_eq_some_iff.1 hcoerce
      exact ⟨n, IntegerType.holds_of_read? hn, hbound⟩

/-- A default with a plus sign and a zero in front is too large for a byte with a sign, left or
typed, and 200 for one without. -/
theorem number_same_at_every_width_byte :
    ∃ usage left typed,
      read none "Usage: p [-q]\n  -k, --keep NUM  (default +0200)" = .ok usage ∧
      usage.fit ["-q"] = .ok (.complete left) ∧
      usage.fit ["-k", "+0200", "-q"] = .ok (.complete typed) ∧
      left.argument? "keep" = some (.text "+0200") ∧
      typed.argument? "keep" = some (.integer 200) ∧
      typed.extract (ScalarType.integer ⟨true, .bits8⟩).reader "keep" =
        .error (.invalidConversion "keep" "200" "i8") ∧
      (left.extract (ScalarType.integer ⟨true, .bits8⟩).reader "keep").toOption = none ∧
      typed.extract (ScalarType.integer ⟨false, .bits8⟩).reader "keep" = .ok (some (.integer 200)) ∧
      (left.extract (ScalarType.integer ⟨false, .bits8⟩).reader "keep").toOption =
        some (some (.integer 200)) := by
  let o : OptionSpec := ⟨"keep", .both 'k' "keep", some "NUM"⟩
  let usage : Usage :=
    { program := "p"
      message := "Usage: p [-q]\n  -k, --keep NUM  (default +0200)"
      arguments := []
      options := [⟨"q", .short 'q', none⟩, o]
      flagTable := NameMap.empty.insertAll [("-q", 0), ("-k", 1), ("--keep", 1)]
      defaults := NameMap.empty.insert "keep" "+0200" }
  let left := usage.meaning [.single "-q" none] []
  let typed := usage.meaning [.single "-k" (some "+0200"), .single "-q" none] []
  have hread : read none "Usage: p [-q]\n  -k, --keep NUM  (default +0200)" = .ok usage := by
    decide +kernel
  have hdefault : TypedDefault usage o .integer "-k" "+0200" ["-q"] left typed :=
    { mem_options := by decide +kernel
      kind_eq := by decide +kernel
      apart := by unfold NamedApart; decide +kernel
      arguments := by decide +kernel
      mem_flags := by decide +kernel
      default_eq := by decide +kernel
      fit_left := by decide +kernel
      omitted := by decide +kernel
      fit_typed := by decide +kernel }
  have hbound : typed.argument? "keep" = some (.integer 200) := by decide +kernel
  have hsame (t : IntegerType) := ((number_same_at_every_width t).2 hread hdefault).1
    fun _ => by decide +kernel
  have hi8 := (number_same_at_every_width ⟨true, .bits8⟩).1 typed "keep" 200 hbound
  have hu8 := (number_same_at_every_width ⟨false, .bits8⟩).1 typed "keep" 200 hbound
  rw [if_neg (by decide)] at hi8
  rw [if_pos (by decide)] at hu8
  refine ⟨usage, left, typed, hread, hdefault.fit_left, hdefault.fit_typed, by decide +kernel,
    hbound, hi8, ?_, hu8, ?_⟩
  · exact (hsame _).trans (congrArg Except.toOption hi8)
  · exact (hsame _).trans (congrArg Except.toOption hu8)

end Usage

end Synopsis
