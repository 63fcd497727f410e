import Synopsis.Proofs.RecordReading
import Synopsis.Proofs.SharedNames
import Synopsis.Proofs.ShownValues

/-!
# Defaults that are typed

A default that is left to itself is bound as the text it is. Typed after a flag of its option it is
read as a value of the option's kind, and the value is bound. This module compares the two: an
argument list that does not give the option, and the same list with a flag and the default in front
of it.

A flag in front takes what follows it (`Usage.typed_default_cases`), with one exception: where `-n`
takes a value, a dash and a digit is a number and not the flag that is spelled like it. Then the
default stands for itself in the argument list, as a positional value or as a flag.

For a date this makes a difference. The value of an option may have dashes, slashes or nothing
between its parts, while a text is read as a date only with dashes. So a default with dashes is
extracted the same either way, and one of another form is a date only if it is typed
(`Usage.default_date_typed`).
-/

namespace Synopsis

/-! ## Reading an argument list from its front -/

/-- A text in front that starts with a dash leads an item. -/
theorem Reading.exists_cons {usage : Usage} {text : String} {texts rest : List String}
    {items : List Item} (h : Reading usage (text :: texts) items rest) (hdash : ¬IsValue text) :
    ∃ item more, items = item :: more ∧ item.leader = text ∧
      texts = item.raw?.toList ++ (more.flatMap Item.tokens ++ rest) := by
  have htokens := h.tokens
  cases items with
  | nil =>
    rw [List.flatMap_nil, List.nil_append] at htokens
    exact absurd (h.values text (by rw [← htokens]; simp)) hdash
  | cons item more =>
    rw [List.flatMap_cons, Item.tokens, List.cons_append, List.cons_append, List.cons.injEq,
      List.append_assoc] at htokens
    exact ⟨item, more, rfl, htokens.1.symm, htokens.2⟩

namespace Usage

variable {usage : Usage} {items : List Item} {o : OptionSpec} {kind : Kind}

/-! ## The values of an option -/

theorem valuesOf_cons (item : Item) (items : List Item) :
    usage.valuesOf (item :: items) o = usage.valuesOf [item] o ++ usage.valuesOf items o := by
  simp [valuesOf, selections]

theorem exists_value_of_selection {uses : List FlagUse} {s : Selection}
    (hs : s ∈ usage.selections uses) (hkind : s.option.kind? = some kind) :
    ∃ raw value, kind.coerce? raw = some value ∧ s.value = some value := by
  obtain ⟨⟨flag, raw⟩, -, hselect⟩ := List.mem_filterMap.1 hs
  cases raw with
  | none =>
    obtain ⟨o, -, hswitch, rfl⟩ := select?_switch_iff.1 hselect
    rw [hkind] at hswitch
    cases hswitch
  | some raw =>
    obtain ⟨o, kind', value, -, hkind', hcoerce, rfl⟩ := select?_valued_iff.1 hselect
    obtain rfl := Option.some.inj (hkind.symm.trans hkind')
    exact ⟨raw, value, hcoerce, rfl⟩

theorem valuesOf_eq_nil (hi : usage.Indexed) (hfits : ∀ item ∈ items, item.Fits usage)
    (ho : o ∈ usage.options) (h : ¬ Gives items o) : usage.valuesOf items o = [] := by
  rw [valuesOf, List.filterMap_eq_nil_iff]
  intro s hs
  rw [if_neg]
  exact fun hsame => h ((exists_selection_iff hi hfits ho).1 ⟨s, hs, hsame⟩)

/-- An option that takes a value and is given has one. -/
theorem exists_getLast?_valuesOf (hi : usage.Indexed) (hfits : ∀ item ∈ items, item.Fits usage)
    (ho : o ∈ usage.options) (hkind : o.kind? = some kind) (h : Gives items o) :
    ∃ raw value, kind.coerce? raw = some value ∧
      (usage.valuesOf items o).getLast? = some value := by
  obtain ⟨s, hs, rfl⟩ := (exists_selection_iff hi hfits ho).2 h
  obtain ⟨-, value, -, hvalue⟩ := exists_value_of_selection hs hkind
  have hmem : value ∈ usage.valuesOf items s.option :=
    List.mem_filterMap.2 ⟨s, hs, by rw [if_pos rfl, hvalue]⟩
  obtain ⟨last, hlast⟩ := Option.isSome_iff_exists.1
    (List.getLast?_isSome.2 (List.ne_nil_of_mem hmem))
  obtain ⟨s', hs', hif⟩ := List.mem_filterMap.1 (List.mem_of_getLast? hlast)
  obtain ⟨hsame, hvalue'⟩ := Option.ite_none_right_eq_some.1 hif
  obtain ⟨raw, value', hcoerce, hsome⟩ := exists_value_of_selection hs' (hsame ▸ hkind)
  rw [hvalue', Option.some.injEq] at hsome
  exact ⟨raw, last, hsome ▸ hcoerce, hlast⟩

theorem valuesOf_single {flag raw : String} {value : Value} (hopt : usage.option? flag = some o)
    (hkind : o.kind? = some kind) (hvalue : kind.coerce? raw = some value) :
    usage.valuesOf [.single flag (some raw)] o = [value] := by
  have hselect : usage.select? ⟨flag, some raw⟩ = some ⟨o, some value⟩ :=
    select?_valued_iff.2 ⟨o, kind, value, hopt, hkind, hvalue, rfl⟩
  simp [valuesOf, selections, Item.uses, hselect]

/-! ## Leaving a default and typing it -/

/-- A short flag that is a digit is not that of an option with the flag `-n`. -/
theorem numericFlag_not_mem {c : Char} (hc : c.isDigit = true)
    (h : Flags.shortToken c ∈ o.flags.tokens) : Chunk.numericFlag ∉ o.flags.tokens := by
  have hdash : c ≠ '-' := by
    rintro rfl
    cases hc
  have hn : Chunk.numericFlag = Flags.shortToken 'n' := by decide
  rw [Flags.shortToken_mem_tokens hdash] at h
  rw [hn, Flags.shortToken_mem_tokens (by decide), h, Option.some.injEq]
  rintro rfl
  cases hc

/-- A flag in front takes the text that follows as its value, or it is read as a number. -/
theorem flag_in_front_cases (hi : usage.Indexed) {flag text : String} {texts rest : List String}
    (hopt : usage.option? flag = some o) (hkind : o.kind? = some kind)
    (h : Reading usage (flag :: text :: texts) items rest) :
    (∃ value more, items = .single flag (some text) :: more ∧ kind.coerce? text = some value ∧
      Reading usage texts more rest) ∨
    ∃ digits more, items = .number digits :: more ∧ Chunk.numericFlag ∉ o.flags.tokens ∧
      text :: texts = more.flatMap Item.tokens ++ rest := by
  have hdash : ¬IsValue flag := fun hvalue => hvalue (head?_of_option? hi hopt)
  obtain ⟨item, more, rfl, rfl, htexts⟩ := h.exists_cons hdash
  have hfits := h.fits item (by simp)
  by_cases hnumber : Chunk.numericAllowed usage ∧ ∃ ds, Chunk.numberDigits? item.leader = some ds
  · obtain ⟨hn, ds, hds⟩ := hnumber
    have hitem := hfits.eq_number hn hds
    obtain ⟨c, hc, hleader⟩ := exists_digit_of_number hi hopt hds
    have hmem := (hi.option?_eq_some_iff.1 hopt).2
    refine .inr ⟨ds, more, by rw [hitem], numericFlag_not_mem hc (hleader ▸ hmem), ?_⟩
    rw [htexts, hitem]
    rfl
  · have hsingle := hfits.eq_single (groupLetters?_of_option? hi hopt) fun hn =>
      Option.eq_none_iff_forall_ne_some.2 fun ds hds => hnumber ⟨hn, ds, hds⟩
    obtain ⟨s, hselect⟩ := Option.isSome_iff_exists.1
      (hfits.selects ⟨item.leader, item.raw?⟩ (by rw [hsingle]; exact List.mem_singleton.2 rfl))
    cases hraw : item.raw? with
    | none =>
      rw [hraw] at hselect
      obtain ⟨o', hopt', hswitch, -⟩ := select?_switch_iff.1 hselect
      rw [hopt, Option.some.injEq] at hopt'
      rw [← hopt', hkind] at hswitch
      cases hswitch
    | some raw =>
      rw [hraw] at hselect htexts hsingle
      obtain ⟨o', kind', value, hopt', hkind', hvalue, -⟩ := select?_valued_iff.1 hselect
      rw [hopt, Option.some.injEq] at hopt'
      rw [← hopt', hkind, Option.some.injEq] at hkind'
      rw [Option.toList_some, List.singleton_append, List.cons.injEq] at htexts
      obtain ⟨rfl, htexts⟩ := htexts
      refine .inl ⟨value, more, by rw [hsingle]; rfl, hkind' ▸ hvalue, htexts, ?_, h.values,
        h.takes⟩
      exact fun x hx => h.fits x (List.mem_cons_of_mem _ hx)

/-- What an argument list binds to the name of an option that it does not give. -/
theorem argument?_of_omitted (hi : usage.Indexed) (hfits : ∀ item ∈ items, item.Fits usage)
    (ho : o ∈ usage.options) (hapart : usage.NamedApart o)
    (harguments : ∀ a ∈ usage.arguments, a.name ≠ o.name) {d : String}
    (hd : usage.default? o.name = some d) (h : ¬ Gives items o) (rest : List String) :
    (usage.meaning items rest).argument? o.name = some (.text d) := by
  rw [argument?_of_option hi hapart harguments, valuesOf_eq_nil hi hfits ho h, hd]
  rfl

/-- An option of the kind has a default, and no other parameter has its name. An argument list does
not give the option, and is complete with and without a flag of the option and the default in
front. -/
structure TypedDefault (usage : Usage) (o : OptionSpec) (kind : Kind) (flag d : String)
    (texts : List String) (left typed : Matches) : Prop where
  mem_options : o ∈ usage.options
  kind_eq : o.kind? = some kind
  apart : usage.NamedApart o
  arguments : ∀ a ∈ usage.arguments, a.name ≠ o.name
  mem_flags : flag ∈ o.flags.tokens
  default_eq : usage.default? o.name = some d
  fit_left : usage.fit texts = .ok (.complete left)
  omitted : left.includes o.name = false
  fit_typed : usage.fit (flag :: d :: texts) = .ok (.complete typed)

namespace TypedDefault

variable {flag d : String} {texts : List String} {left typed : Matches}
  (h : TypedDefault usage o kind flag d texts left typed)

include h in
/-- However the argument list is read, it does not give the option. -/
theorem not_gives (hi : usage.Indexed) (hc : Coherent usage.arguments) {items : List Item}
    {rest : List String} (hreading : Reading usage texts items rest) : ¬ Gives items o := by
  intro hgives
  have hhelp := ((fit_eq_complete_iff hi hc).1 h.fit_left).1
  have hsame := (fit_eq_complete_iff hi hc).2 ⟨hhelp, items, rest, hreading, rfl⟩
  rw [h.fit_left, Except.ok.injEq, Outcome.complete.injEq] at hsame
  have hincludes := (includes_of_namedApart hi hreading.fits h.mem_options h.apart rest).2 hgives
  rw [← hsame, h.omitted] at hincludes
  cases hincludes

include h in
theorem argument?_left (hi : usage.Indexed) (hc : Coherent usage.arguments) :
    left.argument? o.name = some (.text d) := by
  obtain ⟨-, items, rest, hreading, rfl⟩ := (fit_eq_complete_iff hi hc).1 h.fit_left
  exact argument?_of_omitted hi hreading.fits h.mem_options h.apart h.arguments h.default_eq
    (h.not_gives hi hc hreading) rest

end TypedDefault

/-- **A default that is left and the same default typed.** The option is not given, and its default
is bound. With a flag of the option and the default in front, either the option is still not given,
or it takes the default as its value, or the default leads an item and the option has a value from
elsewhere. -/
theorem typed_default_cases (hi : usage.Indexed) (hc : Coherent usage.arguments) {flag d : String}
    {texts : List String} {left typed : Matches}
    (h : TypedDefault usage o kind flag d texts left typed) :
    left.argument? o.name = some (.text d) ∧
    ((typed.includes o.name = false ∧ typed.argument? o.name = some (.text d)) ∨
      (typed.includes o.name = true ∧
        ∃ value, kind.coerce? d = some value ∧ typed.argument? o.name = some value) ∨
      (typed.includes o.name = true ∧ (∃ item : Item, item.Fits usage ∧ item.leader = d) ∧
        ∃ raw value, kind.coerce? raw = some value ∧ typed.argument? o.name = some value)) := by
  refine ⟨h.argument?_left hi hc, ?_⟩
  have ho := h.mem_options
  obtain ⟨-, items, rest, hreading, rfl⟩ := (fit_eq_complete_iff hi hc).1 h.fit_typed
  have hincludes := includes_of_namedApart hi hreading.fits ho h.apart rest
  by_cases hgives : Gives items o
  · have hopt := hi.option?_eq_some_iff.2 ⟨ho, h.mem_flags⟩
    right
    rw [hincludes, argument?_of_option hi h.apart h.arguments rest]
    rcases flag_in_front_cases hi hopt h.kind_eq hreading with
      ⟨value, more, rfl, hvalue, hmore⟩ | ⟨digits, more, rfl, hn, htexts⟩
    · have hnil := valuesOf_eq_nil hi hmore.fits ho (h.not_gives hi hc hmore)
      refine .inl ⟨hgives, value, hvalue, ?_⟩
      rw [valuesOf_cons, valuesOf_single hopt h.kind_eq hvalue, hnil]
      rfl
    · -- The option is given behind the number, so an item stands there, led by the default.
      obtain ⟨raw, value, hvalue, hlast⟩ :=
        exists_getLast?_valuesOf hi hreading.fits ho h.kind_eq hgives
      refine .inr ⟨hgives, ?_, raw, value, hvalue, by rw [hlast]; rfl⟩
      cases more with
      | nil =>
        obtain ⟨use, huse, hmem⟩ := hgives
        obtain rfl := List.mem_singleton.1 huse
        exact absurd hmem hn
      | cons item more =>
        rw [List.flatMap_cons, Item.tokens, List.cons_append, List.cons_append,
          List.cons.injEq] at htexts
        exact ⟨item, hreading.fits item (by simp), htexts.1.symm⟩
  · exact .inl ⟨by rwa [← Bool.not_eq_true, hincludes],
      argument?_of_omitted hi hreading.fits ho h.apart h.arguments h.default_eq hgives rest⟩

end Usage

/-! ## Dates -/

/-- What leads an item is no date. -/
theorem Item.Fits.leader_no_date {usage : Usage} {item : Item} (hi : usage.Indexed)
    (h : item.Fits usage) : Date.Pattern.ofText.read? item.leader.toList = none := by
  rw [Option.eq_none_iff_forall_ne_some]
  intro d hd
  cases item with
  | single flag raw =>
    have hselects := h.selects ⟨flag, raw⟩ (List.mem_singleton.2 rfl)
    obtain ⟨o, hopt⟩ := Option.isSome_iff_exists.1 (Usage.isSome_option?_of_select hselects)
    rcases Usage.flag_of_option? hi hopt with ⟨c, rfl⟩ | ⟨l, rfl⟩
    · rw [leader, Flags.shortToken, String.toList_ofList] at hd
      obtain ⟨_, _, ⟨⟩, -, hdash⟩ := Date.Pattern.exists_of_ofText_dash hd
      cases hdash
    · have hl : (Item.single (Flags.longToken l) raw).leader.toList = '-' :: '-' :: l.toList := by
        simp [leader, Flags.longToken]
      rw [hl] at hd
      obtain ⟨_, _, ⟨⟩, hdigit, -⟩ := Date.Pattern.exists_of_ofText_dash hd
      cases hdigit
  | group letters raw =>
    rw [leader, String.toList_ofList] at hd
    obtain ⟨c, t, rfl, hdigit, -⟩ := Date.Pattern.exists_of_ofText_dash hd
    have halpha : c.isAlpha = true := List.all_eq_true.1 h.wellFormed.2 c (by simp)
    rw [Chunk.isDigit_of_isAlpha halpha] at hdigit
    cases hdigit
  | number digits =>
    rw [leader, String.toList_ofList] at hd
    obtain ⟨c, t, rfl, -, hdash⟩ := Date.Pattern.exists_of_ofText_dash hd
    cases List.all_eq_true.1 h.wellFormed.2 '-' (by simp [hdash])

theorem Matches.extract_date {m : Matches} {name : String} {day : Date}
    (h : m.argument? name = some (.date day)) :
    m.extract ScalarType.date.reader name = .ok (some (.date day)) := by
  have hread : Date.Pattern.ofText.read? day.render = some day := Date.Pattern.read?_render rfl day
  apply extract_of_argument? h
  simp [ScalarType.reader, ScalarType.read?, Value.render, hread]

namespace Usage

variable {usage : Usage} {o : OptionSpec}

/-- A default with slashes can be typed, but not be left: the program cannot extract it. -/
theorem slashed_default_fails :
    ∃ usage o left typed day,
      read none "Usage: p\n  --on DATE  (default 1983/09/12)" = .ok usage ∧
      o ∈ usage.options ∧ o.kind? = some .date ∧ usage.default? o.name = some "1983/09/12" ∧
      usage.parameterNames.Nodup ∧ "--on" ∈ o.flags.tokens ∧
      usage.fit [] = .ok (.complete left) ∧ left.includes o.name = false ∧
      usage.fit ["--on", "1983/09/12"] = .ok (.complete typed) ∧
      left.extract ScalarType.date.reader o.name =
        .error (.invalidConversion o.name "1983/09/12" ScalarType.date.name) ∧
      typed.extract ScalarType.date.reader o.name = .ok (some (.date day)) := by
  let usage : Usage :=
    { program := "p"
      message := "Usage: p\n  --on DATE  (default 1983/09/12)"
      arguments := []
      options := [⟨"on", .long "on", some "DATE"⟩]
      flagTable := NameMap.empty.insert "--on" 0
      defaults := NameMap.empty.insert "on" "1983/09/12" }
  let day : Date := ⟨1983, 9, 12, by decide, by decide⟩
  let left : Matches := .ofDefaults usage.defaults
  let typed : Matches := (left.mark "on").set "on" (.date day)
  refine ⟨usage, ⟨"on", .long "on", some "DATE"⟩, left, typed, day, by decide +kernel,
    by decide +kernel, by decide +kernel, by decide +kernel, by decide +kernel, by decide +kernel,
    by decide +kernel, by decide +kernel, by decide +kernel, ?_, ?_⟩
  · exact Matches.extract_eq_error_iff.2
      ⟨.text "1983/09/12", by decide +kernel, by decide +kernel, rfl⟩
  · exact Matches.extract_date (by decide +kernel)

/-- **A default with dashes is the same date, left or typed.** An option for dates has a default,
and no other parameter has its name. An argument list does not give the option, and is complete with
and without a flag of the option and the default in front. Then the program extracts the same, if
the default has dashes or the option is not given even so. Otherwise the default that was left is
no date for the program, and typed it is one. -/
theorem default_date_typed {given : Option String} {source : String} {flag d : String}
    {texts : List String} {left typed : Matches} (hread : read given source = .ok usage)
    (h : TypedDefault usage o .date flag d texts left typed) :
    ((typed.includes o.name = true → (Date.Pattern.dashed.read? d.toList).isSome) →
      left.extract ScalarType.date.reader o.name =
        typed.extract ScalarType.date.reader o.name) ∧
    (typed.includes o.name = true → Date.Pattern.dashed.read? d.toList = none →
      left.extract ScalarType.date.reader o.name =
        .error (.invalidConversion o.name d ScalarType.date.name) ∧
      ∃ day, typed.extract ScalarType.date.reader o.name = .ok (some (.date day)) ∧
        (IsValue d → Date.coerce? d.toList = some day)) := by
  have hi := indexed_of_read hread
  obtain ⟨hargument, hcases⟩ := typed_default_cases hi (coherent_of_read hread) h
  have hfails : Date.Pattern.ofText.read? d.toList = none →
      left.extract ScalarType.date.reader o.name =
        .error (.invalidConversion o.name d ScalarType.date.name) := by
    intro hnone
    refine Matches.extract_eq_error_iff.2 ⟨_, hargument, ?_, rfl⟩
    simp [ScalarType.reader, ScalarType.read?, Value.render, hnone]
  rcases hcases with ⟨hnot, hsame⟩ | ⟨hgiven, value, hvalue, hbound⟩ |
    ⟨hgiven, ⟨item, hfits, rfl⟩, raw, value, hvalue, hbound⟩
  · -- The default is bound either way.
    constructor
    · intro _
      rw [Matches.extract, Matches.extract, hargument, hsame]
    · intro hgiven
      rw [hnot] at hgiven
      cases hgiven
  · obtain ⟨day, hday, rfl⟩ := Option.map_eq_some_iff.1 hvalue
    have htext := Date.Pattern.ofText_read?_of_coerce? hday
    constructor
    · intro hdashed
      obtain ⟨day', hday'⟩ := Option.isSome_iff_exists.1 (hdashed hgiven)
      obtain rfl := Option.some.inj (hday.symm.trans (Date.Pattern.coerce?_of_dashed hday'))
      rw [Matches.extract_date hbound]
      apply Matches.extract_of_argument? hargument
      simp [ScalarType.reader, ScalarType.read?, Value.render, htext, hday']
    · intro _ hnone
      exact ⟨hfails (htext.trans hnone), day, Matches.extract_date hbound, fun _ => hday⟩
  · -- The default leads an item, so it is no date, and the option has its value from elsewhere.
    obtain ⟨day, -, rfl⟩ := Option.map_eq_some_iff.1 hvalue
    have hnone := hfits.leader_no_date hi
    constructor
    · intro hdashed
      obtain ⟨day', hday'⟩ := Option.isSome_iff_exists.1 (hdashed hgiven)
      rw [Date.Pattern.ofText_of_dashed hday'] at hnone
      cases hnone
    · intro _ _
      refine ⟨hfails hnone, day, Matches.extract_date hbound, fun hvalue => ?_⟩
      exact absurd hvalue (hfits.not_isValue_leader hi)

/-- A default that is not written as a date would be, but has dashes. -/
theorem default_date_typed_sign :
    ∃ usage left typed,
      read none "Usage: p [file]\n  -d, --on DATE  (default +83-9-1)" = .ok usage ∧
      usage.fit ["a"] = .ok (.complete left) ∧ left.includes "on" = false ∧
      usage.fit ["-d", "+83-9-1", "a"] = .ok (.complete typed) ∧
      left.argument? "on" ≠ typed.argument? "on" ∧
      left.extract ScalarType.date.reader "on" = typed.extract ScalarType.date.reader "on" := by
  let o : OptionSpec := ⟨"on", .both 'd' "on", some "DATE"⟩
  let usage : Usage :=
    { program := "p"
      message := "Usage: p [file]\n  -d, --on DATE  (default +83-9-1)"
      arguments := [⟨"file", .optional⟩]
      options := [o]
      flagTable := NameMap.empty.insertAll [("-d", 0), ("--on", 0)]
      defaults := NameMap.empty.insert "on" "+83-9-1" }
  let left := usage.meaning [] ["a"]
  let typed := usage.meaning [.single "-d" (some "+83-9-1")] ["a"]
  have hread : read none "Usage: p [file]\n  -d, --on DATE  (default +83-9-1)" = .ok usage := by
    decide +kernel
  have hdefault : TypedDefault usage o .date "-d" "+83-9-1" ["a"] left typed :=
    { mem_options := by decide +kernel
      kind_eq := by decide +kernel
      apart := by unfold NamedApart; decide +kernel
      arguments := by decide +kernel
      mem_flags := by decide +kernel
      default_eq := by decide +kernel
      fit_left := by decide +kernel
      omitted := by decide +kernel
      fit_typed := by decide +kernel }
  refine ⟨usage, left, typed, hread, hdefault.fit_left, hdefault.omitted, hdefault.fit_typed,
    by decide +kernel, ?_⟩
  exact (default_date_typed hread hdefault).1 fun _ => by decide +kernel

end Usage

end Synopsis
