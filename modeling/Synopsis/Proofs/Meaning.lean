import Synopsis.Proofs.Grammar

/-!
# What a complete argument list means

Three layers write to the values of a match: the defaults, then the options from left to right,
then the positionals in declared order. The last one that writes to a name wins, so each layer is
a list of bindings of which `NameMap.last?` picks one, and a later layer is asked first. Which
options were given is recorded apart from the values, and neither the defaults nor the
positionals touch it.
-/

namespace Synopsis

/-! ## The three layers -/

namespace Usage

/-- The bindings that the options of a reading make, from first to last. -/
def optionBindings (usage : Usage) (items : List Item) : List (String × Value) :=
  (usage.selections (items.flatMap Item.uses)).filterMap Selection.binding?

theorem includes_meaning {usage : Usage} {items : List Item} {rest : List String}
    {name : String} :
    (usage.meaning items rest).includes name = true ↔
      ∃ s ∈ usage.selections (items.flatMap Item.uses), s.option.name = name := by
  rw [meaning, Matches.includes_setAll, Matches.includes_recordAll, Matches.includes_ofDefaults]
  simp

theorem argument?_meaning (usage : Usage) (items : List Item) (rest : List String)
    (name : String) :
    (usage.meaning items rest).argument? name =
      (NameMap.last? name (Positional.bindings rest usage.arguments)).or
        ((NameMap.last? name (usage.optionBindings items)).or
          ((usage.default? name).map .text)) := by
  rw [meaning, Matches.argument?_setAll, Matches.argument?_recordAll,
    Matches.argument?_ofDefaults]
  rfl

theorem mem_optionBindings {usage : Usage} {items : List Item} {b : String × Value} :
    b ∈ usage.optionBindings items ↔
      ∃ s ∈ usage.selections (items.flatMap Item.uses), s.binding? = some b :=
  List.mem_filterMap

/-- A default stays if neither an option nor a positional of its name is there. -/
theorem argument?_meaning_of_default {usage : Usage} {items : List Item} {rest : List String}
    {name d : String} (hd : usage.default? name = some d)
    (hoptions : ∀ s ∈ usage.selections (items.flatMap Item.uses), s.option.name ≠ name)
    (hpositionals : ∀ b ∈ Positional.bindings rest usage.arguments, b.1 ≠ name) :
    (usage.meaning items rest).argument? name = some (.text d) := by
  have hnone : ∀ b ∈ usage.optionBindings items, b.1 ≠ name := by
    intro b hb
    obtain ⟨s, hs, hbinding⟩ := mem_optionBindings.1 hb
    obtain ⟨value, -, rfl⟩ := Option.map_eq_some_iff.1 hbinding
    exact hoptions s hs
  rw [argument?_meaning, NameMap.last?_eq_none hpositionals, NameMap.last?_eq_none hnone, hd]
  rfl

/-- An option that takes a value replaces the default: the name has a value that an option or a
positional gave it. -/
theorem exists_argument?_meaning {usage : Usage} {items : List Item} {rest : List String}
    {s : Selection} (hs : s ∈ usage.selections (items.flatMap Item.uses))
    (hsome : s.value.isSome) :
    ∃ value, (usage.meaning items rest).argument? s.option.name = some value ∧
      (s.option.name, value) ∈
        usage.optionBindings items ++ Positional.bindings rest usage.arguments := by
  obtain ⟨value, hvalue⟩ := Option.isSome_iff_exists.1 hsome
  have hmem : (s.option.name, value) ∈ usage.optionBindings items :=
    mem_optionBindings.2 ⟨s, hs, by rw [Selection.binding?, hvalue]; rfl⟩
  obtain ⟨last, hlast⟩ := Option.isSome_iff_exists.1 (NameMap.isSome_last? hmem)
  rw [argument?_meaning, hlast]
  cases hpos : NameMap.last? s.option.name (Positional.bindings rest usage.arguments) with
  | none => exact ⟨last, rfl, List.mem_append_left _ (NameMap.mem_of_last? hlast)⟩
  | some v => exact ⟨v, rfl, List.mem_append_right _ (NameMap.mem_of_last? hpos)⟩

/-- **Every reading of a complete argument list says what was found.** The options that were given
are those that its items select. A name has the value of the last positional of that name that
receives one, or else that of the last option of that name that takes one, or else its default.
So a default stays if its option is left out, gives way to the value of an option, and never
makes an option count as given. -/
theorem complete_meaning {given : Option String} {text : String} {usage : Usage}
    (h : read given text = .ok usage) {texts : List String} {m : Matches}
    (hm : usage.fit texts = .ok (.complete m)) :
    (∃ items rest, Reading usage texts items rest) ∧
    ∀ items rest, Reading usage texts items rest →
      (∀ name, m.includes name = true ↔
        ∃ s ∈ usage.selections (items.flatMap Item.uses), s.option.name = name) ∧
      (∀ name, m.argument? name =
        (NameMap.last? name (Positional.bindings rest usage.arguments)).or
          ((NameMap.last? name (usage.optionBindings items)).or
            ((usage.default? name).map .text))) ∧
      (∀ name d, usage.default? name = some d →
        (∀ s ∈ usage.selections (items.flatMap Item.uses), s.option.name ≠ name) →
          m.includes name = false ∧
          ((∀ b ∈ Positional.bindings rest usage.arguments, b.1 ≠ name) →
            m.argument? name = some (.text d))) ∧
      ∀ s ∈ usage.selections (items.flatMap Item.uses), s.value.isSome →
        ∃ value, m.argument? s.option.name = some value ∧
          (s.option.name, value) ∈
            usage.optionBindings items ++ Positional.bindings rest usage.arguments := by
  have hi := indexed_of_read h
  have hc := coherent_of_read h
  obtain ⟨hhelp, items, rest, hreading, -⟩ := (fit_eq_complete_iff hi hc).1 hm
  refine ⟨⟨items, rest, hreading⟩, ?_⟩
  intro items rest hreading
  have hsame := (fit_eq_complete_iff hi hc).2 ⟨hhelp, items, rest, hreading, rfl⟩
  rw [hm, Except.ok.injEq, Outcome.complete.injEq] at hsame
  subst hsame
  refine ⟨fun name => includes_meaning, usage.argument?_meaning items rest, ?_, ?_⟩
  · intro name d hd homitted
    refine ⟨?_, argument?_meaning_of_default hd homitted⟩
    rw [← Bool.not_eq_true, includes_meaning]
    intro h
    obtain ⟨s, hs, hname⟩ := h
    exact homitted s hs hname
  · intro s hs hsome
    exact exists_argument?_meaning hs hsome

/-- The last of two values replaces the default of an option, and the default of another one stays
although that is not given. -/
theorem complete_meaning_two_defaults :
    ∃ usage m,
      read none "Usage: p file\n  -r NUM (default 3)\n  -k NUM (default 7)" = .ok usage ∧
      usage.fit ["-r", "4", "-r", "5", "a"] = .ok (.complete m) ∧
      m.argument? "r" = some (.integer 5) ∧ m.argument? "k" = some (.text "7") ∧
      m.includes "k" = false := by
  let usage : Usage :=
    { program := "p"
      message := "Usage: p file\n  -r NUM (default 3)\n  -k NUM (default 7)"
      arguments := [⟨"file", .required⟩]
      options := [⟨"r", .short 'r', some "NUM"⟩, ⟨"k", .short 'k', some "NUM"⟩]
      flagTable := NameMap.empty.insertAll [("-r", 0), ("-k", 1)]
      defaults := NameMap.empty.insertAll [("r", "3"), ("k", "7")] }
  let items : List Item := [.single "-r" (some "4"), .single "-r" (some "5")]
  have hread : read none "Usage: p file\n  -r NUM (default 3)\n  -k NUM (default 7)" =
      .ok usage := by decide +kernel
  have hfit : usage.fit ["-r", "4", "-r", "5", "a"] =
      .ok (.complete (usage.meaning items ["a"])) := by decide +kernel
  have hreading : Reading usage ["-r", "4", "-r", "5", "a"] items ["a"] := by decide +kernel
  obtain ⟨-, hvalue, hdefault, -⟩ := (complete_meaning hread hfit).2 items ["a"] hreading
  obtain ⟨hgiven, hk⟩ := hdefault "k" "7" (by decide +kernel) (by decide +kernel)
  exact ⟨usage, _, hread, hfit, (hvalue "r").trans (by decide +kernel), hk (by decide +kernel),
    hgiven⟩

end Usage

end Synopsis
