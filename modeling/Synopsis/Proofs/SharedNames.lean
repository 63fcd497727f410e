import Synopsis.Proofs.Meaning

/-!
# Parameters that share a name

A match keeps what it finds by canonical name, and canonical spelling makes one name of several:
`-v` and `-V`, `--dry-run` and `--dry_run`, an option `--file` and a positional `file`. Parameters
that share a name share its place in a match, where the last one to write wins.

Nothing else makes parameters share a place. The options of a usage have the names of those
declarations that keep a flag (`OptionSpec.names_survivors`), and a parameter whose name no other
one has is on its own in a match: it counts as given exactly if one of its own flags is used, and
its value is its own.
-/

namespace Synopsis

namespace NameMap

theorem last?_eq_getLast? {α : Type} (name : String) (entries : List (String × α)) :
    last? name entries =
      (entries.filterMap fun e => if e.1 = name then some e.2 else none).getLast? := by
  induction entries with
  | nil => rfl
  | cons e entries ih =>
    rw [last?_cons, ih, List.filterMap_cons]
    by_cases h : e.1 = name
    · simp only [h, if_true, List.getLast?_cons]
      cases List.getLast? _ <;> rfl
    · simp only [h, if_false, Option.or_none]

end NameMap

namespace OptionSpec

/-- The declarations that keep a flag: not all of their flags are declared again later. -/
def lasting : List Declaration → List Declaration
  | [] => []
  | d :: later =>
    if ∃ flag ∈ d.flags.tokens, flag ∉ declaredTokens later then d :: lasting later
    else lasting later

theorem isSome_outlive?_iff {later : List Declaration} {o : OptionSpec} :
    (outlive? later o).isSome ↔ ∃ flag ∈ o.flags.tokens, flag ∉ declaredTokens later := by
  constructor
  · intro h
    obtain ⟨p, hp⟩ := Option.isSome_iff_exists.1 h
    obtain ⟨flag, hflag⟩ := List.exists_mem_of_ne_nil _ p.flags.tokens_ne_nil
    exact ⟨flag, ((outlive?_keeps hp).2.2 flag).1 hflag⟩
  · rintro ⟨flag, hflag, hkept⟩
    obtain ⟨rest, hrest⟩ := Flags.exists_minus hflag hkept
    rw [outlive?, hrest]
    rfl

theorem names_survivors (ds : List Declaration) :
    (survivors ds).map (·.name) = (lasting ds).map (·.flags.canonicalName) := by
  induction ds with
  | nil => rfl
  | cons d later ih =>
    have hlasts : (outlive? later (ofDeclaration d)).isSome ↔
        ∃ flag ∈ d.flags.tokens, flag ∉ declaredTokens later := isSome_outlive?_iff
    rw [survivors, lasting]
    cases h : outlive? later (ofDeclaration d) with
    | none =>
      rw [h] at hlasts
      rw [if_neg fun hflag => Bool.false_ne_true (hlasts.2 hflag), Option.toList_none,
        List.nil_append, ih]
    | some o =>
      have hname : o.name = d.flags.canonicalName := (outlive?_keeps h).1
      rw [h] at hlasts
      rw [if_pos (hlasts.1 rfl), Option.toList_some, List.singleton_append, List.map_cons,
        List.map_cons, hname, ih]

end OptionSpec

namespace Positional

theorem name_of_mem_bindingsAfter {values : List String} {before after : List Argument}
    {e : String × Value} (h : e ∈ bindingsAfter values before after) :
    ∃ a ∈ after, a.name = e.1 := by
  induction after generalizing before with
  | nil => cases h
  | cons a after ih =>
    rw [bindingsAfter, List.mem_append, Option.mem_toList, Option.map_eq_some_iff] at h
    rcases h with ⟨value, -, rfl⟩ | h
    · exact ⟨a, by simp, rfl⟩
    · obtain ⟨b, hb, hname⟩ := ih h
      exact ⟨b, by simp [hb], hname⟩

/-- A positional whose name no other one has is bound to its own share of the values. -/
theorem last?_bindingsAfter (values : List String) (first before : List Argument) {a : Argument}
    {after : List Argument} (hbefore : ∀ b ∈ before, b.name ≠ a.name)
    (hafter : ∀ b ∈ after, b.name ≠ a.name) :
    NameMap.last? a.name (bindingsAfter values first (before ++ a :: after)) =
      share values (first ++ before) a.arity after := by
  induction before generalizing first with
  | nil =>
    have hlater : NameMap.last? a.name (bindingsAfter values (first ++ [a]) after) = none := by
      refine NameMap.last?_eq_none fun e he => ?_
      obtain ⟨b, hb, hname⟩ := name_of_mem_bindingsAfter he
      exact hname ▸ hafter b hb
    rw [List.nil_append, bindingsAfter, NameMap.last?_append, hlater, List.append_nil]
    cases share values first a.arity after <;> simp [NameMap.last?_cons]
  | cons b before ih =>
    obtain ⟨hb, hbefore⟩ := List.forall_mem_cons.1 hbefore
    rw [List.cons_append, bindingsAfter, NameMap.last?_append, ih (first ++ [b]) hbefore,
      List.append_assoc, List.singleton_append]
    cases share values first b.arity (before ++ a :: after) <;> simp [NameMap.last?_cons, hb]

end Positional

namespace Usage

/-- The names of all parameters, those of the options and those of the positionals. -/
def parameterNames (usage : Usage) : List String :=
  usage.options.map (·.name) ++ usage.arguments.map (·.name)

/-- No other option has the name of this one. -/
def NamedApart (usage : Usage) (o : OptionSpec) : Prop :=
  ∀ p ∈ usage.options, p.name = o.name → p = o

/-- The values that the option takes, from first to last. -/
def valuesOf (usage : Usage) (items : List Item) (o : OptionSpec) : List Value :=
  (usage.selections (items.flatMap Item.uses)).filterMap fun s =>
    if s.option = o then s.value else none

/-- The option was given: a flag of it is used. -/
def Gives (items : List Item) (o : OptionSpec) : Prop :=
  ∃ use ∈ items.flatMap Item.uses, use.flag ∈ o.flags.tokens

variable {usage : Usage} {items : List Item} {o : OptionSpec}

theorem option?_of_select? {use : FlagUse} {s : Selection} (h : usage.select? use = some s) :
    usage.option? use.flag = some s.option := by
  obtain ⟨flag, raw⟩ := use
  cases raw with
  | none =>
    obtain ⟨o, hopt, -, rfl⟩ := select?_switch_iff.1 h
    exact hopt
  | some raw =>
    obtain ⟨o, kind, value, hopt, -, -, rfl⟩ := select?_valued_iff.1 h
    exact hopt

theorem mem_options_of_selection (hi : usage.Indexed) {uses : List FlagUse} {s : Selection}
    (hs : s ∈ usage.selections uses) : s.option ∈ usage.options := by
  obtain ⟨use, -, hselect⟩ := List.mem_filterMap.1 hs
  exact (hi.option?_eq_some_iff.1 (option?_of_select? hselect)).1

/-- An option is selected exactly if it was given. -/
theorem exists_selection_iff (hi : usage.Indexed) (hfits : ∀ item ∈ items, item.Fits usage)
    (ho : o ∈ usage.options) :
    (∃ s ∈ usage.selections (items.flatMap Item.uses), s.option = o) ↔ Gives items o := by
  constructor
  · rintro ⟨s, hs, rfl⟩
    obtain ⟨use, huse, hselect⟩ := List.mem_filterMap.1 hs
    exact ⟨use, huse, (hi.option?_eq_some_iff.1 (option?_of_select? hselect)).2⟩
  · rintro ⟨use, huse, hflag⟩
    obtain ⟨item, hitem, hmem⟩ := List.mem_flatMap.1 huse
    obtain ⟨s, hselect⟩ := Option.isSome_iff_exists.1 ((hfits item hitem).selects use hmem)
    have hopt := hi.option?_eq_some_iff.2 ⟨ho, hflag⟩
    rw [option?_of_select? hselect, Option.some.injEq] at hopt
    exact ⟨s, List.mem_filterMap.2 ⟨use, huse, hselect⟩, hopt⟩

theorem includes_of_namedApart (hi : usage.Indexed) (hfits : ∀ item ∈ items, item.Fits usage)
    (ho : o ∈ usage.options) (hapart : usage.NamedApart o) (rest : List String) :
    (usage.meaning items rest).includes o.name = true ↔ Gives items o := by
  rw [includes_meaning, ← exists_selection_iff hi hfits ho]
  refine exists_congr fun s => and_congr_right fun hs => ?_
  exact ⟨hapart _ (mem_options_of_selection hi hs), congrArg OptionSpec.name⟩

theorem last?_optionBindings (hi : usage.Indexed) (hapart : usage.NamedApart o) :
    NameMap.last? o.name (usage.optionBindings items) = (usage.valuesOf items o).getLast? := by
  rw [NameMap.last?_eq_getLast?, optionBindings, List.filterMap_filterMap, valuesOf]
  refine congrArg List.getLast? (List.filterMap_congr fun s hs => ?_)
  have hsame : s.option.name = o.name ↔ s.option = o :=
    ⟨hapart _ (mem_options_of_selection hi hs), congrArg OptionSpec.name⟩
  rw [Selection.binding?]
  cases s.value <;> simp [hsame]

theorem argument?_of_option (hi : usage.Indexed) (hapart : usage.NamedApart o)
    (harguments : ∀ a ∈ usage.arguments, a.name ≠ o.name) (rest : List String) :
    (usage.meaning items rest).argument? o.name =
      (usage.valuesOf items o).getLast?.or ((usage.default? o.name).map .text) := by
  have hnone : NameMap.last? o.name (Positional.bindings rest usage.arguments) = none := by
    refine NameMap.last?_eq_none fun e he => ?_
    obtain ⟨a, ha, hname⟩ := Positional.name_of_mem_bindingsAfter he
    exact hname ▸ harguments a ha
  rw [argument?_meaning, hnone, last?_optionBindings hi hapart]
  rfl

theorem argument?_of_positional (hi : usage.Indexed) {before after : List Argument} {a : Argument}
    (ha : usage.arguments = before ++ a :: after) (hothers : ∀ b ∈ before ++ after, b.name ≠ a.name)
    (hoptions : ∀ p ∈ usage.options, p.name ≠ a.name) (rest : List String) :
    (usage.meaning items rest).argument? a.name =
      (Positional.share rest before a.arity after).or ((usage.default? a.name).map .text) := by
  have hnone : NameMap.last? a.name (usage.optionBindings items) = none := by
    refine NameMap.last?_eq_none fun e he => ?_
    obtain ⟨s, hs, hbinding⟩ := mem_optionBindings.1 he
    obtain ⟨value, -, rfl⟩ := Option.map_eq_some_iff.1 hbinding
    exact hoptions _ (mem_options_of_selection hi hs)
  rw [List.forall_mem_append] at hothers
  rw [argument?_meaning, hnone, ha, Positional.bindings,
    Positional.last?_bindingsAfter rest [] before hothers.1 hothers.2]
  rfl

/-- Three parameters of one name: an option counts as given because another one is, and the value
of that one gives way to the positional. -/
theorem shared_name_loses_value :
    ∃ usage m items, read none "Usage: copy [-v] [-V NUM] v" = .ok usage ∧
      ¬ usage.parameterNames.Nodup ∧
      usage.fit ["-V", "1", "x"] = .ok (.complete m) ∧
      Reading usage ["-V", "1", "x"] items ["x"] ∧
      (⟨"v", .short 'v', none⟩ : OptionSpec) ∈ usage.options ∧
      ¬ Gives items ⟨"v", .short 'v', none⟩ ∧ m.includes "v" = true ∧
      usage.valuesOf items ⟨"v", .short 'V', some "NUM"⟩ = [.integer 1] ∧
      m.argument? "v" = some (.text "x") := by
  let usage : Usage :=
    { program := "copy"
      message := "Usage: copy [-v] [-V NUM] v"
      arguments := [⟨"v", .required⟩]
      options := [⟨"v", .short 'v', none⟩, ⟨"v", .short 'V', some "NUM"⟩]
      flagTable := NameMap.empty.insertAll [("-v", 0), ("-V", 1)]
      defaults := .empty }
  let items : List Item := [.single "-V" (some "1")]
  unfold Gives
  refine ⟨usage, usage.meaning items ["x"], items, ?_, ?_, ?_, ?_, ?_, ?_, ?_, ?_, ?_⟩ <;>
    decide +kernel

/-- **A parameter on its own in name is on its own in a match.** No two parameters share a name
exactly if no two of the declarations that keep a flag and of the positionals are spelled alike. In
every complete match an option whose name no other option has counts as given exactly if it was,
and a parameter whose name no other one has keeps its own value: the last one of an option, the
share of a positional, or else the default. -/
theorem own_name_keeps_value {given : Option String} {text : String}
    (h : read given text = .ok usage) :
    (usage.parameterNames.Nodup ↔
      ((OptionSpec.lasting (declarations text)).map (·.flags.canonicalName) ++
        usage.arguments.map (·.name)).Nodup) ∧
    ∀ texts m, usage.fit texts = .ok (.complete m) →
      (∃ items rest, Reading usage texts items rest) ∧
      ∀ items rest, Reading usage texts items rest →
        (∀ o ∈ usage.options, usage.NamedApart o → (m.includes o.name = true ↔ Gives items o)) ∧
        (∀ o ∈ usage.options, usage.NamedApart o → (∀ a ∈ usage.arguments, a.name ≠ o.name) →
          m.argument? o.name =
            (usage.valuesOf items o).getLast?.or ((usage.default? o.name).map .text)) ∧
        ∀ before a after, usage.arguments = before ++ a :: after →
          (∀ b ∈ before ++ after, b.name ≠ a.name) → (∀ p ∈ usage.options, p.name ≠ a.name) →
          m.argument? a.name = (Positional.share rest before a.arity after).or
            ((usage.default? a.name).map .text) := by
  have hi := indexed_of_read h
  have hc := coherent_of_read h
  constructor
  · rw [parameterNames, options_eq_survivors h, OptionSpec.names_survivors]
  · intro texts m hm
    obtain ⟨hhelp, items, rest, hreading, -⟩ := (fit_eq_complete_iff hi hc).1 hm
    refine ⟨⟨items, rest, hreading⟩, ?_⟩
    intro items rest hreading
    have hsame := (fit_eq_complete_iff hi hc).2 ⟨hhelp, items, rest, hreading, rfl⟩
    rw [hm, Except.ok.injEq, Outcome.complete.injEq] at hsame
    subst hsame
    refine ⟨?_, ?_, ?_⟩
    · intro o ho hapart
      exact includes_of_namedApart hi hreading.fits ho hapart rest
    · intro o _ hapart harguments
      exact argument?_of_option hi hapart harguments rest
    · intro before a after ha hothers hoptions
      exact argument?_of_positional hi ha hothers hoptions rest

/-- Two options and a positional of three names: the last of two values is kept, beside an option
that is not given. -/
theorem own_name_keeps_value_three_names :
    ∃ usage m, read none "Usage: p [-q] [-n NUM] src" = .ok usage ∧
      usage.fit ["-n", "2", "-n", "3", "x"] = .ok (.complete m) ∧ usage.parameterNames.Nodup ∧
      (m.includes "q" = true ↔
        Gives [.single "-n" (some "2"), .single "-n" (some "3")] ⟨"q", .short 'q', none⟩) ∧
      m.argument? "n" = some (.integer 3) ∧ m.argument? "src" = some (.text "x") := by
  let usage : Usage :=
    { program := "p"
      message := "Usage: p [-q] [-n NUM] src"
      arguments := [⟨"src", .required⟩]
      options := [⟨"q", .short 'q', none⟩, ⟨"n", .short 'n', some "NUM"⟩]
      flagTable := NameMap.empty.insertAll [("-q", 0), ("-n", 1)]
      defaults := .empty }
  let items : List Item := [.single "-n" (some "2"), .single "-n" (some "3")]
  have hread : read none "Usage: p [-q] [-n NUM] src" = .ok usage := by decide +kernel
  have hfit : usage.fit ["-n", "2", "-n", "3", "x"] =
      .ok (.complete (usage.meaning items ["x"])) := by decide +kernel
  have hreading : Reading usage ["-n", "2", "-n", "3", "x"] items ["x"] := by decide +kernel
  obtain ⟨hnames, hmatch⟩ := own_name_keeps_value hread
  obtain ⟨hgiven, hoption, hpositional⟩ := (hmatch _ _ hfit).2 items ["x"] hreading
  refine ⟨usage, _, hread, hfit, hnames.2 (by decide +kernel), ?_, ?_, ?_⟩
  · exact hgiven ⟨"q", .short 'q', none⟩ (by decide) (by unfold NamedApart; decide +kernel)
  · exact (hoption ⟨"n", .short 'n', some "NUM"⟩ (by decide) (by unfold NamedApart; decide +kernel)
      (by decide +kernel)).trans (by decide +kernel)
  · exact (hpositional [] ⟨"src", .required⟩ [] rfl (by decide) (by decide +kernel)).trans
      (by decide +kernel)

end Usage

end Synopsis
