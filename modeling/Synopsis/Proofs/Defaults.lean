import Synopsis.Proofs.SharedNames

/-!
# Defaults and the declarations that give them

A default is kept under the canonical name of its declaration, in a table of its own. A later
declaration replaces it only by a default of its own for the same name; that the flags of the
declaration are declared again does not touch the table, although it may take the option away. So a
default can outlive its declaration, and then stands under a name that belongs to another
declaration or to none.

`Usage.DefaultsFollow` says that this does not happen. `Usage.defaults_follow_iff` tells for which
texts it holds: whenever a declaration is replaced that gives the last default of its name, one of
the same name that is not replaced gives the same default.
-/

namespace Synopsis

/-! ## The table of defaults -/

namespace Declaration

/-- The default that the declaration gives, under its canonical name. -/
def annotation? (d : Declaration) : Option (String × String) :=
  d.defaultValue.map fun value => (d.flags.canonicalName, value)

theorem annotation?_eq_some_iff {d : Declaration} {name value : String} :
    d.annotation? = some (name, value) ↔
      d.flags.canonicalName = name ∧ d.defaultValue = some value := by
  rw [annotation?]
  cases d.defaultValue <;> simp

end Declaration

namespace Usage

/-- The defaults that a list of declarations gives, from first to last. -/
def annotations (ds : List Declaration) : List (String × String) :=
  ds.filterMap Declaration.annotation?

theorem mem_annotations {ds : List Declaration} {name value : String} :
    (name, value) ∈ annotations ds ↔
      ∃ d ∈ ds, d.flags.canonicalName = name ∧ d.defaultValue = some value := by
  simp only [annotations, List.mem_filterMap, Declaration.annotation?_eq_some_iff]

/-- The table of defaults is filled with the defaults from first to last. -/
theorem defaultsOf_eq_insertAll (ds : List Declaration) :
    defaultsOf ds = NameMap.empty.insertAll (annotations ds) := by
  rw [NameMap.insertAll, annotations, List.foldl_filterMap, defaultsOf]
  congr 1
  funext m d
  rw [Declaration.annotation?]
  cases d.defaultValue <;> rfl

theorem get?_defaultsOf (ds : List Declaration) (name : String) :
    (defaultsOf ds).get? name = NameMap.last? name (annotations ds) := by
  rw [defaultsOf_eq_insertAll, NameMap.get?_insertAll, NameMap.get?_empty, Option.or_none]

theorem annotations_append (ds es : List Declaration) :
    annotations (ds ++ es) = annotations ds ++ annotations es :=
  List.filterMap_append

theorem annotations_cons (d : Declaration) (ds : List Declaration) :
    annotations (d :: ds) = d.annotation?.toList ++ annotations ds := by
  rw [annotations, List.filterMap_cons]
  cases d.annotation? <;> rfl

theorem last?_annotations_eq_none_iff {ds : List Declaration} {name : String} :
    NameMap.last? name (annotations ds) = none ↔
      ∀ d ∈ ds, d.flags.canonicalName = name → d.defaultValue = none := by
  constructor
  · intro h d hd hname
    by_contra hdefault
    obtain ⟨value, hvalue⟩ := Option.ne_none_iff_exists'.1 hdefault
    have hsome := NameMap.isSome_last? (mem_annotations.2 ⟨d, hd, hname, hvalue⟩)
    rw [h] at hsome
    cases hsome
  · intro h
    apply NameMap.last?_eq_none
    rintro ⟨key, value⟩ hmem rfl
    obtain ⟨d, hd, hname, hvalue⟩ := mem_annotations.1 hmem
    rw [h d hd hname] at hvalue
    cases hvalue

/-- The default of a name comes from the last declaration of this name that gives one. -/
theorem last?_annotations_eq_some_iff {ds : List Declaration} {name value : String} :
    NameMap.last? name (annotations ds) = some value ↔
      ∃ before d later, ds = before ++ d :: later ∧ d.flags.canonicalName = name ∧
        d.defaultValue = some value ∧
        ∀ e ∈ later, e.flags.canonicalName = name → e.defaultValue = none := by
  constructor
  · intro h
    induction ds with
    | nil => cases h
    | cons d ds ih =>
      rw [annotations_cons, NameMap.last?_append, Option.or_eq_some_iff] at h
      rcases h with h | ⟨hnone, h⟩
      · obtain ⟨before, d', later, rfl, hd'⟩ := ih h
        exact ⟨d :: before, d', later, rfl, hd'⟩
      · have hd := Option.mem_toList.1 (NameMap.mem_of_last? h)
        obtain ⟨hname, hvalue⟩ := Declaration.annotation?_eq_some_iff.1 hd
        exact ⟨[], d, ds, rfl, hname, hvalue, last?_annotations_eq_none_iff.1 hnone⟩
  · rintro ⟨before, d, later, rfl, hname, hvalue, hlater⟩
    have hd := Declaration.annotation?_eq_some_iff.2 ⟨hname, hvalue⟩
    have hone : NameMap.last? name [(name, value)] = some value := by
      simp [NameMap.last?_cons]
    rw [annotations_append, annotations_cons, hd, Option.toList_some, NameMap.last?_append,
      NameMap.last?_append, last?_annotations_eq_none_iff.2 hlater, hone]
    rfl

/-- The defaults of a usage come from the declarations of its text. -/
theorem default?_of_read {given : Option String} {text : String} {usage : Usage}
    (h : read given text = .ok usage) (name : String) :
    usage.default? name = NameMap.last? name (annotations (declarations text)) := by
  obtain ⟨token, rest, elements, hline, hes, -, rfl⟩ := exists_of_read h
  rw [← get?_defaultsOf, default?]
  simp only [assemble, declarations, hline, Option.getD_some, List.tail_cons,
    UsageLine.inlineDeclarations_elements hes]

end Usage

/-! ## Options and the declarations they come from -/

namespace OptionSpec

/-- The option comes from the declaration: it is what later declarations leave of it. -/
def ComesFrom (o : OptionSpec) (ds : List Declaration) (d : Declaration) : Prop :=
  ∃ before later, ds = before ++ d :: later ∧ outlive? later (ofDeclaration d) = some o

theorem ComesFrom.name_eq {o : OptionSpec} {ds : List Declaration} {d : Declaration}
    (h : o.ComesFrom ds d) : o.name = d.flags.canonicalName := by
  obtain ⟨before, later, -, ho⟩ := h
  exact (outlive?_keeps ho).1

theorem ComesFrom.mem_survivors {o : OptionSpec} {ds : List Declaration} {d : Declaration}
    (h : o.ComesFrom ds d) : o ∈ survivors ds := by
  obtain ⟨before, later, hds, ho⟩ := h
  exact OptionSpec.mem_survivors.2 ⟨before, d, later, hds, ho⟩

theorem comesFrom_cons {o : OptionSpec} {e d : Declaration} {ds : List Declaration} :
    o.ComesFrom (e :: ds) d ↔
      (d = e ∧ outlive? ds (ofDeclaration e) = some o) ∨ o.ComesFrom ds d := by
  constructor
  · rintro ⟨before, later, hds, ho⟩
    cases before with
    | nil => cases hds; exact .inl ⟨rfl, ho⟩
    | cons b before => cases hds; exact .inr ⟨before, later, rfl, ho⟩
  · rintro (⟨rfl, ho⟩ | ⟨before, later, rfl, ho⟩)
    · exact ⟨[], ds, rfl, ho⟩
    · exact ⟨e :: before, later, rfl, ho⟩

theorem exists_outlive?_iff {later : List Declaration} {d : Declaration} :
    (∃ o, outlive? later (ofDeclaration d) = some o) ↔
      ∃ flag ∈ d.flags.tokens, flag ∉ declaredTokens later := by
  rw [← Option.isSome_iff_exists, isSome_outlive?_iff]
  rfl

/-- A declaration lasts exactly if an option comes from it. -/
theorem mem_lasting_iff {ds : List Declaration} {d : Declaration} :
    d ∈ lasting ds ↔ ∃ o : OptionSpec, o.ComesFrom ds d := by
  induction ds with
  | nil => simp [lasting, ComesFrom]
  | cons e ds ih =>
    simp only [comesFrom_cons, exists_or, exists_and_left, ← ih, exists_outlive?_iff, lasting]
    split
    · next hflag => simp [hflag]
    · next hflag => simp [hflag]

end OptionSpec

/-! ## Defaults that outlive their declarations -/

namespace Usage

variable {usage : Usage}

/-- A name that no parameter has can be bound to its default only. -/
theorem argument?_of_not_parameter (hi : usage.Indexed) {name : String}
    (hname : name ∉ usage.parameterNames) (items : List Item) (rest : List String) :
    (usage.meaning items rest).argument? name = (usage.default? name).map .text := by
  rw [parameterNames, List.mem_append, not_or] at hname
  have hpositionals : NameMap.last? name (Positional.bindings rest usage.arguments) = none := by
    apply NameMap.last?_eq_none
    rintro e he rfl
    obtain ⟨a, ha, hkey⟩ := Positional.name_of_mem_bindingsAfter he
    exact hname.2 (hkey ▸ List.mem_map_of_mem ha)
  have hoptions : NameMap.last? name (usage.optionBindings items) = none := by
    apply NameMap.last?_eq_none
    rintro e he rfl
    obtain ⟨s, hs, hbinding⟩ := mem_optionBindings.1 he
    obtain ⟨value, -, rfl⟩ := Option.map_eq_some_iff.1 hbinding
    exact hname.1 (List.mem_map_of_mem (mem_options_of_selection hi hs))
  rw [argument?_meaning, hpositionals, hoptions, Option.none_or, Option.none_or]

/-- Defaults follow their declarations. -/
structure DefaultsFollow (usage : Usage) (text : String) : Prop where
  /-- Every default is that of a declaration from which an option of its name comes. -/
  owned : ∀ name value, usage.default? name = some value →
    ∃ o ∈ usage.options, o.name = name ∧
      ∃ d, o.ComesFrom (declarations text) d ∧ d.defaultValue = some value
  /-- No complete match binds a name that no parameter has. -/
  known : ∀ texts m, usage.fit texts = .ok (.complete m) →
    ∀ name, name ∉ usage.parameterNames → m.argument? name = none

/-- A default is owned exactly if a declaration that lasts gives it. -/
theorem owned_iff {given : Option String} {text : String} (h : read given text = .ok usage)
    {name value : String} :
    (∃ o ∈ usage.options, o.name = name ∧
      ∃ d, o.ComesFrom (declarations text) d ∧ d.defaultValue = some value) ↔
      ∃ d ∈ OptionSpec.lasting (declarations text), d.flags.canonicalName = name ∧
        d.defaultValue = some value := by
  constructor
  · rintro ⟨o, -, rfl, d, hd, hvalue⟩
    exact ⟨d, OptionSpec.mem_lasting_iff.2 ⟨o, hd⟩, hd.name_eq.symm, hvalue⟩
  · rintro ⟨d, hlasts, rfl, hvalue⟩
    obtain ⟨o, hd⟩ := OptionSpec.mem_lasting_iff.1 hlasts
    refine ⟨o, ?_, hd.name_eq, d, hd, hvalue⟩
    rw [options_eq_survivors h]
    exact hd.mem_survivors

/-- **Defaults follow their declarations exactly if none is left behind.** A declaration is replaced
if all its flags are declared again later, and it leaves its default behind if no later declaration
of its name gives one. Then a declaration of this name that keeps a flag must give the same default,
or the usage has a default of no option. -/
theorem defaults_follow_iff {given : Option String} {text : String}
    (h : read given text = .ok usage) :
    usage.DefaultsFollow text ↔
      ∀ before d later value, declarations text = before ++ d :: later →
        (∀ flag ∈ d.flags.tokens, flag ∈ OptionSpec.declaredTokens later) →
        d.defaultValue = some value →
        (∀ e ∈ later, e.flags.canonicalName = d.flags.canonicalName → e.defaultValue = none) →
        ∃ e ∈ OptionSpec.lasting (declarations text),
          e.flags.canonicalName = d.flags.canonicalName ∧ e.defaultValue = some value := by
  constructor
  · intro hfollow before d later value hds _ hvalue hlater
    have hdefault : usage.default? d.flags.canonicalName = some value := by
      rw [default?_of_read h, last?_annotations_eq_some_iff]
      exact ⟨before, d, later, hds, rfl, hvalue, hlater⟩
    exact (owned_iff h).1 (hfollow.owned _ value hdefault)
  · intro hleft
    have howned : ∀ name value, usage.default? name = some value →
        ∃ o ∈ usage.options, o.name = name ∧
          ∃ d, o.ComesFrom (declarations text) d ∧ d.defaultValue = some value := by
      intro name value hdefault
      rw [default?_of_read h, last?_annotations_eq_some_iff] at hdefault
      obtain ⟨before, d, later, hds, rfl, hvalue, hlater⟩ := hdefault
      rw [owned_iff h]
      by_cases hreplaced : ∀ flag ∈ d.flags.tokens, flag ∈ OptionSpec.declaredTokens later
      · exact hleft before d later value hds hreplaced hvalue hlater
      · -- The declaration keeps a flag, so it gives the default itself.
        push Not at hreplaced
        obtain ⟨o, ho⟩ := OptionSpec.exists_outlive?_iff.2 hreplaced
        exact ⟨d, OptionSpec.mem_lasting_iff.2 ⟨o, before, later, hds, ho⟩, rfl, hvalue⟩
    refine ⟨howned, ?_⟩
    intro texts m hm name hname
    have hi := indexed_of_read h
    obtain ⟨-, items, rest, -, rfl⟩ := (fit_eq_complete_iff hi (coherent_of_read h)).1 hm
    rw [argument?_of_not_parameter hi hname, Option.map_eq_none_iff]
    by_contra hdefault
    obtain ⟨value, hvalue⟩ := Option.ne_none_iff_exists'.1 hdefault
    obtain ⟨o, ho, rfl, -⟩ := howned name value hvalue
    exact hname (List.mem_append_left _ (List.mem_map_of_mem ho))

/-- A replaced declaration leaves its default behind under a name that no option has; a default in
the declaration that replaces it follows. -/
theorem defaults_follow_iff_keep :
    (∃ usage, read none "Usage: p\n  -n NUM  (default 3)\n  -n, --keep NUM" = .ok usage ∧
      ¬ usage.DefaultsFollow "Usage: p\n  -n NUM  (default 3)\n  -n, --keep NUM") ∧
    ∃ usage, read none "Usage: p\n  -n NUM\n  -n, --keep NUM  (default 3)" = .ok usage ∧
      usage.DefaultsFollow "Usage: p\n  -n NUM\n  -n, --keep NUM  (default 3)" := by
  constructor
  · let usage : Usage :=
      { program := "p"
        message := "Usage: p\n  -n NUM  (default 3)\n  -n, --keep NUM"
        arguments := []
        options := [⟨"keep", .both 'n' "keep", some "NUM"⟩]
        flagTable := NameMap.empty.insertAll [("-n", 0), ("--keep", 0)]
        defaults := NameMap.empty.insert "n" "3" }
    have hread : read none "Usage: p\n  -n NUM  (default 3)\n  -n, --keep NUM" = .ok usage := by
      decide +kernel
    refine ⟨usage, hread, ?_⟩
    rw [defaults_follow_iff hread]
    intro hleft
    obtain ⟨e, he, hname, -⟩ := hleft [] ⟨.short 'n', some "NUM", some "3"⟩
      [⟨.both 'n' "keep", some "NUM", none⟩] "3" (by decide +kernel) (by decide +kernel) rfl
      (by decide +kernel)
    revert e
    decide +kernel
  · let usage : Usage :=
      { program := "p"
        message := "Usage: p\n  -n NUM\n  -n, --keep NUM  (default 3)"
        arguments := []
        options := [⟨"keep", .both 'n' "keep", some "NUM"⟩]
        flagTable := NameMap.empty.insertAll [("-n", 0), ("--keep", 0)]
        defaults := NameMap.empty.insert "keep" "3" }
    have hread : read none "Usage: p\n  -n NUM\n  -n, --keep NUM  (default 3)" = .ok usage := by
      decide +kernel
    have hds : declarations "Usage: p\n  -n NUM\n  -n, --keep NUM  (default 3)" =
        [⟨.short 'n', some "NUM", none⟩, ⟨.both 'n' "keep", some "NUM", some "3"⟩] := by
      decide +kernel
    refine ⟨usage, hread, (defaults_follow_iff hread).2 ?_⟩
    intro before d later value hsplit _ hvalue _
    refine ⟨⟨.both 'n' "keep", some "NUM", some "3"⟩, by decide +kernel, ?_⟩
    have hd : d ∈ declarations "Usage: p\n  -n NUM\n  -n, --keep NUM  (default 3)" := by
      simp [hsplit]
    rw [hds] at hd
    rcases List.mem_pair.1 hd with rfl | rfl
    · cases hvalue
    · exact ⟨rfl, hvalue⟩

end Usage

end Synopsis
