import Synopsis.Proofs.Defaults
import Synopsis.Proofs.Prose

/-!
# The order of option lines

The options of a usage stand in the order of their declarations, and the flag table holds places in
that order. Nothing else depends on it, as long as no declaration takes a flag or a default from
another one (`Declaration.Independent`): then every declaration is an option as it stands, a flag
selects the one option that has it, and each default is the only one of its name.
-/

namespace Synopsis

/-! ## Tables that are filled in another order -/

theorem NameMap.last?_eq_some_iff {α : Type} {entries : List (String × α)}
    (h : entries.Pairwise fun a b => a.1 ≠ b.1) {name : String} {value : α} :
    last? name entries = some value ↔ (name, value) ∈ entries := by
  refine ⟨mem_of_last?, fun hmem => ?_⟩
  obtain ⟨last, hlast⟩ := Option.isSome_iff_exists.1 (isSome_last? hmem)
  have hsymm : Std.Symm fun a b : String × α => a.1 ≠ b.1 := ⟨fun _ _ => Ne.symm⟩
  by_cases heq : last = value
  · rw [hlast, heq]
  · have hne : (name, last) ≠ (name, value) := by simpa using heq
    have hkeys : name ≠ name := h.forall (mem_of_last? hlast) hmem hne
    exact absurd rfl hkeys

/-- The order of entries with different names does not matter. -/
theorem NameMap.last?_perm {α : Type} {entries entries' : List (String × α)}
    (hperm : entries.Perm entries') (h : entries.Pairwise fun a b => a.1 ≠ b.1) (name : String) :
    last? name entries = last? name entries' := by
  have h' := hperm.pairwise h fun hne => Ne.symm hne
  ext value
  rw [last?_eq_some_iff h, last?_eq_some_iff h', hperm.mem_iff]

theorem Flags.minus_of_disjoint {flags : Flags} {taken : List String}
    (h : ∀ flag ∈ flags.tokens, flag ∉ taken) : flags.minus taken = some flags := by
  cases flags <;> simp_all [minus, tokens, short?, long?, ofForms?, Option.filter_some]

/-! ## Declarations that leave each other alone -/

/-- The declarations have no flag in common, and do not both give a default for one name. -/
structure Declaration.Independent (d e : Declaration) : Prop where
  flags : ∀ flag ∈ d.flags.tokens, flag ∉ e.flags.tokens
  defaults : d.defaultValue.isSome → e.defaultValue.isSome →
    d.flags.canonicalName ≠ e.flags.canonicalName

instance (d e : Declaration) : Decidable (d.Independent e) :=
  decidable_of_iff
    ((∀ flag ∈ d.flags.tokens, flag ∉ e.flags.tokens) ∧
      (d.defaultValue.isSome → e.defaultValue.isSome →
        d.flags.canonicalName ≠ e.flags.canonicalName))
    ⟨fun h => ⟨h.1, h.2⟩, fun h => ⟨h.1, h.2⟩⟩

theorem Declaration.Independent.symm {d e : Declaration} (h : d.Independent e) :
    e.Independent d where
  flags := fun flag he hd => h.flags flag hd he
  defaults := fun he hd heq => h.defaults hd he heq.symm

namespace OptionSpec

/-- Every declaration is an option as it stands. -/
theorem survivors_of_independent {ds : List Declaration}
    (h : ds.Pairwise Declaration.Independent) : survivors ds = ds.map ofDeclaration := by
  induction ds with
  | nil => rfl
  | cons d later ih =>
    obtain ⟨hd, hlater⟩ := List.pairwise_cons.1 h
    have hkept : ∀ flag ∈ d.flags.tokens, flag ∉ declaredTokens later := by
      intro flag hflag hmem
      obtain ⟨e, he, hflag'⟩ := mem_declaredTokens.1 hmem
      exact (hd e he).flags flag hflag hflag'
    have hwhole : outlive? later (ofDeclaration d) = some (ofDeclaration d) := by
      show (d.flags.minus (declaredTokens later)).map _ = _
      rw [Flags.minus_of_disjoint hkept]
      rfl
    rw [survivors, hwhole, ih hlater]
    rfl

end OptionSpec

namespace Usage

theorem pairwise_annotations {ds : List Declaration} (h : ds.Pairwise Declaration.Independent) :
    (annotations ds).Pairwise fun a b => a.1 ≠ b.1 := by
  rw [annotations, List.pairwise_filterMap]
  refine h.imp fun {d e} hde => ?_
  rintro ⟨name, value⟩ hd ⟨name', value'⟩ he
  obtain ⟨rfl, hvalue⟩ := Declaration.annotation?_eq_some_iff.1 hd
  obtain ⟨rfl, hvalue'⟩ := Declaration.annotation?_eq_some_iff.1 he
  exact hde.defaults (by rw [hvalue]; rfl) (by rw [hvalue']; rfl)

/-- Usages whose declarations are the same in another order are the same grammar, if the
declarations are independent. -/
theorem sameGrammar_of_perm {given given' : Option String} {text text' : String} {u v : Usage}
    (hu : read given text = .ok u) (hv : read given' text' = .ok v)
    (harguments : u.arguments = v.arguments)
    (hperm : (declarations text).Perm (declarations text'))
    (hindependent : (declarations text).Pairwise Declaration.Independent) : u.SameGrammar v := by
  have hindependent' := hperm.pairwise hindependent Declaration.Independent.symm
  refine ⟨harguments, ?_, ?_⟩
  · apply NameMap.ext_get?
    intro name
    show u.default? name = v.default? name
    rw [default?_of_read hu, default?_of_read hv]
    exact NameMap.last?_perm (hperm.filterMap _) (pairwise_annotations hindependent) name
  · intro flag
    ext o
    rw [(indexed_of_read hu).option?_eq_some_iff, (indexed_of_read hv).option?_eq_some_iff,
      options_eq_survivors hu, options_eq_survivors hv,
      OptionSpec.survivors_of_independent hindependent,
      OptionSpec.survivors_of_independent hindependent', (hperm.map _).mem_iff]

/-! ## Texts with their option lines in another order -/

/-- The first line with the marker. -/
def usageLine? (text : String) : Option (List Char) :=
  (Text.lines text.toList).find? fun line => (Text.afterFirst? marker line).isSome

/-- The lines that declare an option. -/
def optionLines (text : String) : List (List Char) :=
  (Text.lines text.toList).filter fun line => (Declaration.read? line).isSome

theorem lineTokens?_eq_usageLine? (text : String) :
    lineTokens? (Text.lines text.toList) = (usageLine? text).bind tokensOn? := by
  rw [lineTokens?_eq, usageLine?, List.head?_filterMap]
  induction Text.lines text.toList with
  | nil => rfl
  | cons line lines ih =>
    rw [List.findSome?_cons, List.find?_cons, ih]
    cases hmarker : Text.afterFirst? marker line with
    | none => simp [tokensOn?, hmarker]
    | some tail => simp [tokensOn?, hmarker]

theorem listedDeclarations_eq_optionLines (text : String) :
    listedDeclarations (Text.lines text.toList) =
      (optionLines text).filterMap Declaration.read? := by
  rw [listedDeclarations_eq, optionLines, List.filterMap_filter]
  congr 1
  funext line
  cases Declaration.read? line <;> rfl

theorem declarations_perm {text text' : String} (hline : usageLine? text = usageLine? text')
    (hperm : (optionLines text).Perm (optionLines text')) :
    (declarations text).Perm (declarations text') := by
  simp only [declarations, lineTokens?_eq_usageLine?, listedDeclarations_eq_optionLines, hline]
  exact (hperm.filterMap _).append_left _

/-- **The order of option lines does not matter.** If two texts have the same usage line and the
same option lines in any order, and their declarations are independent, then reading fails for both
with the same error, or gives usages with the same positionals, the same defaults and the same
option for every flag, which match alike. -/
theorem line_order_does_not_matter {text text' : String}
    (hline : usageLine? text = usageLine? text')
    (hperm : (optionLines text).Perm (optionLines text'))
    (hindependent : (declarations text).Pairwise Declaration.Independent)
    (given : Option String) :
    Agree
      (fun u v => u.arguments = v.arguments ∧ u.defaults = v.defaults ∧
        (∀ flag, u.option? flag = v.option? flag) ∧
        ∀ texts, ¬("-h" ∈ texts ∨ "--help" ∈ texts) → u.fit texts = v.fit texts)
      (read given text) (read given text') := by
  apply agree_read
  · rw [lineTokens?_eq_usageLine?, lineTokens?_eq_usageLine?, hline]
  · intro program elements hu hv
    have hsame := sameGrammar_of_perm hu hv rfl (declarations_perm hline hperm) hindependent
    exact ⟨rfl, hsame.defaults, hsame.options, fun texts => hsame.fit_eq⟩

/-- Two option lines change places, and a line of prose between them goes: the options stand in
another order, but a flag selects the same one. -/
theorem line_order_does_not_matter_two_lines :
    ∃ u v, read none "Usage: p [-q] file\n  -a NUM  (default 1)\nor\n  -b, --bee" = .ok u ∧
      read none "Usage: p [-q] file\n  -b, --bee\n  -a NUM  (default 1)" = .ok v ∧
      u.options ≠ v.options ∧ u.option? "-a" = v.option? "-a" ∧
      u.fit ["-b", "x"] = v.fit ["-b", "x"] := by
  let u : Usage :=
    { program := "p"
      message := "Usage: p [-q] file\n  -a NUM  (default 1)\nor\n  -b, --bee"
      arguments := [⟨"file", .required⟩]
      options := [⟨"q", .short 'q', none⟩, ⟨"a", .short 'a', some "NUM"⟩,
        ⟨"bee", .both 'b' "bee", none⟩]
      flagTable := NameMap.empty.insertAll [("-q", 0), ("-a", 1), ("-b", 2), ("--bee", 2)]
      defaults := NameMap.empty.insert "a" "1" }
  let v : Usage :=
    { u with
      message := "Usage: p [-q] file\n  -b, --bee\n  -a NUM  (default 1)"
      options := [⟨"q", .short 'q', none⟩, ⟨"bee", .both 'b' "bee", none⟩,
        ⟨"a", .short 'a', some "NUM"⟩]
      flagTable := NameMap.empty.insertAll [("-q", 0), ("-b", 1), ("--bee", 1), ("-a", 2)] }
  have hu : read none "Usage: p [-q] file\n  -a NUM  (default 1)\nor\n  -b, --bee" = .ok u := by
    decide +kernel
  have hv : read none "Usage: p [-q] file\n  -b, --bee\n  -a NUM  (default 1)" = .ok v := by
    decide +kernel
  have hagree := @line_order_does_not_matter
    "Usage: p [-q] file\n  -a NUM  (default 1)\nor\n  -b, --bee"
    "Usage: p [-q] file\n  -b, --bee\n  -a NUM  (default 1)"
    (by decide +kernel) (by decide +kernel) (by decide +kernel) none
  rw [hu, hv] at hagree
  obtain ⟨-, -, hflag, hfit⟩ := hagree
  exact ⟨u, v, hu, hv, by decide +kernel, hflag "-a", hfit _ (by decide)⟩

end Usage

end Synopsis
