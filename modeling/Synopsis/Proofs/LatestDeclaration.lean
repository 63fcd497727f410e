import Mathlib.Data.List.Basic
import Mathlib.Data.List.Pairwise
import Synopsis.Proofs.UsageText

/-!
# The latest declaration wins

Declarations are taken in one after the other, and each takes its flags away from all options
before it. This module says what that comes to for the whole list: an option keeps the flags that
no later declaration declares (`OptionSpec.survivors`), so a flag selects the option of the last
declaration that declares it, and the flag table finds that option.

Short and long flags never share a token, because the letter of a short flag is a word character
and so no dash.
-/

namespace Synopsis

/-! ## Tokens of flags -/

namespace Flags

/-- What is left of the flags once the tokens that `taken` lists are taken away. -/
def minus (flags : Flags) (taken : List String) : Option Flags :=
  ofForms? (flags.short?.filter fun c => shortToken c ∉ taken)
    (flags.long?.filter fun l => longToken l ∉ taken)

@[simp] theorem shortToken_inj {c d : Char} : shortToken c = shortToken d ↔ c = d := by
  simp [shortToken]

@[simp] theorem longToken_inj {l k : String} : longToken l = longToken k ↔ l = k := by
  simp [longToken]

theorem shortToken_ne_longToken {c : Char} (h : c ≠ '-') (l : String) :
    shortToken c ≠ longToken l := by
  intro he
  have := congrArg String.toList he
  simp [shortToken, longToken, h] at this

theorem forms_of_ofForms? {s : Option Char} {l : Option String} {flags : Flags}
    (h : ofForms? s l = some flags) : flags.short? = s ∧ flags.long? = l := by
  cases s <;> cases l <;> simp only [ofForms?, Option.some.injEq, reduceCtorEq] at h <;>
    subst h <;> exact ⟨rfl, rfl⟩

theorem tokens_ne_nil (flags : Flags) : flags.tokens ≠ [] := by
  cases flags <;> simp [tokens]

theorem mem_tokens {flags : Flags} {token : String} :
    token ∈ flags.tokens ↔
      (∃ c, flags.short? = some c ∧ token = shortToken c) ∨
        ∃ l, flags.long? = some l ∧ token = longToken l := by
  cases flags <;> simp [tokens, short?, long?]

/-- The tokens that are left are those that were not taken. -/
theorem mem_tokens_of_minus {flags rest : Flags} {taken : List String}
    (h : flags.minus taken = some rest) (token : String) :
    token ∈ rest.tokens ↔ token ∈ flags.tokens ∧ token ∉ taken := by
  obtain ⟨hs, hl⟩ := forms_of_ofForms? h
  simp only [mem_tokens, hs, hl, Option.filter_eq_some_iff, decide_eq_true_eq]
  constructor
  · intro h
    rcases h with ⟨c, ⟨hc, hn⟩, rfl⟩ | ⟨l, ⟨hl, hn⟩, rfl⟩
    · exact ⟨.inl ⟨c, hc, rfl⟩, hn⟩
    · exact ⟨.inr ⟨l, hl, rfl⟩, hn⟩
  · intro h
    obtain ⟨⟨c, hc, rfl⟩ | ⟨l, hl, rfl⟩, hn⟩ := h
    · exact .inl ⟨c, ⟨hc, hn⟩, rfl⟩
    · exact .inr ⟨l, ⟨hl, hn⟩, rfl⟩

@[simp] theorem minus_nil (flags : Flags) : flags.minus [] = some flags := by
  cases flags <;> rfl

theorem ofForms?_eq_none_iff {s : Option Char} {l : Option String} :
    ofForms? s l = none ↔ s = none ∧ l = none := by
  cases s <;> cases l <;> simp [ofForms?]

/-- Something is left if a token was not taken. -/
theorem exists_minus {flags : Flags} {taken : List String} {token : String}
    (ht : token ∈ flags.tokens) (hn : token ∉ taken) : ∃ rest, flags.minus taken = some rest := by
  cases h : flags.minus taken with
  | some rest => exact ⟨rest, rfl⟩
  | none =>
    obtain ⟨hs, hl⟩ := ofForms?_eq_none_iff.1 h
    rcases mem_tokens.1 ht with ⟨c, hc, rfl⟩ | ⟨l, hl', rfl⟩
    · simp [hc, hn] at hs
    · simp [hl', hn] at hl

/-- Taking flags away in two goes is taking them away at once. -/
theorem minus_bind_minus (flags : Flags) (s t : List String) :
    (flags.minus s).bind (·.minus t) = flags.minus (s ++ t) := by
  cases h : flags.minus s with
  | none =>
    obtain ⟨hs, hl⟩ := ofForms?_eq_none_iff.1 h
    symm
    simp only [Option.filter_eq_none_iff, decide_eq_true_eq, Classical.not_not] at hs hl
    refine ofForms?_eq_none_iff.2 ⟨?_, ?_⟩
    · simpa using fun c hc hn => absurd (hs c hc) hn
    · simpa using fun l hl' hn => absurd (hl l hl') hn
  | some rest =>
    obtain ⟨hs, hl⟩ := forms_of_ofForms? h
    simp only [Option.bind_some, minus, hs, hl, Option.filter_filter]
    simp

theorem shortToken_mem_tokens {flags : Flags} {c : Char} (h : c ≠ '-') :
    shortToken c ∈ flags.tokens ↔ flags.short? = some c := by
  simp [mem_tokens, shortToken_ne_longToken h, eq_comm]

theorem longToken_mem_tokens {flags : Flags} (h : flags.WellSpelled) {l : String} :
    longToken l ∈ flags.tokens ↔ flags.long? = some l := by
  constructor
  · intro hl
    rcases mem_tokens.1 hl with ⟨c, hc, he⟩ | ⟨k, hk, he⟩
    · exact absurd he.symm (shortToken_ne_longToken (h c hc) l)
    · rw [hk, longToken_inj.1 he]
  · exact fun hl => mem_tokens.2 (.inr ⟨l, hl, rfl⟩)

/-- Another option takes away the tokens that select it. -/
theorem without_eq_minus {flags other : Flags} (hf : flags.WellSpelled) (ho : other.WellSpelled) :
    flags.without other = flags.minus other.tokens := by
  have hs : keep flags.short? other.short? =
      flags.short?.filter fun c => shortToken c ∉ other.tokens := by
    cases hc : flags.short? with
    | none => simp [keep]
    | some c =>
      have : shortToken c ∈ other.tokens ↔ _ := shortToken_mem_tokens (hf c hc)
      by_cases he : other.short? = some c
      · simp [keep, Option.filter_some, this, he]
      · simp [keep, Option.filter_some, this, he, Ne.symm he]
  have hl : keep flags.long? other.long? =
      flags.long?.filter fun l => longToken l ∉ other.tokens := by
    cases hl : flags.long? with
    | none => simp [keep]
    | some l =>
      have : longToken l ∈ other.tokens ↔ _ := longToken_mem_tokens ho
      by_cases he : other.long? = some l
      · simp [keep, Option.filter_some, this, he]
      · simp [keep, Option.filter_some, this, he, Ne.symm he]
  rw [without, minus, hs, hl]

theorem WellSpelled.minus {flags rest : Flags} {taken : List String} (h : flags.WellSpelled)
    (hr : flags.minus taken = some rest) : rest.WellSpelled := by
  intro c hc
  rw [(forms_of_ofForms? hr).1, Option.filter_eq_some_iff] at hc
  exact h c hc.1

end Flags

/-! ## Options that outlive later declarations -/

namespace OptionSpec

/-- The tokens that a list of declarations declares. -/
def declaredTokens (ds : List Declaration) : List String := ds.flatMap (·.flags.tokens)

/-- The option once the flags of all later declarations are taken away, if a flag is left. -/
def outlive? (later : List Declaration) (o : OptionSpec) : Option OptionSpec :=
  (o.flags.minus (declaredTokens later)).map fun flags => { o with flags }

/-- The options of a list of declarations, each without the flags that are declared again later.
An option that is left without a flag is left out. -/
def survivors : List Declaration → List OptionSpec
  | [] => []
  | d :: later => (outlive? later (ofDeclaration d)).toList ++ survivors later

theorem mem_declaredTokens {ds : List Declaration} {token : String} :
    token ∈ declaredTokens ds ↔ ∃ d ∈ ds, token ∈ d.flags.tokens := by
  simp [declaredTokens]

/-- An option that outlives later declarations keeps its name and its placeholder, and of its
flags those that are not declared again. -/
theorem outlive?_keeps {later : List Declaration} {o p : OptionSpec}
    (h : outlive? later o = some p) :
    p.name = o.name ∧ p.placeholder = o.placeholder ∧
      ∀ token, token ∈ p.flags.tokens ↔ token ∈ o.flags.tokens ∧ token ∉ declaredTokens later := by
  obtain ⟨rest, hr, rfl⟩ := Option.map_eq_some_iff.1 h
  exact ⟨rfl, rfl, Flags.mem_tokens_of_minus hr⟩

@[simp] theorem outlive?_nil (o : OptionSpec) : outlive? [] o = some o := by
  simp [outlive?, declaredTokens]

/-- One declaration and then all later ones take away what all of them declare. -/
theorem withoutFlags_bind_outlive? {d : Declaration} {o : OptionSpec} (later : List Declaration)
    (hd : d.flags.WellSpelled) (ho : o.flags.WellSpelled) :
    (withoutFlags d.flags o).bind (outlive? later) = outlive? (d :: later) o := by
  have h := Flags.minus_bind_minus o.flags d.flags.tokens (declaredTokens later)
  rw [withoutFlags, Flags.without_eq_minus ho hd, outlive?, declaredTokens, List.flatMap_cons,
    ← declaredTokens, ← h]
  cases o.flags.minus d.flags.tokens <;> rfl

theorem withoutFlags_wellSpelled {d : Declaration} {o p : OptionSpec} (hd : d.flags.WellSpelled)
    (ho : o.flags.WellSpelled) (h : withoutFlags d.flags o = some p) : p.flags.WellSpelled := by
  obtain ⟨rest, hr, rfl⟩ := Option.map_eq_some_iff.1 h
  rw [Flags.without_eq_minus ho hd] at hr
  exact ho.minus hr

/-- Taking in declarations strips the options that are there, and adds the survivors. -/
theorem foldl_declare {ds : List Declaration} {specs : List OptionSpec}
    (hds : ∀ d ∈ ds, d.flags.WellSpelled) (hs : ∀ o ∈ specs, o.flags.WellSpelled) :
    ds.foldl declare specs = specs.filterMap (outlive? ds) ++ survivors ds := by
  -- For any options that are there already: the next declaration strips them and joins them.
  induction ds generalizing specs with
  | nil => simp [survivors]
  | cons d later ih =>
    have hd := hds d (by simp)
    have hspecs : ∀ o ∈ declare specs d, o.flags.WellSpelled := by
      intro o ho
      rcases List.mem_append.1 ho with ho | ho
      · obtain ⟨p, hp, hpo⟩ := List.mem_filterMap.1 ho
        exact withoutFlags_wellSpelled hd (hs p hp) hpo
      · rw [List.mem_singleton.1 ho]
        exact hd
    have hold : (specs.filterMap (withoutFlags d.flags)).filterMap (outlive? later) =
        specs.filterMap (outlive? (d :: later)) := by
      rw [List.filterMap_filterMap]
      apply List.filterMap_congr
      intro o ho
      exact withoutFlags_bind_outlive? later hd (hs o ho)
    rw [List.foldl_cons, ih (fun e he => hds e (by simp [he])) hspecs, declare,
      List.filterMap_append, hold, List.append_assoc]
    rfl

/-- **The options of a usage are the survivors of its declarations.** -/
theorem ofDeclarations_eq_survivors {ds : List Declaration}
    (hds : ∀ d ∈ ds, d.flags.WellSpelled) : ofDeclarations ds = survivors ds := by
  rw [ofDeclarations, foldl_declare hds (List.forall_mem_nil _)]
  rfl

/-- A survivor comes from a declaration, whose flags it has as far as they are not declared again
later. -/
theorem mem_survivors {ds : List Declaration} {o : OptionSpec} :
    o ∈ survivors ds ↔
      ∃ before d later, ds = before ++ d :: later ∧ outlive? later (ofDeclaration d) = some o := by
  induction ds with
  | nil => simp [survivors]
  | cons e ds ih =>
    rw [survivors, List.mem_append, Option.mem_toList, ih]
    constructor
    · intro h
      rcases h with h | ⟨before, d, later, rfl, h⟩
      · exact ⟨[], e, ds, rfl, h⟩
      · exact ⟨e :: before, d, later, rfl, h⟩
    · intro h
      obtain ⟨before, d, later, hds, h⟩ := h
      cases before with
      | nil => cases hds; exact .inl h
      | cons b before => cases hds; exact .inr ⟨before, d, later, rfl, h⟩

/-- A token that is declared has a last declaration. -/
theorem exists_latest {ds : List Declaration} {token : String} (h : token ∈ declaredTokens ds) :
    ∃ before d later, ds = before ++ d :: later ∧ token ∈ d.flags.tokens ∧
      token ∉ declaredTokens later := by
  induction ds with
  | nil => simp [declaredTokens] at h
  | cons e ds ih =>
    by_cases hlater : token ∈ declaredTokens ds
    · obtain ⟨before, d, later, rfl, hd, hn⟩ := ih hlater
      exact ⟨e :: before, d, later, rfl, hd, hn⟩
    · rw [declaredTokens, List.flatMap_cons, ← declaredTokens, List.mem_append] at h
      exact ⟨[], e, ds, rfl, h.resolve_right hlater, hlater⟩

theorem mem_survivors_tokens {ds : List Declaration} {o : OptionSpec} {token : String}
    (ho : o ∈ survivors ds) (ht : token ∈ o.flags.tokens) : token ∈ declaredTokens ds := by
  obtain ⟨before, d, later, rfl, h⟩ := mem_survivors.1 ho
  have hd := (((outlive?_keeps h).2.2 token).1 ht).1
  exact mem_declaredTokens.2 ⟨d, by simp, hd⟩

/-- No token selects two options. -/
def FlagsDisjoint (specs : List OptionSpec) : Prop :=
  specs.Pairwise fun o p => ∀ token ∈ o.flags.tokens, token ∉ p.flags.tokens

/-- No token selects two survivors: the earlier one has lost it. -/
theorem flagsDisjoint_survivors (ds : List Declaration) : FlagsDisjoint (survivors ds) := by
  induction ds with
  | nil => exact .nil
  | cons d later ih =>
    refine List.pairwise_append.2 ⟨?_, ih, ?_⟩
    · cases outlive? later (ofDeclaration d) <;> simp
    · intro o ho p hp token hto htp
      have hlost := (((outlive?_keeps (Option.mem_toList.1 ho)).2.2 token).1 hto).2
      exact hlost (mem_survivors_tokens hp htp)

theorem FlagsDisjoint.eq {specs : List OptionSpec} (h : FlagsDisjoint specs) {o p : OptionSpec}
    (ho : o ∈ specs) (hp : p ∈ specs) {token : String} (hto : token ∈ o.flags.tokens)
    (htp : token ∈ p.flags.tokens) : o = p := by
  by_contra hne
  have hsymm : Std.Symm fun o p : OptionSpec => ∀ token ∈ o.flags.tokens, token ∉ p.flags.tokens :=
    ⟨fun _ _ hop token htp hto => hop token hto htp⟩
  exact List.Pairwise.forall h ho hp hne token hto htp

/-! ## The flag table -/

theorem mem_flagPlaces {specs : List OptionSpec} {flag : String} {place : Nat} :
    (flag, place) ∈ flagPlaces specs ↔
      ∃ o, specs[place]? = some o ∧ flag ∈ o.flags.tokens := by
  simp only [flagPlaces, List.mem_flatMap, List.mem_map, Prod.exists, Prod.mk.injEq,
    List.mem_zipIdx_iff_getElem?]
  constructor
  · intro h
    obtain ⟨o, place, ho, flag, hf, rfl, rfl⟩ := h
    exact ⟨o, ho, hf⟩
  · intro h
    obtain ⟨o, ho, hf⟩ := h
    exact ⟨o, place, ho, flag, hf, rfl, rfl⟩

/-- The flag table points at an option that has the flag. -/
theorem getElem?_of_flagTable {specs : List OptionSpec} {flag : String} {place : Nat}
    (h : (flagTable specs).get? flag = some place) :
    ∃ o, specs[place]? = some o ∧ flag ∈ o.flags.tokens := by
  rw [flagTable, NameMap.get?_insertAll, NameMap.get?_empty, Option.or_none] at h
  exact mem_flagPlaces.1 (NameMap.mem_of_last? h)

/-- Every flag of an option is in the flag table. -/
theorem isSome_flagTable {specs : List OptionSpec} {o : OptionSpec} {flag : String}
    (ho : o ∈ specs) (hf : flag ∈ o.flags.tokens) : ((flagTable specs).get? flag).isSome := by
  obtain ⟨place, hp⟩ := List.mem_iff_getElem?.1 ho
  rw [flagTable, NameMap.get?_insertAll, NameMap.get?_empty, Option.or_none]
  exact NameMap.isSome_last? (mem_flagPlaces.2 ⟨o, hp, hf⟩)

end OptionSpec

namespace Usage

/-- The flag table belongs to the options, and no flag selects two of them. -/
structure Indexed (usage : Usage) : Prop where
  table : usage.flagTable = OptionSpec.flagTable usage.options
  disjoint : OptionSpec.FlagsDisjoint usage.options

/-- Every place in the flag table is a place in the list of options. -/
theorem Indexed.place_lt {usage : Usage} (h : usage.Indexed) {flag : String} {place : Nat}
    (hp : usage.flagTable.get? flag = some place) : place < usage.options.length := by
  rw [h.table] at hp
  obtain ⟨o, ho, -⟩ := OptionSpec.getElem?_of_flagTable hp
  exact (List.getElem?_eq_some_iff.1 ho).1

/-- **A flag selects the option that has it.** -/
theorem Indexed.option?_eq_some_iff {usage : Usage} (h : usage.Indexed) {flag : String}
    {o : OptionSpec} :
    usage.option? flag = some o ↔ o ∈ usage.options ∧ flag ∈ o.flags.tokens := by
  rw [option?, h.table, Option.bind_eq_some_iff]
  constructor
  · intro h
    obtain ⟨place, hp, ho⟩ := h
    obtain ⟨p, hp', hf⟩ := OptionSpec.getElem?_of_flagTable hp
    rw [ho, Option.some.injEq] at hp'
    exact ⟨List.mem_of_getElem? ho, hp' ▸ hf⟩
  · intro h
    obtain ⟨ho, hf⟩ := h
    obtain ⟨place, hp⟩ := Option.isSome_iff_exists.1 (OptionSpec.isSome_flagTable ho hf)
    obtain ⟨p, hp', hf'⟩ := OptionSpec.getElem?_of_flagTable hp
    -- The table may have been filled from another place with the flag, but there is only one.
    exact ⟨place, hp, h.disjoint.eq (List.mem_of_getElem? hp') ho hf' hf ▸ hp'⟩

theorem options_eq_survivors {given : Option String} {text : String} {usage : Usage}
    (h : read given text = .ok usage) :
    usage.options = OptionSpec.survivors (declarations text) := by
  rw [(options_of_read h).1]
  exact OptionSpec.ofDeclarations_eq_survivors fun d hd => wellSpelled_of_mem_declarations hd

/-- The flag table of a usage that was read belongs to its options. -/
theorem indexed_of_read {given : Option String} {text : String} {usage : Usage}
    (h : read given text = .ok usage) : usage.Indexed := by
  refine ⟨(options_of_read h).2, ?_⟩
  rw [options_eq_survivors h]
  exact OptionSpec.flagsDisjoint_survivors _

/-- **A flag selects what is left of the last declaration that declares it.** The options are the
declarations in order, each without the flags that a later one declares, and without those that
are left with no flag; a flag that is declared selects the option of its last declaration, which
has the flag, and no other token selects anything. -/
theorem latest_declaration_wins {given : Option String} {text : String} {usage : Usage}
    (h : read given text = .ok usage) :
    usage.options = OptionSpec.survivors (declarations text) ∧
    (∀ flag o, usage.option? flag = some o ↔
      ∃ before d later, declarations text = before ++ d :: later ∧ flag ∈ d.flags.tokens ∧
        flag ∉ OptionSpec.declaredTokens later ∧
        OptionSpec.outlive? later (OptionSpec.ofDeclaration d) = some o) ∧
    (∀ flag, (∃ o, usage.option? flag = some o) ↔
      ∃ d ∈ declarations text, flag ∈ d.flags.tokens) ∧
    (∀ flag o, usage.option? flag = some o → o ∈ usage.options ∧ flag ∈ o.flags.tokens) ∧
    OptionSpec.FlagsDisjoint usage.options ∧
    ∀ o ∈ usage.options, o.flags.tokens ≠ [] := by
  have hi := indexed_of_read h
  have hs := options_eq_survivors h
  have hlast : ∀ flag o, usage.option? flag = some o ↔
      ∃ before d later, declarations text = before ++ d :: later ∧ flag ∈ d.flags.tokens ∧
        flag ∉ OptionSpec.declaredTokens later ∧
        OptionSpec.outlive? later (OptionSpec.ofDeclaration d) = some o := by
    intro flag o
    rw [hi.option?_eq_some_iff, hs, OptionSpec.mem_survivors]
    constructor
    · intro h
      obtain ⟨⟨before, d, later, hds, ho⟩, hf⟩ := h
      obtain ⟨hd, hn⟩ := ((OptionSpec.outlive?_keeps ho).2.2 flag).1 hf
      exact ⟨before, d, later, hds, hd, hn, ho⟩
    · intro h
      obtain ⟨before, d, later, hds, hd, hn, ho⟩ := h
      exact ⟨⟨before, d, later, hds, ho⟩, ((OptionSpec.outlive?_keeps ho).2.2 flag).2 ⟨hd, hn⟩⟩
  refine ⟨hs, hlast, ?_, fun flag o => hi.option?_eq_some_iff.1, hi.disjoint,
    fun o _ => o.flags.tokens_ne_nil⟩
  intro flag
  rw [← OptionSpec.mem_declaredTokens]
  constructor
  · intro h
    obtain ⟨o, ho⟩ := h
    obtain ⟨before, d, later, hds, hd, -⟩ := (hlast flag o).1 ho
    exact OptionSpec.mem_declaredTokens.2 ⟨d, by simp [hds], hd⟩
  · intro hf
    obtain ⟨before, d, later, hds, hd, hn⟩ := OptionSpec.exists_latest hf
    obtain ⟨rest, hr⟩ := Flags.exists_minus hd hn
    exact ⟨_, (hlast flag _).2 ⟨before, d, later, hds, hd, hn,
      Option.map_eq_some_iff.2 ⟨rest, hr, rfl⟩⟩⟩

/-- A flag in brackets is replaced by the next declaration, and that one loses its long flag to
the last. -/
theorem latest_declaration_wins_crosswise :
    ∃ usage, read none "Usage: p [-v]\n  -v, --verbose\n  -x, --verbose NUM" = .ok usage ∧
      usage.options =
        [⟨"verbose", .short 'v', none⟩, ⟨"verbose", .both 'x' "verbose", some "NUM"⟩] ∧
      usage.option? "-v" = some ⟨"verbose", .short 'v', none⟩ := by
  let usage : Usage :=
    { program := "p"
      message := "Usage: p [-v]\n  -v, --verbose\n  -x, --verbose NUM"
      arguments := []
      options := [⟨"verbose", .short 'v', none⟩, ⟨"verbose", .both 'x' "verbose", some "NUM"⟩]
      flagTable := NameMap.empty.insertAll [("-v", 0), ("-x", 1), ("--verbose", 1)]
      defaults := .empty }
  have hread : read none "Usage: p [-v]\n  -v, --verbose\n  -x, --verbose NUM" = .ok usage := by
    decide +kernel
  obtain ⟨hs, hlast, -⟩ := latest_declaration_wins hread
  refine ⟨usage, hread, hs.trans (by decide +kernel), (hlast _ _).2 ?_⟩
  exact ⟨[⟨.short 'v', none, none⟩], ⟨.both 'v' "verbose", none, none⟩,
    [⟨.both 'x' "verbose", some "NUM", none⟩], by decide +kernel⟩

end Usage

end Synopsis
