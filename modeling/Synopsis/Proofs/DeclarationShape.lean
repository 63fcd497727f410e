import Synopsis.Proofs.HelpText
import Synopsis.Proofs.LatestDeclaration

/-!
# Which texts declare an option, and what they can declare

Lines are first sorted by how they look (`startsWithFlag`) and then read (`read?`). The two are
written apart, and the look is the weaker of them: every text that declares something starts with a
flag (`Declaration.StartsFlag`) and looks like it, so sorting discards no declaration, while a text
such as `-verbose` looks like a declaration and is none.

A declaration is put together from the parts that four readers find in the text (`parts_of_read?`),
so what can be said of its flags, its placeholder and its default is said of these readers one by
one.
-/

namespace Synopsis.Declaration

/-! ## Texts that start with a flag -/

/-- The text starts with a flag. -/
inductive StartsFlag : List Char → Prop
  /-- Two dashes and a word character. -/
  | long {c : Char} {s : List Char} (hc : Text.isWordChar c = true) :
      StartsFlag ('-' :: '-' :: c :: s)
  /-- One dash, a word character and then the end, a blank or a comma. -/
  | short {c : Char} {s : List Char} (hc : Text.isWordChar c = true)
      (hs : ∀ d ∈ s.head?, Text.isBlank d = true ∨ d = ',') : StartsFlag ('-' :: c :: s)

theorem endsFlag_iff {s : List Char} :
    endsFlag s = true ↔ ∀ d ∈ s.head?, Text.isBlank d = true ∨ d = ',' := by
  cases s with
  | nil => simp [endsFlag]
  | cons d s => simp [endsFlag]

theorem startsFlag_iff {s : List Char} :
    StartsFlag s ↔ (longFlag? s).isSome ∨ (shortFlag? s).isSome := by
  simp only [Option.isSome_iff_exists, longFlag?_eq_some_iff, shortFlag?_eq_some_iff, endsFlag_iff]
  constructor
  · intro h
    cases h with
    | long hc => exact .inl ⟨_, _, _, rfl, hc, rfl⟩
    | short hc hs => exact .inr ⟨_, _, _, rfl, hc, hs, rfl⟩
  · rintro (⟨-, c, t, rfl, hc, -⟩ | ⟨-, c, t, rfl, hc, ht, -⟩)
    · exact .long hc
    · exact .short hc ht

/-- A text declares an option exactly if it starts with a flag. -/
theorem isSome_read?_iff {text : List Char} :
    (read? text).isSome ↔ StartsFlag (Text.trimStart text) := by
  rw [startsFlag_iff]
  simp only [read?]
  cases longFlag? (Text.trimStart text) with
  | some x =>
    obtain ⟨name, word, rest⟩ := x
    dsimp only
    cases shortAfterLong? rest <;> simp
  | none =>
    cases shortFlag? (Text.trimStart text) with
    | some x =>
      obtain ⟨letter, word, rest⟩ := x
      dsimp only
      cases longFlag? (Text.trimStart (skipComma rest)) <;> simp
    | none => simp

/-! ## Parts of a declaration -/

/-- The word is a run of characters of the class, of at least one. -/
def IsRun (p : Char → Bool) (word : String) : Prop :=
  word.toList ≠ [] ∧ ∀ c ∈ word.toList, p c = true

theorem isRun_takeWhile {p : Char → Bool} {s : List Char} (h : s.takeWhile p ≠ []) :
    IsRun p (String.ofList (s.takeWhile p)) := by
  rw [IsRun, String.toList_ofList]
  exact ⟨h, fun c hc => List.mem_takeWhile_imp hc⟩

theorem isRun_of_placeholder? {s : List Char} {word : String}
    (h : (placeholder? s).1 = some word) : IsRun Text.isWordChar word := by
  unfold placeholder? at h
  split at h
  · split at h
    · cases h
    · next hne =>
      cases h
      exact isRun_takeWhile hne
  · cases h

theorem isRun_of_default? {s : List Char} {word : String} (h : default? s = some word) :
    IsRun isValueChar word := by
  obtain ⟨rest, -, h⟩ := Option.bind_eq_some_iff.1 h
  rw [annotated?_eq] at h
  obtain ⟨-, hclosed⟩ := Option.ite_none_right_eq_some.1 h
  obtain ⟨⟨hne, -⟩, hword⟩ := Option.ite_none_right_eq_some.1 hclosed
  cases hword
  exact isRun_takeWhile hne

theorem isName_of_longFlag? {s : List Char} {name : String} {x : Option String × List Char}
    (h : longFlag? s = some (name, x)) : Text.isName name.toList = true := by
  obtain ⟨c, t, -, hc, hx⟩ := longFlag?_eq_some_iff.1 h
  obtain ⟨rfl, -⟩ := Prod.mk.inj hx
  rw [String.toList_ofList, Text.isName, hc, Bool.true_and, List.all_eq_true]
  exact fun d hd => List.mem_takeWhile_imp hd

/-! The placeholder of a flag was found right behind it. -/

theorem exists_placeholder_of_shortFlag? {s rest : List Char} {c : Char} {word : Option String}
    (h : shortFlag? s = some (c, word, rest)) : ∃ t, (placeholder? t).1 = word := by
  obtain ⟨c, t, -, -, -, hx⟩ := shortFlag?_eq_some_iff.1 h
  exact ⟨t, congrArg Prod.fst (Prod.mk.inj hx).2.symm⟩

theorem exists_placeholder_of_longFlag? {s rest : List Char} {name : String}
    {word : Option String} (h : longFlag? s = some (name, word, rest)) :
    ∃ t, (placeholder? t).1 = word := by
  obtain ⟨c, t, -, -, hx⟩ := longFlag?_eq_some_iff.1 h
  exact ⟨_, congrArg Prod.fst (Prod.mk.inj hx).2.symm⟩

/-- Every part of a declaration was found by its reader. -/
theorem parts_of_read? {text : List Char} {d : Declaration} (h : read? text = some d) :
    (∀ c ∈ d.flags.short?, ∃ s x, shortFlag? s = some (c, x)) ∧
    (∀ name ∈ d.flags.long?, ∃ s x, longFlag? s = some (name, x)) ∧
    ∀ word ∈ d.placeholder, ∃ s, (placeholder? s).1 = some word := by
  -- With two flags, the placeholder is that of the flag listed last or else that of the first.
  have hor : ∀ {a b : Option String}, (∃ t, (placeholder? t).1 = a) →
      (∃ t, (placeholder? t).1 = b) → ∀ word ∈ a.or b, ∃ s, (placeholder? s).1 = some word := by
    rintro a b ⟨t, rfl⟩ ⟨u, rfl⟩ word hword
    rcases Option.or_eq_some_iff.1 hword with ht | ⟨-, hu⟩
    · exact ⟨t, ht⟩
    · exact ⟨u, hu⟩
  simp only [read?] at h
  split at h
  · next name word rest hlong =>
    have hword := exists_placeholder_of_longFlag? hlong
    split at h
    · next letter word' rest' hshort =>
      obtain ⟨u, hu⟩ : ∃ u, shortFlag? u = some (letter, word', rest') := by
        unfold shortAfterLong? at hshort
        split at hshort
        · exact ⟨_, hshort⟩
        · cases hshort
      cases h
      refine ⟨?_, ?_, hor (exists_placeholder_of_shortFlag? hu) hword⟩
      · rintro _ ⟨⟩
        exact ⟨_, _, hu⟩
      · rintro _ ⟨⟩
        exact ⟨_, _, hlong⟩
    · cases h
      refine ⟨?_, ?_, ?_⟩
      · rintro _ ⟨⟩
      · rintro _ ⟨⟩
        exact ⟨_, _, hlong⟩
      · rintro w rfl
        exact hword
  · split at h
    · next letter word rest hshort =>
      have hword := exists_placeholder_of_shortFlag? hshort
      split at h
      · next name word' rest' hlong =>
        cases h
        refine ⟨?_, ?_, hor (exists_placeholder_of_longFlag? hlong) hword⟩
        · rintro _ ⟨⟩
          exact ⟨_, _, hshort⟩
        · rintro _ ⟨⟩
          exact ⟨_, _, hlong⟩
      · cases h
        refine ⟨?_, ?_, ?_⟩
        · rintro _ ⟨⟩
          exact ⟨_, _, hshort⟩
        · rintro _ ⟨⟩
        · rintro w rfl
          exact hword
    · cases h

/-! ## The shape of a declaration -/

/-- What a declaration can be. -/
structure WellShaped (d : Declaration) : Prop where
  flag : d.flags.tokens ≠ []
  short : ∀ c ∈ d.flags.short?, Text.isWordChar c = true
  long : ∀ name ∈ d.flags.long?, Text.isName name.toList = true
  placeholder : ∀ word ∈ d.placeholder, IsRun Text.isWordChar word
  default : ∀ word ∈ d.defaultValue, IsRun (fun c => !(Text.isBlank c || c == ')')) word

theorem wellShaped_of_read? {text : List Char} {d : Declaration} (h : read? text = some d) :
    d.WellShaped := by
  obtain ⟨hshort, hlong, hplaceholder⟩ := parts_of_read? h
  refine ⟨d.flags.tokens_ne_nil, ?_, ?_, ?_, ?_⟩
  · intro c hc
    obtain ⟨s, x, hs⟩ := hshort c hc
    exact shortFlag?_isWordChar hs
  · intro name hname
    obtain ⟨s, x, hs⟩ := hlong name hname
    exact isName_of_longFlag? hs
  · intro word hword
    obtain ⟨s, hs⟩ := hplaceholder word hword
    exact isRun_of_placeholder? hs
  · intro word hword
    rw [defaultValue_of_read? h] at hword
    exact isRun_of_default? hword

/-- **A declaration is read from every text that starts with a flag, and from no other.** All such
texts look like declarations, so nothing is lost by reading only lines that do. What is read has a
flag; a short flag is a word character and a long one is a name; a placeholder is a word, and a
default is a word without blanks and closing parentheses. -/
theorem declares_from_flag :
    (∀ text, (read? text).isSome ↔ StartsFlag (Text.trimStart text)) ∧
    (∀ text, StartsFlag (Text.trimStart text) → startsWithFlag text = true) ∧
    (∀ lines : List (List Char),
      (lines.filter startsWithFlag).filterMap read? = lines.filterMap read?) ∧
    ∀ text d, read? text = some d → d.WellShaped := by
  refine ⟨fun _ => isSome_read?_iff, ?_, Usage.listedDeclarations_eq,
    fun _ _ => wellShaped_of_read?⟩
  intro text h
  obtain ⟨d, hd⟩ := Option.isSome_iff_exists.1 (isSome_read?_iff.2 h)
  exact startsWithFlag_of_read? hd

/-- Both flags, the long one first, and a default with a parenthesis inside. -/
theorem declares_from_flag_long_first :
    StartsFlag (Text.trimStart " --dry-run NUM, -d  Just (default: (x)".toList) ∧
    startsWithFlag " --dry-run NUM, -d  Just (default: (x)".toList = true ∧
    ∃ d, read? " --dry-run NUM, -d  Just (default: (x)".toList = some d ∧
      d = ⟨.both 'd' "dry-run", some "NUM", some "(x"⟩ ∧ d.WellShaped := by
  have hread : read? " --dry-run NUM, -d  Just (default: (x)".toList =
      some ⟨.both 'd' "dry-run", some "NUM", some "(x"⟩ := by decide +kernel
  have hstarts : StartsFlag (Text.trimStart " --dry-run NUM, -d  Just (default: (x)".toList) :=
    (declares_from_flag.1 _).1 (by rw [hread]; rfl)
  exact ⟨hstarts, declares_from_flag.2.1 _ hstarts, _, hread, rfl,
    declares_from_flag.2.2.2 _ _ hread⟩

end Synopsis.Declaration
