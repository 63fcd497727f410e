import Synopsis.Proofs.Outcomes
import Synopsis.Usage

/-!
# What a usage text that can be read consists of

`Usage.exists_of_read` takes the reading of a usage text apart. The elements of its usage line
hold the options in brackets in their order (`inlineDeclarations_elements`), at most one of its
positionals takes a run of values, and none is optional beside that one (`Coherent`).
-/

namespace Synopsis

/-! ## Flags of a declaration -/

namespace Flags

/-- The letter of the short flag is not a dash, so its token is no long flag. -/
def WellSpelled (flags : Flags) : Prop := ∀ c, flags.short? = some c → c ≠ '-'

end Flags

namespace Declaration

theorem shortFlag?_isWordChar {s : List Char} {c : Char} {rest : Option String × List Char}
    (h : shortFlag? s = some (c, rest)) : Text.isWordChar c = true := by
  unfold shortFlag? at h
  split at h
  · split at h
    · next hc =>
      cases h
      exact (Bool.and_eq_true_iff.1 hc).1
    · cases h
  · cases h

theorem isWordChar_ne_dash {c : Char} (h : Text.isWordChar c = true) : c ≠ '-' := by
  rintro rfl
  simp [Text.isWordChar] at h

/-- The short flag of a declaration is a word character. -/
theorem read?_wellSpelled {s : List Char} {d : Declaration} (h : read? s = some d) :
    d.flags.WellSpelled := by
  intro c hc
  apply isWordChar_ne_dash
  simp only [read?] at h
  split at h
  · split at h
    · next hs =>
      cases h
      cases hc
      unfold shortAfterLong? at hs
      split at hs
      · exact shortFlag?_isWordChar hs
      · cases hs
    · cases h
      cases hc
  · split at h
    · next hs =>
      split at h <;> cases h <;> cases hc <;> exact shortFlag?_isWordChar hs
    · cases h

end Declaration

/-! ## Elements of the usage line -/

namespace UsageLine

/-- The options declared in brackets among the tokens of a usage line. -/
def bracketedDeclarations (tokens : List (List Char)) : List Declaration :=
  tokens.filterMap fun token =>
    match Shape.ofToken? token with
    | some (.option d) => some d
    | _ => none

/-- An ellipsis on its own is no element. -/
theorem ofToken?_ellipsis : Shape.ofToken? ellipsis = none := by decide

/-- An option in brackets was read from the inside of the brackets. -/
theorem exists_read?_of_ofToken? {token : List Char} {d : Declaration}
    (h : Shape.ofToken? token = some (.option d)) : ∃ s, Declaration.read? s = some d := by
  unfold Shape.ofToken? at h
  split at h
  · next inner hinner =>
    unfold Shape.ofInside? at h
    split at h
    · obtain ⟨e, he, heq⟩ := Option.map_eq_some_iff.1 h
      cases heq
      exact ⟨inner, he⟩
    · split at h <;> cases h
  · unfold Shape.ofWord? at h
    split at h
    · cases h
    · split at h <;> cases h

@[simp] theorem inlineDeclarations_option (d : Declaration) (es : List Element) :
    inlineDeclarations (.option d :: es) = d :: inlineDeclarations es := rfl

@[simp] theorem inlineDeclarations_named (name : List Char) (arity : Arity) (es : List Element) :
    inlineDeclarations (.named name arity :: es) = inlineDeclarations es := rfl

@[simp] theorem positionals_option (d : Declaration) (es : List Element) :
    positionals (.option d :: es) = positionals es := rfl

@[simp] theorem positionals_named (name : List Char) (arity : Arity) (es : List Element) :
    positionals (.named name arity :: es) =
      ⟨String.ofList (Text.canonical name), arity⟩ :: positionals es := rfl

/-- The elements of a usage line hold the options in brackets, in order. -/
theorem inlineDeclarations_elements {dotted : Bool} {tokens : List (List Char)}
    {es : List Element} (h : elements dotted tokens = .ok es) :
    inlineDeclarations es = bracketedDeclarations tokens := by
  -- The cases are those of `elements`: a failure in 2, 5 and 8, an option in brackets in 3, and
  -- a positional in each of the others.
  fun_induction elements dotted tokens generalizing es with
  | case1 => cases h; rfl
  | case2 | case5 | case8 => cases h
  | case3 dotted token rest d hshape ih =>
    obtain ⟨es', hes, rfl⟩ := map_eq_ok_iff.1 h
    simp [bracketedDeclarations, hshape, ih hes]
  | case4 dotted token rest name hshape ih =>
    obtain ⟨es', hes, rfl⟩ := map_eq_ok_iff.1 h
    simp [bracketedDeclarations, hshape, ih hes]
  | case6 dotted token rest name hshape hdotted ih =>
    obtain ⟨es', hes, rfl⟩ := map_eq_ok_iff.1 h
    simp [bracketedDeclarations, hshape, ih hes]
  | case7 dotted token name hshape =>
    cases h
    rw [inlineDeclarations_named]
    simp [bracketedDeclarations, hshape, inlineDeclarations]
  | case9 dotted token name hshape rest hdotted ih =>
    -- The ellipsis is consumed with the name before it, and declares nothing itself.
    obtain ⟨es', hes, rfl⟩ := map_eq_ok_iff.1 h
    simp [bracketedDeclarations, hshape, ofToken?_ellipsis, ih hes]
  | case10 dotted token name hshape next rest hnext ih =>
    obtain ⟨es', hes, rfl⟩ := map_eq_ok_iff.1 h
    rw [inlineDeclarations_named, ih hes]
    simp [bracketedDeclarations, hshape]

/-- At most one positional takes a run of values, and none does after another one. -/
theorem countP_repeated_elements {dotted : Bool} {tokens : List (List Char)}
    {es : List Element} (h : elements dotted tokens = .ok es) :
    (positionals es).countP (·.arity = .repeated) ≤ if dotted then 0 else 1 := by
  fun_induction elements dotted tokens generalizing es with
  | case1 => cases h; simp [positionals]
  | case2 | case5 | case8 => cases h
  | case3 dotted token rest d hshape ih =>
    obtain ⟨es', hes, rfl⟩ := map_eq_ok_iff.1 h
    simpa using ih hes
  | case4 dotted token rest name hshape ih =>
    obtain ⟨es', hes, rfl⟩ := map_eq_ok_iff.1 h
    simpa using ih hes
  | case6 dotted token rest name hshape hdotted ih =>
    obtain ⟨es', hes, rfl⟩ := map_eq_ok_iff.1 h
    simpa [hdotted] using ih hes
  | case7 dotted token name hshape =>
    cases h
    simp [positionals, Element.named]
  | case9 dotted token name hshape rest hdotted ih =>
    obtain ⟨es', hes, rfl⟩ := map_eq_ok_iff.1 h
    simpa [hdotted] using ih hes
  | case10 dotted token name hshape next rest hnext ih =>
    obtain ⟨es', hes, rfl⟩ := map_eq_ok_iff.1 h
    simpa using ih hes

end UsageLine

/-! ## Arities -/

/-- How many of the positionals have the arity. -/
def Arity.tally (arity : Arity) (arguments : List Argument) : Nat :=
  arguments.countP (·.arity = arity)

/-- Whether one of the positionals takes a run of values. -/
def anyRepeated (arguments : List Argument) : Bool := arguments.any (·.arity = .repeated)

namespace Arity

@[simp] theorem tally_nil (arity : Arity) : arity.tally [] = 0 := rfl

@[simp] theorem tally_cons (arity : Arity) (a : Argument) (arguments : List Argument) :
    arity.tally (a :: arguments) = arity.tally arguments + if a.arity = arity then 1 else 0 := by
  simp [tally, List.countP_cons]

@[simp] theorem tally_append (arity : Arity) (l k : List Argument) :
    arity.tally (l ++ k) = arity.tally l + arity.tally k := by
  simp [tally]

/-- Every positional has one of the three arities. -/
theorem tally_sum (arguments : List Argument) :
    required.tally arguments + optional.tally arguments + repeated.tally arguments =
      arguments.length := by
  induction arguments with
  | nil => rfl
  | cons a arguments ih =>
    obtain ⟨name, arity⟩ := a
    cases arity <;> simp <;> omega

end Arity

@[simp] theorem anyRepeated_nil : anyRepeated [] = false := rfl

@[simp] theorem anyRepeated_cons (a : Argument) (arguments : List Argument) :
    anyRepeated (a :: arguments) = (decide (a.arity = .repeated) || anyRepeated arguments) := rfl

@[simp] theorem anyRepeated_append (l k : List Argument) :
    anyRepeated (l ++ k) = (anyRepeated l || anyRepeated k) := by
  simp [anyRepeated]

theorem anyRepeated_eq_false {arguments : List Argument} :
    anyRepeated arguments = false ↔ Arity.repeated.tally arguments = 0 := by
  simp [anyRepeated, Arity.tally]

/-- Values can be attributed to the positionals in one way only: at most one of them takes a run
of values, and then none is optional. -/
structure Coherent (arguments : List Argument) : Prop where
  single : Arity.repeated.tally arguments ≤ 1
  unambiguous : anyRepeated arguments → Arity.optional.tally arguments = 0

theorem Coherent.tally_repeated {arguments : List Argument} (h : Coherent arguments)
    (hrun : anyRepeated arguments = true) : Arity.repeated.tally arguments = 1 := by
  have hpos : Arity.repeated.tally arguments ≠ 0 := by
    rw [ne_eq, ← anyRepeated_eq_false, hrun]
    simp
  have := h.single
  omega

/-! ## Reading a usage text -/

namespace Usage

/-- The declarations of a usage text: first those in brackets on the usage line, then those on
lines of their own. -/
def declarations (text : String) : List Declaration :=
  let lines := Text.lines text.toList
  UsageLine.bracketedDeclarations (elementTokens ((lineTokens? lines).getD []).tail) ++
    listedDeclarations lines

/-- A usage text that can be read has a usage line with a program's name and elements. -/
theorem exists_of_read {given : Option String} {text : String} {usage : Usage}
    (h : read given text = .ok usage) :
    ∃ token rest elements,
      lineTokens? (Text.lines text.toList) = some (token :: rest) ∧
      UsageLine.elements false (elementTokens rest) = .ok elements ∧
      UsageLine.isAmbiguous (UsageLine.positionals elements) = false ∧
      usage = assemble (programName given token) text.toList elements := by
  unfold read at h
  split at h
  · cases h
  · cases h
  · next token rest hline =>
    split at h
    · cases h
    · next elements hes =>
      split at h
      · cases h
      · next ha =>
        cases h
        exact ⟨token, rest, elements, hline, hes, by simpa using ha, rfl⟩

theorem wellSpelled_of_mem_declarations {text : String} {d : Declaration}
    (h : d ∈ declarations text) : d.flags.WellSpelled := by
  rcases List.mem_append.1 h with h | h
  · obtain ⟨token, -, ht⟩ := List.mem_filterMap.1 h
    split at ht
    · next hshape =>
      cases ht
      obtain ⟨s, hs⟩ := UsageLine.exists_read?_of_ofToken? hshape
      exact Declaration.read?_wellSpelled hs
    · cases ht
  · obtain ⟨line, -, hd⟩ := List.mem_filterMap.1 h
    exact Declaration.read?_wellSpelled hd

/-- The options of a usage come from the declarations of its text, in order. -/
theorem options_of_read {given : Option String} {text : String} {usage : Usage}
    (h : read given text = .ok usage) :
    usage.options = OptionSpec.ofDeclarations (declarations text) ∧
      usage.flagTable = OptionSpec.flagTable usage.options := by
  obtain ⟨token, rest, elements, hline, hes, -, rfl⟩ := exists_of_read h
  refine ⟨?_, rfl⟩
  simp only [assemble, declarations, hline, Option.getD_some, List.tail_cons,
    UsageLine.inlineDeclarations_elements hes]

/-- Values can be attributed to the positionals of a usage in one way only. -/
theorem coherent_of_read {given : Option String} {text : String} {usage : Usage}
    (h : read given text = .ok usage) : Coherent usage.arguments := by
  obtain ⟨token, rest, elements, -, hes, ha, rfl⟩ := exists_of_read h
  show Coherent (UsageLine.positionals elements)
  refine ⟨UsageLine.countP_repeated_elements hes, ?_⟩
  intro hrep
  rw [UsageLine.isAmbiguous, Bool.and_eq_false_iff] at ha
  rcases ha with ha | ha
  · rw [Arity.tally, List.countP_eq_zero]
    simpa using ha
  · exact absurd hrep (by simpa [anyRepeated] using ha)

end Usage

end Synopsis
