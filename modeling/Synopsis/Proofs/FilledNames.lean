import Synopsis.Proofs.HelpText

/-!
# Names filled in

Filling in the program's name exchanges every `$0` of the text for it, in one pass. Whether the
message then is free of `$0` is decided by the name and by what stands next to it. The name may
bring a `$0` with it: that of a usage line which starts with a word like `$0.sh` is this word, and
not the name that is given. And a `$0` may come about where a dollar and a zero meet at an end of
the name, or across it if it is empty.

`Usage.Reopens` lists these cases. They are all: a message has a `$0` exactly in one of them
(`Usage.opens_substitute_iff`).
-/

namespace Synopsis.Usage

variable {program s t : List Char} {c : Char}

/-! ## Where a `$0` can stand -/

theorem dollar_infix_cons_iff :
    '$' :: t <:+: c :: s ↔ ('$' = c ∧ t <+: s) ∨ '$' :: t <:+: s := by
  rw [List.infix_cons_iff, List.cons_prefix_cons]

theorem dollar_infix_programToken_iff :
    '$' :: t <:+: programToken ++ s ↔ t <+: '0' :: s ∨ '$' :: t <:+: s := by
  show '$' :: t <:+: '$' :: '0' :: s ↔ _
  rw [dollar_infix_cons_iff, dollar_infix_cons_iff]
  simp

theorem zero_prefix_iff : ['0'] <+: s ↔ s.head? = some '0' := by
  cases s with
  | nil => simp
  | cons c s => simp [eq_comm]

theorem opens_cons_iff :
    programToken <:+: c :: s ↔ (c = '$' ∧ s.head? = some '0') ∨ programToken <:+: s := by
  rw [programToken, dollar_infix_cons_iff, zero_prefix_iff, eq_comm]

/-- In two texts put together, a `$0` stands in one of them or is cut in two. -/
theorem opens_append_iff :
    programToken <:+: s ++ t ↔
      programToken <:+: s ∨ programToken <:+: t ∨ (s.getLast? = some '$' ∧ t.head? = some '0') := by
  induction s with
  | nil => simp [programToken]
  | cons c s ih =>
    rw [List.cons_append, opens_cons_iff, opens_cons_iff, ih]
    cases s with
    | nil => simp; tauto
    | cons d s => simp [List.getLast?_cons_cons]; tauto

theorem opens_trimEnd_iff : programToken <:+: Text.trimEnd s ↔ programToken <:+: s := by
  obtain ⟨gap, hgap, hs⟩ := Text.exists_trimEnd s
  have hblank : ∀ c ∈ gap, Text.isBlank c = true := Text.allBlank_iff.1 hgap
  have hnone : ¬ programToken <:+: gap := fun h =>
    absurd (hblank '$' (h.subset (by decide))) (by decide)
  have hhead : gap.head? ≠ some '0' := fun h =>
    absurd (hblank '0' (List.mem_of_mem_head? h)) (by decide)
  conv_rhs => rw [hs, opens_append_iff]
  simp [hnone, hhead]

/-! ## A `$0` in a text with the name filled in -/

/-- So many times `$0` in a row, and then a zero. -/
def openRun (k : Nat) : List Char := (List.replicate k programToken).flatten ++ ['0']

/-- Once the name is filled in, the text has a `$0` again. -/
@[mk_iff]
inductive Reopens (program text : List Char) : Prop
  /-- The name has one. -/
  | inside (hname : programToken <:+: program) (htext : programToken <:+: text)
  /-- A dollar stands before a name that starts with a zero. -/
  | before (hname : program.head? = some '0') (htext : '$' :: programToken <:+: text)
  /-- A zero stands behind a name that ends with a dollar. -/
  | after (hname : program.getLast? = some '$') (htext : programToken ++ ['0'] <:+: text)
  /-- A name that ends with a dollar stands before itself, and it starts with a zero. -/
  | between (hhead : program.head? = some '0') (hlast : program.getLast? = some '$')
      (htext : programToken ++ programToken <:+: text)
  /-- The name is empty, and a dollar stands before it and a zero behind it, be it there once or
  several times in a row. -/
  | across (hname : program = []) (k : Nat) (htext : '$' :: openRun (k + 1) <:+: text)

theorem openRun_succ (k : Nat) : openRun (k + 1) = programToken ++ openRun k := by
  simp [openRun, List.replicate_succ]

theorem not_programToken_prefix_cons (h : Settled c s) : ¬ programToken <+: c :: s := by
  rw [programToken, List.cons_prefix_cons, zero_prefix_iff]
  exact fun hprefix => h hprefix.1.symm hprefix.2

theorem head?_substitute_eq_zero_iff (hne : program ≠ []) :
    (substitute program s).head? = some '0' ↔
      s.head? = some '0' ∨ (program.head? = some '0' ∧ programToken <+: s) := by
  induction s using open_induction with
  | nil => simp [substitute, programToken]
  | opened s _ =>
    rw [substitute_programToken, List.head?_append_of_ne_nil _ hne]
    simp [programToken]
  | cons c s hc _ => simp [substitute_cons hc, not_programToken_prefix_cons hc]

theorem head?_substitute_nil_eq_zero_iff :
    (substitute [] s).head? = some '0' ↔ ∃ k, openRun k <+: s := by
  induction s using open_induction with
  | nil => simp [substitute, openRun]
  | opened s ih =>
    rw [substitute_programToken, List.nil_append, ih]
    constructor
    · rintro ⟨k, hk⟩
      exact ⟨k + 1, by rwa [openRun_succ, List.prefix_append_right_inj]⟩
    · rintro ⟨k, hk⟩
      cases k with
      | zero => simp [openRun, programToken] at hk
      | succ k => exact ⟨k, by rwa [openRun_succ, List.prefix_append_right_inj] at hk⟩
  | cons c s hc _ =>
    have hfirst : (substitute [] (c :: s)).head? = (c :: s).head? := by
      rw [substitute_cons hc, List.head?_cons, List.head?_cons]
    rw [hfirst, ← zero_prefix_iff]
    constructor
    · intro h
      exact ⟨0, h⟩
    · rintro ⟨k, hk⟩
      cases k with
      | zero => exact hk
      | succ k =>
        rw [openRun_succ] at hk
        exact absurd ((List.prefix_append _ _).trans hk) (not_programToken_prefix_cons hc)

/-- Where an empty name is filled in, a `$0` comes about only across it. -/
theorem opens_substitute_nil_iff :
    programToken <:+: substitute [] s ↔ ∃ k, '$' :: openRun (k + 1) <:+: s := by
  induction s using open_induction with
  | nil => simp [substitute, programToken]
  | opened s ih =>
    have hnot : ∀ k, ¬ openRun (k + 1) <+: '0' :: s := by
      intro k
      simp [openRun_succ, programToken]
    rw [substitute_programToken, List.nil_append, ih]
    simp only [dollar_infix_programToken_iff, hnot, false_or]
  | cons c s hc ih =>
    rw [substitute_cons hc, opens_cons_iff, ih, head?_substitute_nil_eq_zero_iff]
    simp only [dollar_infix_cons_iff, exists_or, ← exists_and_left]
    refine or_congr_left ⟨?_, ?_⟩
    · rintro ⟨k, rfl, hk⟩
      cases k with
      | zero => exact absurd (zero_prefix_iff.1 hk) (hc rfl)
      | succ k => exact ⟨k, rfl, hk⟩
    · rintro ⟨k, rfl, hk⟩
      exact ⟨k + 1, rfl, hk⟩

theorem name_zero : programToken ++ ['0'] = '$' :: ['0', '0'] := rfl

theorem name_name : programToken ++ programToken = '$' :: '0' :: programToken := rfl

/-- Where a name of at least one character is filled in, a `$0` comes with it or comes about at one
of its ends. -/
theorem opens_substitute_of_ne_nil_iff (hne : program ≠ []) :
    programToken <:+: substitute program s ↔
      (programToken <:+: program ∧ programToken <:+: s) ∨
      (program.head? = some '0' ∧ '$' :: programToken <:+: s) ∨
      (program.getLast? = some '$' ∧ programToken ++ ['0'] <:+: s) ∨
      (program.head? = some '0' ∧ program.getLast? = some '$' ∧
        programToken ++ programToken <:+: s) := by
  induction s using open_induction with
  | nil => simp [substitute, programToken]
  | opened s ih =>
    have hself : programToken <:+: programToken ++ s := (List.prefix_append _ s).isInfix
    have hbefore : ¬ programToken <+: '0' :: s := by simp [programToken]
    rw [substitute_programToken, opens_append_iff, ih, head?_substitute_eq_zero_iff hne]
    simp only [name_zero, name_name, dollar_infix_programToken_iff, hself, hbefore,
      List.cons_prefix_cons, zero_prefix_iff]
    grind
  | cons c s hc ih =>
    have hzero : ∀ t, ¬ ('$' = c ∧ '0' :: t <+: s) := by
      rintro t ⟨rfl, ht⟩
      exact hc rfl (zero_prefix_iff.1 ((List.prefix_append ['0'] t).trans ht))
    have hhead : c = '$' → s.head? ≠ some '0' := hc
    rw [substitute_cons hc, opens_cons_iff, opens_cons_iff, ih, head?_substitute_eq_zero_iff hne]
    simp only [name_zero, name_name, dollar_infix_cons_iff, hzero, false_or]
    grind

/-- A text has a `$0` once the name is filled in exactly in the cases that are listed. -/
theorem opens_substitute_iff :
    programToken <:+: substitute program s ↔ Reopens program s := by
  rw [reopens_iff]
  by_cases hne : program = []
  · subst hne
    rw [opens_substitute_nil_iff]
    simp [programToken]
  · rw [opens_substitute_of_ne_nil_iff hne]
    simp [hne]

/-! ## The message of a usage -/

theorem opens_programName_iff {given : String} (hgiven : '$' ∉ given.toList) {token : List Char} :
    programToken <:+: (programName (some given) token).toList ↔
      token ≠ programToken ∧ programToken <:+: token := by
  have hnone : ¬ programToken <:+: given.toList := fun h => hgiven (h.subset (by decide))
  by_cases htoken : token = programToken
  · simp [programName, htoken, hnone]
  · simp [programName, htoken]

theorem isBlank_getLast?_trimEnd (h : c ∈ (Text.trimEnd s).getLast?) : Text.isBlank c = false := by
  have hne : Text.trimEnd s ≠ [] := by
    intro hnil
    rw [hnil] at h
    cases h
  rw [List.getLast?_eq_some_getLast hne] at h
  obtain rfl := Option.some.inj h
  exact Bool.not_eq_true _ ▸ List.rdropWhile_last_not Text.isBlank s hne

/-- A given name without a dollar, of at least one character and not a zero first, leaves no
`$0`. -/
theorem not_reopens (hdollar : '$' ∉ program) (hne : program ≠ [])
    (hzero : program.head? ≠ some '0') (text : List Char) : ¬ Reopens program text := by
  intro h
  cases h with
  | inside hname => exact hdollar (hname.subset (by decide))
  | before hname => exact hzero hname
  | after hname => exact hdollar (List.mem_of_getLast? hname)
  | between hhead => exact hzero hhead
  | across hname => exact hne hname

/-- **Every `$0` is filled in**, unless a name that is filled in leaves one. The name that is given
has no dollar. Then message and program are free of `$0` exactly if filling in the program does not
open the text again. The program itself has a `$0` exactly if the first word of the usage line has
one and is more than that. No message ends with a blank. -/
theorem every_name_filled_in_iff {given text : String} {usage : Usage}
    (hgiven : '$' ∉ given.toList) (h : read (some given) text = .ok usage) :
    (¬ programToken <:+: usage.message.toList ∧ ¬ programToken <:+: usage.program.toList ↔
      ¬ Reopens usage.program.toList text.toList) ∧
    (∀ token rest, HasUsageLine text token rest →
      (programToken <:+: usage.program.toList ↔
        token ≠ programToken ∧ programToken <:+: token)) ∧
    ∀ c ∈ usage.message.toList.getLast?, Text.isBlank c = false := by
  obtain ⟨token, rest, elements, hline, -, -, rfl⟩ := exists_of_read h
  have hmessage : programToken <:+: (helpText (programName (some given) token).toList text.toList) ↔
      Reopens (programName (some given) token).toList text.toList := by
    rw [helpText, opens_trimEnd_iff, opens_substitute_iff]
  simp only [assemble, String.toList_ofList]
  refine ⟨?_, ?_, ?_⟩
  · rw [hmessage]
    refine and_iff_left_of_imp fun hclosed hname => hclosed (.inside hname ?_)
    -- The word with a `$0` stands in the text.
    obtain ⟨-, htoken⟩ := (opens_programName_iff hgiven).1 hname
    by_contra htext
    have hzero := openings_token (openings_eq_zero_iff.2 htext) (lineTokens?_eq_some_iff.1 hline)
    exact openings_eq_zero_iff.1 hzero htoken
  · intro token' rest' hline'
    have hsame := lineTokens?_eq_some_iff.2 hline'
    rw [hline, Option.some.injEq, List.cons.injEq] at hsame
    rw [← hsame.1]
    exact opens_programName_iff hgiven
  · intro c hc
    exact isBlank_getLast?_trimEnd hc

/-- A word that goes on behind `$0` is taken for the program's name, and its `$0` stays; a word of
its own is filled in everywhere. -/
theorem every_name_filled_in_iff_suffix :
    (∃ usage, read (some "demo") "Usage: $0.sh" = .ok usage ∧ usage.program = "$0.sh" ∧
      usage.message = "Usage: $0.sh.sh" ∧
      ¬ (¬ programToken <:+: usage.message.toList ∧ ¬ programToken <:+: usage.program.toList)) ∧
    ∃ usage, read (some "demo") "Usage: $0 [-v]\n  -v  Let $0$0 speak \n" = .ok usage ∧
      usage.message = "Usage: demo [-v]\n  -v  Let demodemo speak" ∧
      ¬ programToken <:+: usage.message.toList ∧ ¬ programToken <:+: usage.program.toList := by
  have hgiven : '$' ∉ "demo".toList := by decide
  constructor
  · let usage : Usage := ⟨"$0.sh", "Usage: $0.sh.sh", [], [], .empty, .empty⟩
    have hread : read (some "demo") "Usage: $0.sh" = .ok usage := by decide +kernel
    refine ⟨usage, hread, rfl, rfl, ?_⟩
    rw [(every_name_filled_in_iff hgiven hread).1, not_not]
    exact .inside (by decide) (by decide)
  · let usage : Usage :=
      { program := "demo"
        message := "Usage: demo [-v]\n  -v  Let demodemo speak"
        arguments := []
        options := [⟨"v", .short 'v', none⟩]
        flagTable := NameMap.empty.insert "-v" 0
        defaults := .empty }
    have hread : read (some "demo") "Usage: $0 [-v]\n  -v  Let $0$0 speak \n" = .ok usage := by
      decide +kernel
    refine ⟨usage, hread, rfl, ?_⟩
    rw [(every_name_filled_in_iff hgiven hread).1]
    exact not_reopens hgiven (by decide) (by decide) _

end Synopsis.Usage
