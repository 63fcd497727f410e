import Synopsis.Proofs.Scanning
import Synopsis.Usage

/-!
# Names left open

A text may leave the program's name open, and filling it in exchanges every `$0` for the name. An
induction over a text with such places goes from one `$0` or one other character to the next
(`Usage.open_induction`). Neither a `$0` nor a name goes from one line to another, so filling in
goes line by line (`Usage.lines_substitute`) and the places can be counted line by line
(`Usage.openings_eq_openingsIn`).
-/

namespace Synopsis.Usage

/-! ## Counting and filling in -/

/-- How often the text leaves the program's name open. -/
def openings : List Char → Nat
  | [] => 0
  | '$' :: '0' :: s => openings s + 1
  | _ :: s => openings s

/-- No `$0` starts with this character, given what follows it. -/
def Settled (c : Char) (s : List Char) : Prop := c = '$' → s.head? ≠ some '0'

theorem openings_cons {c : Char} {s : List Char} (h : Settled c s) :
    openings (c :: s) = openings s := by
  rw [openings]
  rintro t rfl rfl
  exact h rfl rfl

theorem substitute_cons {c : Char} {s : List Char} (h : Settled c s) (program : List Char) :
    substitute program (c :: s) = c :: substitute program s := by
  rw [substitute]
  rintro t rfl rfl
  exact h rfl rfl

/-- A text starts with `$0` or with a character that starts none. -/
theorem open_induction {motive : List Char → Prop} (nil : motive [])
    (opened : ∀ s, motive s → motive (programToken ++ s))
    (cons : ∀ c s, Settled c s → motive s → motive (c :: s)) (s : List Char) : motive s := by
  induction s using openings.induct with
  | case1 => exact nil
  | case2 s ih => exact opened s ih
  | case3 c s h ih =>
    refine cons c s ?_ ih
    rintro rfl hs
    obtain ⟨t, rfl⟩ := List.head?_eq_some_iff.1 hs
    exact h t rfl rfl

@[simp] theorem openings_programToken (s : List Char) :
    openings (programToken ++ s) = openings s + 1 := rfl

@[simp] theorem substitute_programToken (program s : List Char) :
    substitute program (programToken ++ s) = program ++ substitute program s := rfl

theorem openings_eq_zero_iff {s : List Char} : openings s = 0 ↔ ¬ programToken <:+: s := by
  induction s using open_induction with
  | nil => simp [openings, programToken]
  | opened s ih =>
    simp only [openings_programToken, Nat.succ_ne_zero, false_iff, not_not]
    exact (List.prefix_append programToken s).isInfix
  | cons c s h ih =>
    have hnot : ¬ programToken <+: c :: s := by
      rintro ⟨t, ht⟩
      cases ht
      exact h rfl rfl
    rw [openings_cons h, ih, List.infix_cons_iff, not_or]
    exact (and_iff_right hnot).symm

theorem substitute_eq_self {s : List Char} (h : openings s = 0) (program : List Char) :
    substitute program s = s := by
  induction s using open_induction with
  | nil => rfl
  | opened s ih => simp at h
  | cons c s hc ih =>
    rw [substitute_cons hc, ih (by rwa [openings_cons hc] at h)]

theorem openings_trimEnd {s : List Char} (h : openings s = 0) : openings (Text.trimEnd s) = 0 := by
  obtain ⟨gap, -, hs⟩ := Text.exists_trimEnd s
  rw [openings_eq_zero_iff] at h ⊢
  intro hi
  exact h (hi.trans ⟨[], gap, by simpa using hs.symm⟩)

theorem substitute_programToken_self (s : List Char) : substitute programToken s = s := by
  induction s using open_induction with
  | nil => rfl
  | opened s ih => rw [substitute_programToken, ih]
  | cons c s hc ih => rw [substitute_cons hc, ih]

/-! A text can be taken apart where no `$0` is cut in two. -/

theorem settled_append {c : Char} {s : List Char} (h : Settled c s)
    (hlast : (c :: s).getLast? ≠ some '$') (t : List Char) : Settled c (s ++ t) := by
  cases s with
  | nil => exact fun hc => absurd (congrArg some hc) hlast
  | cons d s => exact h

theorem getLast?_ne_of_append {lead s : List Char} {c : Char} (h : (lead ++ s).getLast? ≠ some c) :
    s.getLast? ≠ some c := by
  intro hs
  rw [List.getLast?_append, hs] at h
  exact h rfl

theorem openings_append {s : List Char} (h : s.getLast? ≠ some '$') (t : List Char) :
    openings (s ++ t) = openings s + openings t := by
  induction s using open_induction with
  | nil => simp [openings]
  | opened s ih =>
    rw [List.append_assoc, openings_programToken, openings_programToken,
      ih (getLast?_ne_of_append h), Nat.add_right_comm]
  | cons c s hc ih =>
    rw [List.cons_append, openings_cons hc, openings_cons (settled_append hc h t)]
    exact ih (@getLast?_ne_of_append [c] s '$' h)

theorem substitute_append {s : List Char} (h : s.getLast? ≠ some '$') (program t : List Char) :
    substitute program (s ++ t) = substitute program s ++ substitute program t := by
  induction s using open_induction with
  | nil => rfl
  | opened s ih =>
    rw [List.append_assoc, substitute_programToken, substitute_programToken,
      ih (getLast?_ne_of_append h), List.append_assoc]
  | cons c s hc ih =>
    rw [List.cons_append, substitute_cons hc, substitute_cons (settled_append hc h t)]
    exact congrArg (c :: ·) (ih (@getLast?_ne_of_append [c] s '$' h))

/-! ## Words in place of a name -/

/-- A word that may stand for the program's name on the usage line and can be no part of a
default. -/
structure Filling (word : List Char) : Prop where
  ne_nil : word ≠ []
  head : word.head? ≠ some '['
  chars : ∀ c ∈ word, Text.isBlank c = false ∧ c ≠ '(' ∧ c ≠ ')'

theorem filling_programToken : Filling programToken := by
  refine ⟨by decide, by decide, List.forall_mem_cons.2 ⟨by decide, ?_⟩⟩
  exact List.forall_mem_singleton.2 (by decide)

theorem Filling.ne_line_end {word : List Char} (h : Filling word) {c : Char} (hc : c ∈ word) :
    c ≠ '\n' ∧ c ≠ '\r' := by
  constructor <;> (rintro rfl; cases (h.chars _ hc).1)

/-! ## Names left open, line by line -/

theorem head?_headD_lines {s : List Char} {c : Char}
    (h : ((Text.lines s).headD []).head? = some c) : s.head? = some c := by
  cases s with
  | nil => cases h
  | cons d s =>
    rcases Text.lines_cons_cases d s with ⟨-, hl⟩ | ⟨-, hs, hl⟩ | ⟨-, -, hl⟩ <;> rw [hl] at h
    · cases h
    · obtain ⟨t, rfl⟩ := List.head?_eq_some_iff.1 hs
      cases h
    · exact h

theorem settled_headD_lines {c : Char} {s : List Char} (h : Settled c s) :
    Settled c ((Text.lines s).headD []) :=
  fun hc hhead => h hc (head?_headD_lines hhead)

/-- A word without line ends stays on one line. -/
theorem lines_word_append {word : List Char} (hne : word ≠ [])
    (hword : ∀ c ∈ word, c ≠ '\n' ∧ c ≠ '\r') (s : List Char) :
    Text.lines (word ++ s) = (word ++ (Text.lines s).headD []) :: (Text.lines s).tail := by
  induction word with
  | nil => exact absurd rfl hne
  | cons c word ih =>
    obtain ⟨hc, hword⟩ := List.forall_mem_cons.1 hword
    have hline : Text.lines (c :: (word ++ s)) =
        (c :: (Text.lines (word ++ s)).headD []) :: (Text.lines (word ++ s)).tail := by
      rcases Text.lines_cons_cases c (word ++ s) with ⟨hn, -⟩ | ⟨hr, -⟩ | ⟨-, -, hl⟩
      · exact absurd hn hc.1
      · exact absurd hr hc.2
      · exact hl
    rw [List.cons_append, hline]
    by_cases hnil : word = []
    · simp [hnil]
    · simp [ih hnil hword]

theorem lines_filling {word : List Char} (h : Filling word) (s : List Char) :
    Text.lines (word ++ s) = (word ++ (Text.lines s).headD []) :: (Text.lines s).tail :=
  lines_word_append h.ne_nil (fun _ hc => h.ne_line_end hc) s

/-- How often the lines together leave the program's name open. -/
def openingsIn : List (List Char) → Nat
  | [] => 0
  | line :: rest => openings line + openingsIn rest

theorem openingsIn_append (lines more : List (List Char)) :
    openingsIn (lines ++ more) = openingsIn lines + openingsIn more := by
  induction lines with
  | nil => simp [openingsIn]
  | cons line lines ih => rw [List.cons_append, openingsIn, openingsIn, ih, Nat.add_assoc]

theorem openings_eq_zero_of_mem {lines : List (List Char)} {line : List Char}
    (h : openingsIn lines = 0) (hline : line ∈ lines) : openings line = 0 := by
  obtain ⟨before, after, rfl⟩ := List.append_of_mem hline
  rw [openingsIn_append, openingsIn] at h
  omega

/-- No `$0` goes from one line to the next. -/
theorem openings_eq_openingsIn (s : List Char) : openings s = openingsIn (Text.lines s) := by
  have hfirst : ∀ lines : List (List Char), openingsIn lines =
      openings (lines.headD []) + openingsIn lines.tail := by
    intro lines
    cases lines <;> simp [openingsIn, openings]
  induction s using open_induction with
  | nil => rfl
  | opened s ih =>
    rw [lines_filling filling_programToken, openingsIn, openings_programToken,
      openings_programToken, ih, hfirst, Nat.add_right_comm]
  | cons c s hc ih =>
    rw [openings_cons hc, ih]
    rcases Text.lines_cons_cases c s with ⟨-, hl⟩ | ⟨-, -, hl⟩ | ⟨-, -, hl⟩ <;> rw [hl]
    · simp [openingsIn, openings]
    · rw [hfirst, openingsIn, openings_cons (settled_headD_lines hc)]

theorem head?_substitute {program s : List Char} {c : Char} (hne : program ≠ [])
    (hc : c ∉ program) (h : (substitute program s).head? = some c) : s.head? = some c := by
  induction s using open_induction with
  | nil => cases h
  | opened s _ =>
    rw [substitute_programToken, List.head?_append_of_ne_nil _ hne] at h
    exact absurd (List.mem_of_mem_head? h) hc
  | cons d s hd _ =>
    rw [substitute_cons hd] at h
    exact h

/-- Filling in a name goes line by line. -/
theorem lines_substitute {program : List Char} (hprogram : Filling program) (s : List Char) :
    Text.lines (substitute program s) = (Text.lines s).map (substitute program) := by
  have hhead : ∀ lines : List (List Char), (lines.map (substitute program)).headD [] =
      substitute program (lines.headD []) := by
    intro lines
    cases lines <;> rfl
  induction s using open_induction with
  | nil => rfl
  | opened s ih =>
    rw [substitute_programToken, lines_filling hprogram, lines_filling filling_programToken,
      List.map_cons, substitute_programToken, ih, hhead, List.map_tail]
  | cons c s hc ih =>
    rw [substitute_cons hc]
    rcases Text.lines_cons_cases c s with ⟨rfl, hl⟩ | ⟨rfl, hs, hl⟩ | ⟨hn, hr, hl⟩ <;> rw [hl]
    · rw [List.map_cons, ← ih]
      rfl
    · obtain ⟨t, rfl⟩ := List.head?_eq_some_iff.1 hs
      rw [← ih, Text.lines_return rfl]
    · rcases Text.lines_cons_cases c (substitute program s) with
        ⟨hn', -⟩ | ⟨hr', hs, -⟩ | ⟨-, -, hl'⟩
      · exact absurd hn' hn
      · -- The word that is filled in does not complete a line end.
        have hline := fun hmem => (hprogram.ne_line_end hmem).1 rfl
        exact absurd (head?_substitute hprogram.ne_nil hline hs) (hr hr')
      · rw [hl', ih, hhead, List.map_cons, substitute_cons (settled_headD_lines hc), List.map_tail]

theorem map_substitute_eq_self {lines : List (List Char)} (h : openingsIn lines = 0)
    (word : List Char) : lines.map (substitute word) = lines := by
  have hmap : lines.map (substitute word) = lines.map id := by
    apply List.map_congr_left
    intro line hline
    exact substitute_eq_self (openings_eq_zero_of_mem h hline) word
  rw [hmap, List.map_id]

end Synopsis.Usage
