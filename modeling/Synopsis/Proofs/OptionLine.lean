import Synopsis.Proofs.Declarations

/-!
# Option lines and what they declare

An option line is written in one of five layouts of its flags, with a placeholder, a description
and a default if there are such things. Reading it gives back what was written: a description
starts after two spaces, so that its first word is no placeholder, and its first character cannot
be taken for a further flag.
-/

namespace Synopsis

/-! ## Writing option lines -/

/-- The flags of an option line, as they are laid out. -/
inductive FlagLayout where
  /-- `-s` -/
  | short (letter : Char)
  /-- `--long` -/
  | long (name : List Char)
  /-- `-s, --long` -/
  | shortCommaLong (letter : Char) (name : List Char)
  /-- `-s --long` -/
  | shortSpaceLong (letter : Char) (name : List Char)
  /-- `--long, -s` -/
  | longCommaShort (name : List Char) (letter : Char)
deriving DecidableEq

namespace FlagLayout

def text : FlagLayout → List Char
  | .short c => ['-', c]
  | .long l => '-' :: '-' :: l
  | .shortCommaLong c l => '-' :: c :: ',' :: ' ' :: '-' :: '-' :: l
  | .shortSpaceLong c l => '-' :: c :: ' ' :: '-' :: '-' :: l
  | .longCommaShort l c => '-' :: '-' :: (l ++ [',', ' ', '-', c])

def flags : FlagLayout → Flags
  | .short c => .short c
  | .long l => .long (String.ofList l)
  | .shortCommaLong c l => .both c (String.ofList l)
  | .shortSpaceLong c l => .both c (String.ofList l)
  | .longCommaShort l c => .both c (String.ofList l)

/-- The letter is a word character and the name is a name. -/
def WellFormed : FlagLayout → Prop
  | .short c => Text.isWordChar c = true
  | .long l => Text.isName l = true
  | .shortCommaLong c l => Text.isWordChar c = true ∧ Text.isName l = true
  | .shortSpaceLong c l => Text.isWordChar c = true ∧ Text.isName l = true
  | .longCommaShort l c => Text.isName l = true ∧ Text.isWordChar c = true

theorem not_mem_of_isName {l : List Char} (h : Text.isName l = true) : '(' ∉ l := by
  cases l with
  | nil => cases h
  | cons c l =>
    obtain ⟨hc, hl⟩ := Bool.and_eq_true_iff.1 h
    rw [List.mem_cons, not_or]
    refine ⟨(Declaration.ne_paren_of_isWordChar hc).symm, fun hp => ?_⟩
    exact absurd (List.all_eq_true.1 hl _ hp) (by decide)

/-- The flags open no parenthesis. -/
theorem not_mem_text (layout : FlagLayout) (h : layout.WellFormed) : '(' ∉ layout.text := by
  cases layout with
  | short c => simp [text, (Declaration.ne_paren_of_isWordChar h).symm]
  | long l => simp [text, not_mem_of_isName h]
  | shortCommaLong c l | shortSpaceLong c l =>
    simp [text, (Declaration.ne_paren_of_isWordChar h.1).symm, not_mem_of_isName h.2]
  | longCommaShort l c =>
    simp [text, (Declaration.ne_paren_of_isWordChar h.2).symm, not_mem_of_isName h.1]

end FlagLayout

/-- A default in words, and the rest of the line. -/
structure DefaultNote where
  /-- Whether a colon follows the mark. -/
  colon : Bool
  value : List Char
  after : List Char

namespace DefaultNote

/-- What stands between the mark and the value. -/
def separator (a : DefaultNote) : List Char := if a.colon then [':', ' '] else [' ']

def text (a : DefaultNote) : List Char :=
  ' ' :: (Declaration.defaultMark ++ (a.separator ++ (a.value ++ ')' :: a.after)))

/-- The value is a word without a closing parenthesis, and there is no other mark. -/
structure WellFormed (a : DefaultNote) : Prop where
  ne_nil : a.value ≠ []
  chars : ∀ c ∈ a.value, Text.isBlank c = false ∧ c ≠ ')'
  value : ¬ Declaration.defaultMark <:+: a.value
  after : ¬ Declaration.defaultMark <:+: a.after

end DefaultNote

/-- The parts of an option line. -/
structure OptionLine where
  indent : List Char
  layout : FlagLayout
  placeholder : Option (List Char)
  description : Option (List Char)
  note : Option DefaultNote

/-! ## Flags at the start of a text -/

namespace Declaration

theorem read?_append_of_allBlank {gap : List Char} (h : Text.allBlank gap = true)
    (s : List Char) : read? (gap ++ s) = read? s := by
  simp only [read?, Text.trimStart_append_of_allBlank h]

theorem trimStart_dash (s : List Char) : Text.trimStart ('-' :: s) = '-' :: s := rfl

theorem shortFlag?_letter {c : Char} {t : List Char} (hc : Text.isWordChar c = true)
    (ht : endsFlag t = true) : shortFlag? ('-' :: c :: t) = some (c, placeholder? t) :=
  shortFlag?_eq_some_iff.2 ⟨c, t, rfl, hc, ht, rfl⟩

theorem longFlag?_letter {c : Char} (hc : Text.isWordChar c = true) (t : List Char) :
    longFlag? ('-' :: c :: t) = none := by
  rw [Option.eq_none_iff_forall_ne_some]
  intro x hx
  obtain ⟨d, u, hs, -⟩ := longFlag?_eq_some_iff.1 hx
  cases hs
  cases hc

theorem longFlag?_name {l t : List Char} (hl : Text.isName l = true)
    (ht : Text.Stops Text.isNameChar t) :
    longFlag? ('-' :: '-' :: (l ++ t)) = some (String.ofList l, placeholder? t) := by
  cases l with
  | nil => cases hl
  | cons c l =>
    obtain ⟨hc, hl⟩ := Bool.and_eq_true_iff.1 hl
    rw [List.all_eq_true] at hl
    refine longFlag?_eq_some_iff.2 ⟨c, l ++ t, rfl, hc, ?_⟩
    rw [Text.takeWhile_append_of_stops ht, Text.dropWhile_append_of_stops ht,
      List.takeWhile_eq_self_iff.2 hl, List.dropWhile_eq_nil_iff.2 hl, List.nil_append]

/-- The flags of every layout are read, with the placeholder behind them. -/
theorem heading?_layout {layout : FlagLayout} (h : layout.WellFormed) {t : List Char}
    {word : Option String} (hstop : Text.Stops Text.isNameChar t) (hends : endsFlag t = true)
    (hword : placeholder? t = (word, [])) :
    heading? (layout.text ++ t) = some (layout.flags, word) := by
  cases layout with
  | short c =>
    simp only [FlagLayout.text, List.cons_append, List.nil_append, heading?, read?, trimStart_dash,
      longFlag?_letter h, shortFlag?_letter h hends, hword]
    rfl
  | long l =>
    simp only [FlagLayout.text, List.cons_append, heading?, read?, trimStart_dash,
      longFlag?_name h hstop, hword]
    rfl
  | shortCommaLong c l =>
    have hends : endsFlag (',' :: ' ' :: '-' :: '-' :: (l ++ t)) = true := rfl
    have hshort := shortFlag?_letter h.1 hends
    have hskip : Text.trimStart (skipComma (',' :: ' ' :: '-' :: '-' :: (l ++ t))) =
        '-' :: '-' :: (l ++ t) := rfl
    simp only [FlagLayout.text, List.cons_append, heading?, read?, trimStart_dash,
      longFlag?_letter h.1, hshort, placeholder?_cons_of_ne (by decide : ',' ≠ ' '), hskip,
      longFlag?_name h.2 hstop, hword, Option.or_none, Option.map_some, FlagLayout.flags]
  | shortSpaceLong c l =>
    have hends : endsFlag (' ' :: '-' :: '-' :: (l ++ t)) = true := rfl
    have hshort := shortFlag?_letter h.1 hends
    have hplace : placeholder? (' ' :: '-' :: '-' :: (l ++ t)) =
        (none, ' ' :: '-' :: '-' :: (l ++ t)) := rfl
    have hskip : Text.trimStart (skipComma (' ' :: '-' :: '-' :: (l ++ t))) =
        '-' :: '-' :: (l ++ t) := rfl
    simp only [FlagLayout.text, List.cons_append, heading?, read?, trimStart_dash,
      longFlag?_letter h.1, hshort, hplace, hskip, longFlag?_name h.2 hstop, hword,
      Option.or_none, Option.map_some, FlagLayout.flags]
  | longCommaShort l c =>
    have hlong := longFlag?_name h.1
      (Text.stops_cons.2 (by decide) : Text.Stops Text.isNameChar (',' :: ' ' :: '-' :: c :: t))
    have hshort : shortAfterLong? (',' :: ' ' :: '-' :: c :: t) = some (c, placeholder? t) :=
      shortFlag?_letter h.2 hends
    simp only [FlagLayout.text, List.cons_append, List.append_assoc, List.nil_append, heading?,
      read?, trimStart_dash, hlong, placeholder?_cons_of_ne (by decide : ',' ≠ ' '), hshort, hword,
      Option.or_none, Option.map_some, FlagLayout.flags]

end Declaration

namespace OptionLine

def placeholderText (line : OptionLine) : List Char :=
  line.placeholder.elim [] fun word => ' ' :: word

/-- The description and the annotation, with the spaces before them. -/
def remarks (line : OptionLine) : List Char :=
  (line.description.elim [] fun text => ' ' :: ' ' :: text) ++
    line.note.elim [] DefaultNote.text

def text (line : OptionLine) : List Char :=
  line.indent ++ (line.layout.text ++ (line.placeholderText ++ line.remarks))

/-- What the line declares. -/
def declaration (line : OptionLine) : Declaration :=
  ⟨line.layout.flags, line.placeholder.map String.ofList,
    line.note.map fun a => String.ofList a.value⟩

structure WellFormed (line : OptionLine) : Prop where
  indent : Text.allBlank line.indent = true
  layout : line.layout.WellFormed
  placeholder : ∀ word ∈ line.placeholder, word ≠ [] ∧ ∀ c ∈ word, Text.isWordChar c = true
  description : ∀ text ∈ line.description,
    (∃ c s, text = c :: s ∧ Text.isBlank c = false ∧ c ≠ ',' ∧ c ≠ '-') ∧
      ¬ Declaration.defaultMark <:+: text
  note : ∀ a ∈ line.note, a.WellFormed

variable {line : OptionLine}

/-! ## Reading the heading -/

theorem placeholder?_placeholderText (h : line.WellFormed) :
    Declaration.placeholder? line.placeholderText =
      (line.placeholder.map String.ofList, []) := by
  unfold placeholderText
  cases hp : line.placeholder with
  | none => rfl
  | some word =>
    obtain ⟨hne, hword⟩ := h.placeholder word hp
    simp only [Option.elim_some, Declaration.placeholder?, List.takeWhile_eq_self_iff.2 hword,
      List.dropWhile_eq_nil_iff.2 hword]
    cases word with
    | nil => contradiction
    | cons c word => rfl

theorem stops_placeholderText : Text.Stops Text.isNameChar line.placeholderText := by
  unfold placeholderText
  cases line.placeholder with
  | none => exact Text.stops_nil _
  | some word => exact Text.stops_cons.2 (by decide)

theorem endsFlag_placeholderText : Declaration.endsFlag line.placeholderText = true := by
  unfold placeholderText
  cases line.placeholder <;> rfl

theorem heading?_before_remarks (h : line.WellFormed) :
    Declaration.heading? (line.indent ++ (line.layout.text ++ line.placeholderText)) =
      some (line.layout.flags, line.placeholder.map String.ofList) := by
  rw [Declaration.heading?, Declaration.read?_append_of_allBlank h.indent]
  exact Declaration.heading?_layout h.layout stops_placeholderText endsFlag_placeholderText
    (placeholder?_placeholderText h)

/-- The description and the default go on with no flag and no placeholder. -/
theorem alike_remarks (h : line.WellFormed) : Declaration.Alike line.remarks [] := by
  have hnil : Declaration.Plain [] := ⟨by simp, by simp, by simp [Text.trimStart]⟩
  unfold remarks
  cases hd : line.description with
  | some text =>
    obtain ⟨⟨c, s, rfl, hc, hcomma, hdash⟩, -⟩ := h.description text hd
    refine ⟨⟨?_, ?_, ?_⟩, hnil, rfl⟩
    · rintro _ ⟨⟩
      decide
    · rintro c s ⟨⟩
      decide
    · have htrim : ∀ t, Text.trimStart (' ' :: ' ' :: c :: t) = c :: t := by
        intro t
        show Text.trimStart (c :: t) = c :: t
        rw [Text.trimStart, List.dropWhile_cons_of_neg (by simp [hc])]
      simp only [Option.elim_some, List.cons_append, htrim]
      rintro _ ⟨⟩
      exact ⟨hdash, hcomma⟩
  | none =>
    cases line.note with
    | none => exact ⟨hnil, hnil, rfl⟩
    | some a =>
      refine ⟨⟨?_, ?_, ?_⟩, hnil, rfl⟩
      · rintro _ ⟨⟩
        decide
      · rintro c s ⟨⟩
        decide
      · rintro _ ⟨⟩
        decide

/-! ## Reading the default -/

theorem annotated?_note {a : DefaultNote} (h : a.WellFormed) :
    Declaration.annotated? (a.separator ++ (a.value ++ ')' :: a.after)) =
      some (String.ofList a.value) := by
  have hskip : ∀ t, Declaration.skipColon (a.separator ++ t) = ' ' :: t := by
    intro t
    unfold DefaultNote.separator
    cases a.colon <;> rfl
  have htrim : Text.trimStart (' ' :: (a.value ++ ')' :: a.after)) = a.value ++ ')' :: a.after := by
    show Text.trimStart (a.value ++ ')' :: a.after) = _
    obtain ⟨c, v, hv⟩ := List.exists_cons_of_ne_nil h.ne_nil
    have hc := (h.chars c (by simp [hv])).1
    rw [hv, List.cons_append, Text.trimStart, List.dropWhile_cons_of_neg (by simp [hc])]
  have hvalue : ∀ c ∈ a.value, Declaration.isValueChar c = true := by
    intro c hc
    simp [Declaration.isValueChar, h.chars c hc]
  have hclose : Text.Stops Declaration.isValueChar (')' :: a.after) :=
    Text.stops_cons.2 (by decide)
  rw [Declaration.annotated?_eq, hskip, htrim, Declaration.closedWord?,
    Text.takeWhile_append_of_stops hclose, Text.dropWhile_append_of_stops hclose,
    List.takeWhile_eq_self_iff.2 hvalue, List.dropWhile_eq_nil_iff.2 hvalue]
  exact (if_pos rfl).trans (if_pos ⟨h.ne_nil, rfl⟩)

theorem default?_note {a : DefaultNote} (h : a.WellFormed) (s : List Char) :
    Declaration.default? (s ++ a.text) = some (String.ofList a.value) := by
  -- No mark starts in the separator, none goes across the parenthesis, and none is behind it.
  have hlater : Text.afterLast? Declaration.defaultMark
      (a.separator ++ (a.value ++ ')' :: a.after)) = none := by
    have hseparator : '(' ∉ a.separator := by
      unfold DefaultNote.separator
      cases a.colon <;> decide
    have hskip : Text.afterLast? Declaration.defaultMark
        (a.separator ++ (a.value ++ ')' :: a.after)) =
          Text.afterLast? Declaration.defaultMark (a.value ++ ')' :: a.after) :=
      Text.afterLast?_append_of_not_mem hseparator
    rw [hskip, Text.afterLast?_append_cons (by decide) (by decide),
      Text.afterLast?_eq_none_iff.2 h.value, Text.afterLast?_eq_none_iff.2 h.after]
    rfl
  have hlast : Text.afterLast? Declaration.defaultMark (s ++ a.text) =
      some (a.separator ++ (a.value ++ ')' :: a.after)) := by
    refine (Text.afterLast?_eq_some_iff (by decide)).2
      ⟨s ++ [' '], ?_, Text.afterLast?_eq_none_iff.1 hlater⟩
    rw [List.append_assoc]
    rfl
  rw [Declaration.default?, hlast]
  exact annotated?_note h

/-- The heading of an option line opens no parenthesis. -/
theorem not_mem_heading (h : line.WellFormed) :
    '(' ∉ line.indent ++ (line.layout.text ++ line.placeholderText) := by
  have hindent : '(' ∉ line.indent := fun hp =>
    absurd (Text.allBlank_iff.1 h.indent _ hp) (by decide)
  have hplace : '(' ∉ line.placeholderText := by
    unfold placeholderText
    cases hp : line.placeholder with
    | none => exact List.not_mem_nil
    | some word =>
      have hword : '(' ∉ word := fun hw => absurd ((h.placeholder word hp).2 _ hw) (by decide)
      simp [hword]
  have hlayout := line.layout.not_mem_text h.layout
  simp [hindent, hplace, hlayout]

theorem default?_text (h : line.WellFormed) :
    Declaration.default? line.text = line.note.map fun a => String.ofList a.value := by
  have htext : line.text = line.indent ++ (line.layout.text ++ line.placeholderText) ++
      line.remarks := by simp [text]
  cases hnote : line.note with
  | some a =>
    rw [htext, remarks, hnote, ← List.append_assoc]
    exact default?_note (h.note a hnote) _
  | none =>
    have hpassed : Declaration.Passed line.text line.remarks := ⟨_, htext, not_mem_heading h⟩
    rw [Declaration.default?_of_passed hpassed, remarks, hnote, Option.elim_none, List.append_nil]
    cases hd : line.description with
    | none => rfl
    | some text =>
      have hpassed : Declaration.Passed (' ' :: ' ' :: text) text := ⟨[' ', ' '], rfl, by decide⟩
      rw [Option.elim_some, Declaration.default?_of_passed hpassed, Declaration.default?,
        Text.afterLast?_eq_none_iff.2 (h.description text hd).2]
      rfl

/-- **Reading an option line gives back what it was written from.** -/
theorem reads_back (h : line.WellFormed) :
    Declaration.read? line.text = some line.declaration ∧
      Declaration.startsWithFlag line.text = true := by
  have hheading : Declaration.heading? line.text =
      some (line.layout.flags, line.placeholder.map String.ofList) := by
    have happend := Declaration.heading?_append (alike_remarks h)
      (line.indent ++ (line.layout.text ++ line.placeholderText))
    rw [List.append_nil, heading?_before_remarks h] at happend
    simpa [text] using happend
  have hread : Declaration.read? line.text = some line.declaration := by
    rw [Declaration.read?_eq, hheading, default?_text h]
    rfl
  exact ⟨hread, Declaration.startsWithFlag_of_read? hread⟩

/-- A line with a dash in its long name, a parenthesis in its description and a word after the
default. -/
def dryRun : OptionLine where
  indent := "  ".toList
  layout := .longCommaShort "dry-run".toList 'n'
  placeholder := some "NUM".toList
  description := some "Rows (so far), -x".toList
  note := some ⟨true, "3".toList, " or (less)".toList⟩

theorem reads_back_dryRun :
    dryRun.text = "  --dry-run, -n NUM  Rows (so far), -x (default: 3) or (less)".toList ∧
      Declaration.read? dryRun.text = some ⟨.both 'n' "dry-run", some "NUM", some "3"⟩ ∧
      Declaration.startsWithFlag dryRun.text = true := by
  have hnote : DefaultNote.WellFormed ⟨true, "3".toList, " or (less)".toList⟩ :=
    ⟨by decide, List.forall_mem_singleton.2 (by decide), by decide, by decide⟩
  have hwell : dryRun.WellFormed := by
    refine ⟨by decide, ⟨by decide, by decide⟩, ?_, ?_, ?_⟩
    · rintro _ ⟨⟩
      exact ⟨by decide, List.all_eq_true.1 (by decide)⟩
    · rintro _ ⟨⟩
      exact ⟨⟨'R', _, rfl, by decide⟩, by decide⟩
    · rintro _ ⟨⟩
      exact hnote
  exact ⟨by decide +kernel, reads_back hwell⟩

end OptionLine

end Synopsis
