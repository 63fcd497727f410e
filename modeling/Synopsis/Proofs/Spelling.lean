import Synopsis.Proofs.Grammar

/-!
# Shorthands spelled out

Matching cuts an argument list into chunks and then writes the shorthands out, chunk by chunk.
The same comes out if every token is spelled out first (`Usage.spell`), each part of it at the
offset of the token, and the longer list is cut afterwards (`Chunk.cut_flatMap_spell`). So matching
puts its questions to the tokens alone (`Usage.fit_eq`), and chunks come in only at the last one.
-/

namespace Synopsis

/-! ## Tokens and texts -/

namespace Token

theorem getElem?_numberedFrom (offset : Nat) (texts : List String) (i : Nat) :
    (numberedFrom offset texts)[i]? = texts[i]?.map fun text => ⟨offset + i, text⟩ := by
  induction texts generalizing offset i with
  | nil => rfl
  | cons t texts ih =>
    rw [numberedFrom]
    cases i with
    | zero => rfl
    | succ i =>
      rw [List.getElem?_cons_succ, List.getElem?_cons_succ, ih, Nat.add_right_comm, Nat.add_assoc]

theorem getElem?_numbered (texts : List String) (i : Nat) :
    (numbered texts)[i]? = texts[i]?.map fun text => ⟨i, text⟩ := by
  rw [numbered, getElem?_numberedFrom, Nat.zero_add]

end Token

namespace Chunk

theorem isAlpha_of_group {text : String} {letters : List Char}
    (h : groupLetters? text = some letters) : ∀ c ∈ letters, c.isAlpha = true :=
  List.all_eq_true.1 (groupLetters?_eq_some_iff.1 h).2.2

theorem groupLetters?_of_isDigit {text : String} {digits : List Char}
    (h : numberDigits? text = some digits) : groupLetters? text = none := by
  rw [Option.eq_none_iff_forall_ne_some]
  intro letters hl
  obtain ⟨rfl, -, halpha⟩ := groupLetters?_eq_some_iff.1 hl
  rw [numberDigits?_of_isAlpha halpha] at h
  cases h

theorem groupLetters?_of_isValue {text : String} (h : IsValue text) :
    groupLetters? text = none := by
  rw [Option.eq_none_iff_forall_ne_some]
  intro letters hl
  obtain ⟨rfl, -⟩ := groupLetters?_eq_some_iff.1 hl
  simp [IsValue] at h

theorem numberDigits?_of_isValue {text : String} (h : IsValue text) :
    numberDigits? text = none := by
  rw [Option.eq_none_iff_forall_ne_some]
  intro digits hd
  obtain ⟨rfl, -⟩ := numberDigits?_eq_some_iff.1 hd
  simp [IsValue] at h

theorem groupLetters?_shortToken (c : Char) : groupLetters? (Flags.shortToken c) = none := by
  rw [Option.eq_none_iff_forall_ne_some]
  intro letters hl
  obtain ⟨htext, hlen, -⟩ := groupLetters?_eq_some_iff.1 hl
  rw [← ofList_dash_inj.1 htext] at hlen
  simp at hlen

theorem numberDigits?_shortToken {c : Char} (h : c.isAlpha = true) :
    numberDigits? (Flags.shortToken c) = none :=
  numberDigits?_of_isAlpha (by simpa using h)

end Chunk

theorem isValue_of_isDigit {digits : List Char} (h : digits.all Char.isDigit) :
    IsValue (String.ofList digits) := by
  rw [IsValue, String.toList_ofList]
  intro hhead
  have hdash := List.all_eq_true.1 h '-' (List.mem_of_head? hhead)
  simp at hdash

/-! ## Spelling out one token -/

namespace Usage

/-- The texts that a text stands for, with either shorthand spelled out. -/
def spell (usage : Usage) (text : String) : List String :=
  match Chunk.groupLetters? text with
  | some letters => letters.map Flags.shortToken
  | none =>
    match Chunk.numberDigits? text with
    | some digits =>
      if Chunk.numericAllowed usage then [Chunk.numericFlag, String.ofList digits] else [text]
    | none => [text]

/-- The text is a group, or a number where the usage allows numbers. -/
def IsShorthand (usage : Usage) (text : String) : Prop :=
  (Chunk.groupLetters? text).isSome ∨
    Chunk.numericAllowed usage ∧ (Chunk.numberDigits? text).isSome

instance (usage : Usage) (text : String) : Decidable (usage.IsShorthand text) :=
  inferInstanceAs (Decidable (_ ∨ _))

variable {usage : Usage} {text : String}

theorem spell_group {letters : List Char} (h : Chunk.groupLetters? text = some letters) :
    usage.spell text = letters.map Flags.shortToken := by
  rw [spell, h]

theorem spell_number {digits : List Char} (hn : Chunk.numericAllowed usage)
    (h : Chunk.numberDigits? text = some digits) :
    usage.spell text = [Chunk.numericFlag, String.ofList digits] := by
  simp only [spell, Chunk.groupLetters?_of_isDigit h, h, if_pos hn]

theorem spell_plain (h : ¬usage.IsShorthand text) : usage.spell text = [text] := by
  rw [IsShorthand, not_or, Option.not_isSome_iff_eq_none] at h
  obtain ⟨hl, hn⟩ := h
  simp only [spell, hl]
  split
  · next digits hd => rw [if_neg fun hallowed => hn ⟨hallowed, by simp [hd]⟩]
  · rfl

/-- A text is a group, a number or neither. -/
theorem spell_cases (usage : Usage) (text : String) :
    (∃ letters, Chunk.groupLetters? text = some letters) ∨
    (∃ digits, Chunk.numericAllowed usage ∧ Chunk.numberDigits? text = some digits) ∨
      ¬usage.IsShorthand text := by
  by_cases h : usage.IsShorthand text
  · rcases h with hl | ⟨hn, hd⟩
    · exact .inl (Option.isSome_iff_exists.1 hl)
    · obtain ⟨digits, hd⟩ := Option.isSome_iff_exists.1 hd
      exact .inr (.inl ⟨digits, hn, hd⟩)
  · exact .inr (.inr h)

theorem not_isShorthand_of_isValue (h : IsValue text) : ¬usage.IsShorthand text := by
  simp [IsShorthand, Chunk.groupLetters?_of_isValue h, Chunk.numberDigits?_of_isValue h]

theorem not_isShorthand_shortToken {c : Char} (h : c.isAlpha = true) :
    ¬usage.IsShorthand (Flags.shortToken c) := by
  simp [IsShorthand, Chunk.groupLetters?_shortToken, Chunk.numberDigits?_shortToken h]

/-- What a text is spelled out as needs no more spelling out. -/
theorem not_isShorthand_of_mem_spell {s : String} (hs : s ∈ usage.spell text) :
    ¬usage.IsShorthand s := by
  rcases usage.spell_cases text with ⟨letters, hl⟩ | ⟨digits, hn, hd⟩ | hplain
  · rw [spell_group hl, List.mem_map] at hs
    obtain ⟨c, hc, rfl⟩ := hs
    exact not_isShorthand_shortToken (Chunk.isAlpha_of_group hl c hc)
  · rw [spell_number hn hd, List.mem_pair] at hs
    rcases hs with rfl | rfl
    · exact not_isShorthand_shortToken (c := 'n') rfl
    · have hdigits := (Chunk.numberDigits?_eq_some_iff.1 hd).2.2
      exact not_isShorthand_of_isValue (isValue_of_isDigit hdigits)
  · rw [spell_plain hplain, List.mem_singleton] at hs
    rwa [hs]

end Usage

/-! ## Spelling out an argument list -/

/-- The tokens that a token stands for, all at its offset. -/
def Token.spell (usage : Usage) (t : Token) : List Token :=
  (usage.spell t.text).map fun text => ⟨t.offset, text⟩

namespace Token

variable {usage : Usage} {t : Token}

theorem spell_of_not_isShorthand (h : ¬usage.IsShorthand t.text) : t.spell usage = [t] := by
  rw [spell, Usage.spell_plain h]
  rfl

theorem not_isShorthand_of_mem_spell {s : Token} (hs : s ∈ t.spell usage) :
    ¬usage.IsShorthand s.text := by
  obtain ⟨text, htext, rfl⟩ := List.mem_map.1 hs
  exact Usage.not_isShorthand_of_mem_spell htext

/-- Spelling out twice is spelling out once. -/
theorem flatMap_spell_spell (usage : Usage) (t : Token) :
    (t.spell usage).flatMap (spell usage) = t.spell usage := by
  have hsame : ∀ s ∈ t.spell usage, s.spell usage = [s] :=
    fun s hs => spell_of_not_isShorthand (not_isShorthand_of_mem_spell hs)
  rw [List.flatMap_congr hsame, List.flatMap_singleton']

end Token

namespace Chunk

variable {usage : Usage}

theorem written_group {c : Chunk} {letters : List Char}
    (h : groupLetters? c.leader.text = some letters) :
    c.written usage = spread c.leader.offset c.values letters := by
  simp only [written, h]

theorem written_number {c : Chunk} {digits : List Char} (hn : numericAllowed usage)
    (h : numberDigits? c.leader.text = some digits) :
    c.written usage = [⟨⟨c.leader.offset, numericFlag⟩,
      ⟨c.leader.offset, String.ofList digits⟩ :: c.values⟩] := by
  simp only [written, groupLetters?_of_isDigit h, if_pos hn, expandNumber, h]

theorem written_plain {c : Chunk} (h : ¬usage.IsShorthand c.leader.text) :
    c.written usage = [c] := by
  rw [Usage.IsShorthand, not_or, Option.not_isSome_iff_eq_none] at h
  simp only [written, h.1, expandNumber]
  by_cases hn : numericAllowed usage
  · rw [if_pos hn, Option.not_isSome_iff_eq_none.1 fun hd => h.2 ⟨hn, hd⟩]
  · rw [if_neg hn]

/-- The letters of a group lead a chunk each, and the last takes the values. -/
theorem cut_letters {letters : List Char} (hne : letters ≠ []) (offset : Nat) (ts : List Token) :
    cut (letters.map (fun c => ⟨offset, Flags.shortToken c⟩) ++ ts) =
      ([], spread offset (cut ts).1 letters ++ (cut ts).2) := by
  have hdashed : ∀ c, (⟨offset, Flags.shortToken c⟩ : Token).isDashed = true := by
    intro c
    simp [Token.isDashed, Flags.shortToken]
  induction letters with
  | nil => exact absurd rfl hne
  | cons c letters ih =>
    rw [List.map_cons, List.cons_append, cut_cons_dashed (hdashed c)]
    cases letters with
    | nil => rfl
    | cons d rest =>
      rw [ih (List.cons_ne_nil d rest)]
      rfl

/-- **Spelling out commutes with cutting.** The chunks of the spelled-out list are those that the
chunks of the list stand for, and the leading values are the same. -/
theorem cut_flatMap_spell (usage : Usage) (ts : List Token) :
    cut (ts.flatMap (Token.spell usage)) = ((cut ts).1, (cut ts).2.flatMap (written usage)) := by
  induction ts with
  | nil => rfl
  | cons t ts ih =>
    rw [List.flatMap_cons]
    cases ht : t.isDashed with
    | false =>
      have hplain := usage.not_isShorthand_of_isValue (Token.isDashed_eq_false_iff.1 ht)
      rw [Token.spell_of_not_isShorthand hplain, List.singleton_append, cut_cons_value ht,
        cut_cons_value ht, ih]
    | true =>
      -- The token leads a chunk; its values are the leading values of what follows.
      rw [cut_cons_dashed ht, List.flatMap_cons]
      rcases usage.spell_cases t.text with ⟨letters, hl⟩ | ⟨digits, hn, hd⟩ | hplain
      · have hne : letters ≠ [] := by
          rintro rfl
          simpa using (groupLetters?_eq_some_iff.1 hl).2.1
        rw [Token.spell, Usage.spell_group hl, List.map_map]
        rw [written_group (c := ⟨t, (cut ts).1⟩) hl]
        simp only [Function.comp_def, cut_letters hne, ih]
      · -- The digits do not start with a dash, so they are the first value of `-n`.
        have hnumeric : (⟨t.offset, numericFlag⟩ : Token).isDashed = true := by
          simp [Token.isDashed, numericFlag]
        have hdigits : (⟨t.offset, String.ofList digits⟩ : Token).isDashed = false :=
          Token.isDashed_eq_false_iff.2
            (isValue_of_isDigit (numberDigits?_eq_some_iff.1 hd).2.2)
        rw [Token.spell, Usage.spell_number hn hd, List.map_cons, List.map_singleton,
          List.cons_append, List.singleton_append, cut_cons_dashed hnumeric,
          cut_cons_value hdigits, ih, written_number (c := ⟨t, (cut ts).1⟩) hn hd]
        rfl
      · rw [Token.spell_of_not_isShorthand hplain, List.singleton_append, cut_cons_dashed ht, ih]
        rw [written_plain (c := ⟨t, (cut ts).1⟩) hplain, List.singleton_append]

/-- A search among the leaders is a search among the tokens, if it passes over values. -/
theorem findSome?_leader_cut {β : Type} {f : Token → Option β}
    (hf : ∀ t : Token, t.isDashed = false → f t = none) (ts : List Token) :
    (cut ts).2.findSome? (fun c => f c.leader) = ts.findSome? f := by
  induction ts with
  | nil => rfl
  | cons t ts ih =>
    cases ht : t.isDashed with
    | false => rw [cut_cons_value ht, List.findSome?_cons, hf t ht, ih]
    | true => rw [cut_cons_dashed ht, List.findSome?_cons, List.findSome?_cons, ih]

end Chunk

/-! ## What is wrong with one token -/

namespace Usage

/-- The text starts with a dash, but it is no shorthand and no flag of the usage. -/
def Undeclared (usage : Usage) (text : String) : Prop :=
  ¬IsValue text ∧ ¬usage.IsShorthand text ∧ usage.option? text = none

instance (usage : Usage) (text : String) : Decidable (usage.Undeclared text) :=
  inferInstanceAs (Decidable (_ ∧ _ ∧ _))

/-- The text is a group, and one of its letters is not declared. -/
def UnknownGroup (usage : Usage) (text : String) : Prop :=
  ∃ letters, Chunk.groupLetters? text = some letters ∧
    ∃ letter ∈ letters, usage.option? (Flags.shortToken letter) = none

end Usage

namespace Token

/-- The failure of a group with an unknown letter. -/
def groupFault? (usage : Usage) (t : Token) : Option Failure :=
  (Chunk.groupLetters? t.text).bind fun letters =>
    (letters.find? fun letter => (usage.option? (Flags.shortToken letter)).isNone).map fun letter =>
      ⟨t.offset, .unknownShorthand letter t.text
        ((usage.option? ("-" ++ t.text)).map fun _ => "-" ++ t.text)⟩

/-- The failure of an unknown option. -/
def unknownFault? (usage : Usage) (t : Token) : Option Failure :=
  if usage.Undeclared t.text then some ⟨t.offset, .unknownOption t.text⟩ else none

variable {usage : Usage} {t : Token}

theorem groupFault?_eq_none_iff : t.groupFault? usage = none ↔ ¬usage.UnknownGroup t.text := by
  rw [groupFault?, Usage.UnknownGroup]
  cases Chunk.groupLetters? t.text with
  | none => simp
  | some letters => simp

theorem groupFault?_of_isDashed (h : t.isDashed = false) : t.groupFault? usage = none := by
  rw [groupFault?, Chunk.groupLetters?_of_isValue (isDashed_eq_false_iff.1 h), Option.bind_none]

theorem unknownFault?_of_isDashed (h : t.isDashed = false) : t.unknownFault? usage = none :=
  if_neg fun hu => hu.1 (isDashed_eq_false_iff.1 h)

theorem unknownFault?_of_isSome {text : String} (h : (usage.option? text).isSome) (offset : Nat) :
    (⟨offset, text⟩ : Token).unknownFault? usage = none := by
  refine if_neg fun hu => ?_
  rw [hu.2.2] at h
  cases h

/-- If its letters are all declared, a token is unknown exactly if a part of it is. -/
theorem findSome?_unknownFault?_spell (h : t.groupFault? usage = none) :
    (t.spell usage).findSome? (unknownFault? usage) = t.unknownFault? usage := by
  by_cases hs : usage.IsShorthand t.text
  · have hnone : t.unknownFault? usage = none := if_neg fun hu => hu.2.1 hs
    rw [hnone, List.findSome?_eq_none_iff]
    intro s hmem
    obtain ⟨text, htext, rfl⟩ := List.mem_map.1 hmem
    rcases usage.spell_cases t.text with ⟨letters, hl⟩ | ⟨digits, hn, hd⟩ | hplain
    · rw [Usage.spell_group hl, List.mem_map] at htext
      obtain ⟨c, hc, rfl⟩ := htext
      apply unknownFault?_of_isSome
      rw [Option.isSome_iff_ne_none]
      exact fun hno => groupFault?_eq_none_iff.1 h ⟨letters, hl, c, hc, hno⟩
    · rw [Usage.spell_number hn hd, List.mem_pair] at htext
      rcases htext with rfl | rfl
      · apply unknownFault?_of_isSome
        obtain ⟨o, ho, -⟩ := (Option.any_eq_true _ _).1 hn
        exact Option.isSome_of_mem ho
      · apply unknownFault?_of_isDashed
        exact isDashed_eq_false_iff.2
          (isValue_of_isDigit (Chunk.numberDigits?_eq_some_iff.1 hd).2.2)
    · exact absurd hs hplain
  · rw [spell_of_not_isShorthand hs, List.findSome?_singleton]

theorem findSome?_unknownFault?_flatMap_spell {ts : List Token}
    (h : ts.findSome? (groupFault? usage) = none) :
    (ts.flatMap (spell usage)).findSome? (unknownFault? usage) =
      ts.findSome? (unknownFault? usage) := by
  rw [List.findSome?_eq_none_iff] at h
  induction ts with
  | nil => rfl
  | cons t ts ih =>
    obtain ⟨ht, hts⟩ := List.forall_mem_cons.1 h
    rw [List.flatMap_cons, List.findSome?_append, findSome?_unknownFault?_spell ht, ih hts,
      List.findSome?_cons]
    cases t.unknownFault? usage <;> rfl

end Token

/-! ## Matching in terms of tokens -/

namespace Chunk

variable {usage : Usage}

theorem expandGroup_eq (usage : Usage) (c : Chunk) :
    expandGroup usage c =
      match c.leader.groupFault? usage with
      | some failure => .error failure
      | none => .ok c.ungrouped := by
  rw [expandGroup, Token.groupFault?, ungrouped]
  cases groupLetters? c.leader.text with
  | none => rfl
  | some letters =>
    dsimp only [Option.bind_some]
    cases letters.find? fun letter => (usage.option? (Flags.shortToken letter)).isNone <;> rfl

theorem expandGroups_eq (usage : Usage) (chunks : List Chunk) :
    expandGroups usage chunks =
      match chunks.findSome? fun c => c.leader.groupFault? usage with
      | some failure => .error failure
      | none => .ok (chunks.flatMap ungrouped) := by
  induction chunks with
  | nil => rfl
  | cons c chunks ih =>
    rw [expandGroups, expandGroup_eq, ih, List.findSome?_cons, List.flatMap_cons]
    cases c.leader.groupFault? usage with
    | some failure => rfl
    | none => cases chunks.findSome? fun c => c.leader.groupFault? usage <;> rfl

/-- The first chunk with an unknown leader gives the first failure of an unknown option. -/
theorem map_unknown? {cs : List Chunk} (hdashed : ∀ c ∈ cs, c.leader.isDashed = true)
    (hplain : ∀ c ∈ cs, ¬usage.IsShorthand c.leader.text) :
    (unknown? usage cs).map (fun c => ⟨c.leader.offset, .unknownOption c.leader.text⟩) =
      cs.findSome? fun c => c.leader.unknownFault? usage := by
  induction cs with
  | nil => rfl
  | cons c cs ih =>
    obtain ⟨hd, hdashed⟩ := List.forall_mem_cons.1 hdashed
    obtain ⟨hp, hplain⟩ := List.forall_mem_cons.1 hplain
    have hvalue : ¬IsValue c.leader.text := by
      rw [← Token.isDashed_eq_false_iff, hd]
      decide
    have ih := ih hdashed hplain
    rw [unknown?] at ih ⊢
    cases ho : usage.option? c.leader.text with
    | some o =>
      rw [List.find?_cons_of_neg (by simp [ho]), List.findSome?_cons,
        Token.unknownFault?, if_neg fun hu => by simp [hu.2.2] at ho, ih]
    | none =>
      rw [List.find?_cons_of_pos (by simp [ho]), List.findSome?_cons,
        Token.unknownFault?, if_pos ⟨hvalue, hp, ho⟩]
      rfl

end Chunk

namespace Usage

/-- The occurrences of options are found by two searches among the tokens, one after the other. -/
theorem occurrences_cut (usage : Usage) (ts : List Token) :
    usage.occurrences (Chunk.cut ts).2 =
      match ts.findSome? (Token.groupFault? usage) with
      | some failure => .error failure
      | none =>
        match ts.findSome? (Token.unknownFault? usage) with
        | some failure => .error failure
        | none => .ok (Chunk.cut (ts.flatMap (Token.spell usage))).2 := by
  rw [occurrences, Chunk.expandGroups_eq,
    Chunk.findSome?_leader_cut fun t => Token.groupFault?_of_isDashed]
  cases hg : ts.findSome? (Token.groupFault? usage) with
  | some failure => rfl
  | none =>
    have hspelled := Chunk.cut_flatMap_spell usage ts
    have hcs := Chunk.wellCut_cut (ts.flatMap (Token.spell usage))
    have hunknown : (Chunk.cut (ts.flatMap (Token.spell usage))).2.findSome?
        (fun c => c.leader.unknownFault? usage) = ts.findSome? (Token.unknownFault? usage) := by
      rw [Chunk.findSome?_leader_cut fun t => Token.unknownFault?_of_isDashed,
        Token.findSome?_unknownFault?_flatMap_spell hg]
    have hplain : ∀ c ∈ (Chunk.cut (ts.flatMap (Token.spell usage))).2,
        ¬usage.IsShorthand c.leader.text := by
      intro c hc
      have hleader := List.mem_map_of_mem (f := Chunk.leader) hc
      rw [Chunk.leaders_cut, List.mem_filter, List.mem_flatMap] at hleader
      obtain ⟨⟨t, -, hmem⟩, -⟩ := hleader
      exact Token.not_isShorthand_of_mem_spell hmem
    rw [← Chunk.map_unknown? (fun c hc => (hcs.2 c hc).leader) hplain] at hunknown
    simp only [Chunk.expandNumbers_flatMap_ungrouped, ← hunknown]
    rw [hspelled]
    cases Chunk.unknown? usage ((Chunk.cut ts).2.flatMap (Chunk.written usage)) <;> rfl

/-- Fit tokens that do not ask for help: is there a group with an unknown letter, is there an
unknown option, and does the spelled-out list resolve? `stop` is the number of tokens. -/
def fitTokens (usage : Usage) (ts : List Token) (stop : Nat) : Except Failure Outcome :=
  match ts.findSome? (Token.groupFault? usage) with
  | some failure => .error failure
  | none =>
    match ts.findSome? (Token.unknownFault? usage) with
    | some failure => .error failure
    | none =>
      let spelled := Chunk.cut (ts.flatMap (Token.spell usage))
      (usage.complete spelled.1 spelled.2 stop).map .complete

/-- **Matching puts its questions to the tokens.** -/
theorem fit_eq (usage : Usage) (texts : List String) :
    usage.fit texts =
      if "-h" ∈ texts ∨ "--help" ∈ texts then .ok (.showUsage usage.message)
      else usage.fitTokens (Token.numbered texts) texts.length := by
  rw [fit]
  dsimp only
  by_cases hhelp : "-h" ∈ texts ∨ "--help" ∈ texts
  · rw [if_pos hhelp, if_pos ((Chunk.any_asksHelp_cut texts).2 hhelp)]
  · rw [if_neg hhelp, if_neg fun h => hhelp ((Chunk.any_asksHelp_cut texts).1 h),
      occurrences_cut, fitTokens]
    cases (Token.numbered texts).findSome? (Token.groupFault? usage) with
    | some failure => rfl
    | none =>
      cases (Token.numbered texts).findSome? (Token.unknownFault? usage) with
      | some failure => rfl
      | none =>
        dsimp only
        rw [Chunk.cut_flatMap_spell]

end Usage

end Synopsis
