import Synopsis.Proofs.Declarations
import Synopsis.Proofs.OpenNames
import Synopsis.Proofs.UsageLine

/-!
# The help message is a usage text

The help message is the text with the program's name filled in and the blanks at its end cut off.
Reading it gives the same usage again, for two reasons.

* Nothing that is read from a line depends on the blanks at its end, whatever they cut short: a
  token, a placeholder or an annotation (`Usage.read_trimEnd`).
* The name that is filled in on the usage line becomes the first token there, and is neither a flag
  nor part of a default (`Usage.read_substitute`).
-/

namespace Synopsis

/-! ## Blanks at the end of a line -/

namespace UsageLine

/-- What a word goes on with: all but blanks. -/
def isInWord (c : Char) : Bool := !Text.isBlank c

theorem stops_isInWord_of_allBlank {gap : List Char} (h : Text.allBlank gap = true) :
    Text.Stops isInWord gap := by
  intro c hc
  simp [isInWord, Text.allBlank_iff.1 h c (List.mem_of_mem_head? hc)]

theorem cut_group {u : List Char} (h : ']' ∉ u) (v : List Char) :
    cut '[' (u ++ ']' :: v) = (u ++ [']'], v) := by
  have hu : ∀ d ∈ u, (d != ']') = true := by
    intro d hd
    exact bne_iff_ne.2 fun heq => h (heq ▸ hd)
  have hstop : Text.Stops (· != ']') (']' :: v) := Text.stops_cons.2 (by decide)
  rw [cut, if_pos ⟨rfl, by simp⟩, Text.takeWhile_append_of_stops hstop,
    Text.dropWhile_append_of_stops hstop, List.takeWhile_eq_self_iff.2 hu,
    List.dropWhile_eq_nil_iff.2 hu]
  rfl

theorem cut_word {c : Char} {s : List Char} (h : ¬ (c = '[' ∧ ']' ∈ s)) :
    cut c s = (s.takeWhile isInWord, s.dropWhile isInWord) :=
  if_neg h

/-- Cutting off a token loses nothing. -/
theorem cut_fst_append_snd (c : Char) (s : List Char) : (cut c s).1 ++ (cut c s).2 = s := by
  by_cases hgroup : c = '[' ∧ ']' ∈ s
  · obtain ⟨rfl, hmem⟩ := hgroup
    obtain ⟨u, v, rfl, hu⟩ := List.eq_append_cons_of_mem hmem
    simp [cut_group hu]
  · rw [cut_word hgroup, List.takeWhile_append_dropWhile]

theorem cut_append {gap : List Char} (h : Text.allBlank gap = true) (c : Char) (s : List Char) :
    cut c (s ++ gap) = ((cut c s).1, (cut c s).2 ++ gap) := by
  have hgap : ']' ∉ gap := fun hmem => absurd (Text.allBlank_iff.1 h _ hmem) (by decide)
  by_cases hgroup : c = '[' ∧ ']' ∈ s
  · obtain ⟨rfl, hmem⟩ := hgroup
    obtain ⟨u, v, rfl, hu⟩ := List.eq_append_cons_of_mem hmem
    rw [List.append_assoc, List.cons_append, cut_group hu, cut_group hu]
  · have hword : ¬ (c = '[' ∧ ']' ∈ s ++ gap) := by simpa [hgap] using hgroup
    have hstop := stops_isInWord_of_allBlank h
    rw [cut_word hgroup, cut_word hword, Text.takeWhile_append_of_stops hstop,
      Text.dropWhile_append_of_stops hstop]

theorem tokens_of_trimStart {line s : List Char} {c : Char} (h : Text.trimStart line = c :: s) :
    tokens line = (c :: (cut c s).1) :: tokens (cut c s).2 := by
  rw [tokens]
  split
  · next hnil =>
    rw [h] at hnil
    cases hnil
  · next hcons =>
    rw [h] at hcons
    cases hcons
    rfl

theorem tokens_of_allBlank {line : List Char} (h : Text.allBlank line = true) :
    tokens line = [] := by
  rw [tokens]
  split
  · rfl
  · next hcons =>
    rw [Text.trimStart_eq_nil_iff.2 h] at hcons
    cases hcons

/-- The first token of a line stands there as it is. -/
theorem exists_of_tokens {line token : List Char} {rest : List (List Char)}
    (h : tokens line = token :: rest) : ∃ gap s, line = gap ++ (token ++ s) := by
  obtain ⟨gap, -, hline⟩ := Text.exists_trimStart line
  cases htrim : Text.trimStart line with
  | nil =>
    rw [tokens_of_allBlank (Text.trimStart_eq_nil_iff.1 htrim)] at h
    cases h
  | cons c s =>
    rw [tokens_of_trimStart htrim] at h
    obtain ⟨rfl, -⟩ := List.cons.inj h
    refine ⟨gap, (cut c s).2, ?_⟩
    rw [List.cons_append, cut_fst_append_snd, ← htrim]
    exact hline

theorem tokens_append {gap : List Char} (h : Text.allBlank gap = true) (line : List Char) :
    tokens (line ++ gap) = tokens line := by
  induction line using tokens.induct with
  | case1 line hnil =>
    have hline := Text.trimStart_eq_nil_iff.1 hnil
    rw [tokens_of_allBlank hline, tokens_of_allBlank]
    rw [Text.allBlank, List.all_append]
    exact Bool.and_eq_true_iff.2 ⟨hline, h⟩
  | case2 line c s hcons _ ih =>
    have happend : Text.trimStart (line ++ gap) = c :: (s ++ gap) := by
      rw [Text.trimStart_append_of_ne_nil (by simp [hcons]), hcons, List.cons_append]
    rw [tokens_of_trimStart hcons, tokens_of_trimStart happend, cut_append h, ih]

end UsageLine

namespace Declaration

theorem plain_of_allBlank {gap : List Char} (h : Text.allBlank gap = true) : Plain gap := by
  have hgap := Text.allBlank_iff.1 h
  have hword : ∀ c ∈ gap, Text.isWordChar c = false := by
    intro c hc
    rw [← Bool.not_eq_true]
    intro hw
    exact absurd (hgap c hc) (by simp [Text.isBlank_of_isWordChar hw])
  refine ⟨fun c hc => hword c (List.mem_of_mem_head? hc), ?_, ?_⟩
  · rintro c s rfl
    exact hword c (by simp)
  · rw [Text.trimStart_eq_nil_iff.2 h]
    exact nofun

theorem alike_of_allBlank {gap : List Char} (h : Text.allBlank gap = true) : Alike gap [] := by
  refine ⟨plain_of_allBlank h, plain_of_allBlank rfl, ?_⟩
  cases gap with
  | nil => rfl
  | cons c gap => simp [endsFlag, Text.allBlank_iff.1 h c (by simp)]

theorem unclosing_of_allBlank {gap : List Char} (h : Text.allBlank gap = true) :
    Unclosing gap := by
  have hgap := Text.allBlank_iff.1 h
  refine ⟨?_, ?_, ?_⟩
  · intro hhead
    exact absurd (hgap _ (List.mem_of_mem_head? hhead)) (by decide)
  · rw [Text.trimStart_eq_nil_iff.2 h]
    exact nofun
  · intro hhead
    have hmem := (List.dropWhile_suffix isValueChar).subset (List.mem_of_mem_head? hhead)
    exact absurd (hgap _ hmem) (by decide)

/-- Blanks at the end of a declaration cut neither its heading nor its default short. -/
theorem read?_append_gap {gap : List Char} (h : Text.allBlank gap = true) (s : List Char) :
    read? (s ++ gap) = read? s := by
  have hheading := heading?_append (alike_of_allBlank h) s
  rw [List.append_nil] at hheading
  have hdefault : default? (s ++ gap) = default? s := by
    cases gap with
    | nil => rw [List.append_nil]
    | cons c gap =>
      obtain ⟨hc, hgap⟩ := List.forall_mem_cons.1 (Text.allBlank_iff.1 h)
      refine default?_append_cons ?_ ?_ (unclosing_of_allBlank h) s
      · intro hmem
        have hmark : ∀ d ∈ defaultMark, (!Text.isBlank d) = true := List.all_eq_true.1 (by decide)
        exact absurd hc (by simpa using hmark c hmem)
      · rw [Text.afterLast?_eq_none_iff]
        intro hmark
        exact absurd (hgap '(' (hmark.subset (by decide))) (by decide)
  rw [read?_eq, read?_eq, hheading, hdefault]

theorem read?_trimEnd (s : List Char) : read? (Text.trimEnd s) = read? s := by
  obtain ⟨gap, hgap, hs⟩ := Text.exists_trimEnd s
  conv_rhs => rw [hs]
  exact (read?_append_gap hgap _).symm

end Declaration

namespace Usage

/-- The tokens behind the marker, if the line has one. -/
def tokensOn? (line : List Char) : Option (List (List Char)) :=
  (Text.afterFirst? marker line).map UsageLine.tokens

theorem tokensOn?_trimEnd (line : List Char) : tokensOn? (Text.trimEnd line) = tokensOn? line := by
  obtain ⟨gap, hgap, hline⟩ := Text.exists_trimEnd line
  conv_rhs => rw [hline]
  cases gap with
  | nil => rw [List.append_nil]
  | cons c gap =>
    obtain ⟨hc, hblank⟩ := List.forall_mem_cons.1 (Text.allBlank_iff.1 hgap)
    have hmarker : ∀ d ∈ marker, (!Text.isBlank d) = true := List.all_eq_true.1 (by decide)
    have hnotin : c ∉ marker := fun hmem => absurd hc (by simpa using hmarker c hmem)
    have hnone : Text.afterFirst? marker gap = none := by
      rw [Text.afterFirst?_eq_none_iff]
      intro hmark
      exact absurd (hblank 'U' (hmark.subset (by decide))) (by decide)
    rw [tokensOn?, tokensOn?, Text.afterFirst?_append_cons (by decide) hnotin, hnone,
      Option.or_none, Option.map_map]
    congr 1
    funext tail
    exact (UsageLine.tokens_append hgap tail).symm

theorem lineTokens?_eq (lines : List (List Char)) :
    lineTokens? lines = (lines.filterMap tokensOn?).head? := by
  rw [List.head?_filterMap]
  exact List.map_findSome?

theorem listedDeclarations_eq (lines : List (List Char)) :
    listedDeclarations lines = lines.filterMap Declaration.read? := by
  rw [listedDeclarations, List.filterMap_filter]
  congr 1
  funext line
  cases hread : Declaration.read? line with
  | none => exact ite_self _
  | some d => exact if_pos (Declaration.startsWithFlag_of_read? hread)

/-- What is read line by line does not depend on the blanks at the end of the text: they go on with
its last line and add blank lines. -/
theorem filterMap_lines_trimEnd {α : Type} {f : List Char → Option α} (hnil : f [] = none)
    (hf : ∀ line, f (Text.trimEnd line) = f line) (s : List Char) :
    (Text.lines (Text.trimEnd s)).filterMap f = (Text.lines s).filterMap f := by
  have hmap : ∀ lines : List (List Char),
      lines.filterMap f = (lines.map Text.trimEnd).filterMap f := by
    intro lines
    rw [List.filterMap_map]
    congr 1
    funext line
    exact (hf line).symm
  obtain ⟨gap, hgap, hs⟩ := Text.exists_trimEnd s
  obtain ⟨k, hk⟩ := Text.map_trimEnd_lines_append hgap (Text.trimEnd s)
  rw [← hs] at hk
  rw [hmap, hmap (Text.lines s), hk, List.filterMap_append, List.filterMap_replicate_of_none hnil,
    List.append_nil]

theorem lineTokens?_trimEnd (s : List Char) :
    lineTokens? (Text.lines (Text.trimEnd s)) = lineTokens? (Text.lines s) := by
  rw [lineTokens?_eq, lineTokens?_eq, filterMap_lines_trimEnd rfl tokensOn?_trimEnd]

theorem listedDeclarations_trimEnd (s : List Char) :
    listedDeclarations (Text.lines (Text.trimEnd s)) = listedDeclarations (Text.lines s) := by
  rw [listedDeclarations_eq, listedDeclarations_eq,
    filterMap_lines_trimEnd rfl Declaration.read?_trimEnd]

/-! ## The usage line with a name filled in -/

variable {gap word s : List Char}

theorem tokens_filling (hgap : Text.allBlank gap = true) (hword : Filling word)
    (hs : Text.Stops UsageLine.isInWord s) :
    UsageLine.tokens (gap ++ (word ++ s)) = word :: UsageLine.tokens s := by
  have hin : ∀ c ∈ word, UsageLine.isInWord c = true := by
    intro c hc
    simp [UsageLine.isInWord, (hword.chars c hc).1]
  obtain ⟨c, w, rfl⟩ := List.exists_cons_of_ne_nil hword.ne_nil
  obtain ⟨hc, hw⟩ := List.forall_mem_cons.1 hin
  have htrim : Text.trimStart (gap ++ (c :: w ++ s)) = c :: (w ++ s) := by
    rw [Text.trimStart_append_of_allBlank hgap, List.cons_append, Text.trimStart,
      List.dropWhile_cons_of_neg]
    simpa [UsageLine.isInWord] using hc
  have hopen : ¬ (c = '[' ∧ ']' ∈ w ++ s) := fun h => hword.head (congrArg some h.1)
  rw [UsageLine.tokens_of_trimStart htrim, UsageLine.cut_word hopen,
    Text.takeWhile_append_of_stops hs, Text.dropWhile_append_of_stops hs,
    List.takeWhile_eq_self_iff.2 hw, List.dropWhile_eq_nil_iff.2 hw, List.nil_append]

/-- The first token is `$0` only if it stands there, after blanks at most. -/
theorem exists_of_tokens_eq {tail : List Char} {rest : List (List Char)}
    (h : UsageLine.tokens tail = programToken :: rest) :
    ∃ gap s, Text.allBlank gap = true ∧ tail = gap ++ (programToken ++ s) ∧
      Text.Stops UsageLine.isInWord s ∧ UsageLine.tokens s = rest := by
  obtain ⟨gap, hgap, htail⟩ := Text.exists_trimStart tail
  cases htrim : Text.trimStart tail with
  | nil =>
    rw [UsageLine.tokens_of_allBlank (Text.trimStart_eq_nil_iff.1 htrim)] at h
    cases h
  | cons c t =>
    rw [UsageLine.tokens_of_trimStart htrim] at h
    obtain ⟨hfirst, hrest⟩ := List.cons.inj h
    obtain ⟨rfl, hzero⟩ := List.cons.inj hfirst
    rw [UsageLine.cut_word (by simp)] at hzero hrest
    refine ⟨gap, t.dropWhile UsageLine.isInWord, hgap, ?_, Text.stops_dropWhile _ t, hrest⟩
    have ht : t = ['0'] ++ t.dropWhile UsageLine.isInWord := by
      rw [← hzero, List.takeWhile_append_dropWhile]
    rw [htail, htrim]
    conv_lhs => rw [ht]
    rfl

theorem head?_dropWhile_isValueChar {t : List Char} (h : Text.Stops UsageLine.isInWord t) :
    (t.dropWhile Declaration.isValueChar).head? ≠ some ')' := by
  cases t with
  | nil => exact nofun
  | cons c t =>
    have hc : Text.isBlank c = true := by simpa [UsageLine.isInWord] using h c rfl
    rw [List.dropWhile_cons_of_neg (by simp [Declaration.isValueChar, hc])]
    rintro ⟨⟩
    cases hc

/-- The name on the usage line closes no default that is opened before it. -/
theorem unclosing_filling (hgap : Text.allBlank gap = true) (hword : Filling word)
    (hs : Text.Stops UsageLine.isInWord s) :
    Declaration.Unclosing (marker ++ (gap ++ (word ++ s))) := by
  have hmarker : ∀ c ∈ marker, Declaration.isValueChar c = true := List.all_eq_true.1 (by decide)
  have hvalue : ∀ c ∈ word, Declaration.isValueChar c = true := by
    intro c hc
    simp [Declaration.isValueChar, hword.chars c hc]
  have hrest : ((marker ++ (gap ++ (word ++ s))).dropWhile Declaration.isValueChar).head? ≠
      some ')' := by
    rw [List.dropWhile_append_of_pos hmarker]
    cases gap with
    | nil =>
      rw [List.nil_append, List.dropWhile_append_of_pos hvalue]
      exact head?_dropWhile_isValueChar hs
    | cons c gap =>
      apply head?_dropWhile_isValueChar
      exact Text.stops_cons.2 (UsageLine.stops_isInWord_of_allBlank hgap c rfl)
  exact ⟨nofun, hrest, hrest⟩

/-- A default before the marker is not touched by the rest of the line, if that has no mark. -/
theorem default?_before_filling (hgap : Text.allBlank gap = true) (hword : Filling word)
    (hs : Text.Stops UsageLine.isInWord s)
    (hnone : Text.afterLast? Declaration.defaultMark s = none) (lead : List Char) :
    Declaration.default? (lead ++ (marker ++ (gap ++ (word ++ s)))) =
      Declaration.default? lead := by
  have hpre : '(' ∉ marker.tail ++ (gap ++ word) := by
    have hmarker : '(' ∉ marker.tail := by decide
    have hblank : '(' ∉ gap := fun h => absurd (Text.allBlank_iff.1 hgap _ h) (by decide)
    have hname : '(' ∉ word := fun h => (hword.chars _ h).2.1 rfl
    rw [List.mem_append, List.mem_append]
    exact not_or.2 ⟨hmarker, not_or.2 ⟨hblank, hname⟩⟩
  have hskip : Text.afterLast? Declaration.defaultMark (marker.tail ++ (gap ++ word) ++ s) =
      Text.afterLast? Declaration.defaultMark s :=
    Text.afterLast?_append_of_not_mem hpre
  rw [hnone, List.append_assoc, List.append_assoc] at hskip
  exact Declaration.default?_append_cons (by decide) hskip (unclosing_filling hgap hword hs) lead

/-- The name on the usage line has no part in a default. -/
theorem default?_filling {v w lead : List Char} (hgap : Text.allBlank gap = true)
    (hv : Filling v) (hw : Filling w) (hs : Text.Stops UsageLine.isInWord s) :
    Declaration.default? (lead ++ (marker ++ (gap ++ (v ++ s)))) =
      Declaration.default? (lead ++ (marker ++ (gap ++ (w ++ s)))) := by
  cases hlast : Text.afterLast? Declaration.defaultMark s with
  | none =>
    rw [default?_before_filling hgap hv hs hlast, default?_before_filling hgap hw hs hlast]
  | some rest =>
    -- The last mark is behind the name, whatever precedes it.
    have hafter : ∀ pre, Text.afterLast? Declaration.defaultMark (pre ++ s) = some rest := by
      intro pre
      obtain ⟨t, rfl, hrest⟩ := (Text.afterLast?_eq_some_iff (by decide)).1 hlast
      exact (Text.afterLast?_eq_some_iff (by decide)).2 ⟨pre ++ t, by simp, hrest⟩
    have hv := hafter (lead ++ (marker ++ (gap ++ v)))
    have hw := hafter (lead ++ (marker ++ (gap ++ w)))
    simp only [List.append_assoc] at hv hw
    rw [Declaration.default?, Declaration.default?, hv, hw]

/-- Whether a line declares an option does not depend on the name behind the marker. -/
theorem read?_filling {v w lead : List Char} (hgap : Text.allBlank gap = true)
    (hv : Filling v) (hw : Filling w) (hs : Text.Stops UsageLine.isInWord s) :
    Declaration.read? (lead ++ (marker ++ (gap ++ (v ++ s)))) =
      Declaration.read? (lead ++ (marker ++ (gap ++ (w ++ s)))) := by
  have hplain : ∀ t, Declaration.Plain (':' :: t) := by
    intro t
    refine ⟨?_, ?_, ?_⟩
    · rintro _ ⟨⟩
      decide
    · rintro c s ⟨⟩
    · rintro _ ⟨⟩
      decide
  have hmarker : ∀ t, lead ++ (marker ++ t) = (lead ++ ['U', 's', 'a', 'g', 'e']) ++ ':' :: t := by
    intro t
    rw [List.append_assoc]
    rfl
  have hheading : ∀ t u, Declaration.heading? (lead ++ (marker ++ t)) =
      Declaration.heading? (lead ++ (marker ++ u)) := by
    intro t u
    rw [hmarker, hmarker]
    exact Declaration.heading?_append ⟨hplain t, hplain u, rfl⟩ _
  rw [Declaration.read?_eq, Declaration.read?_eq, hheading, default?_filling hgap hv hw hs]

/-! ## Texts with one name left open -/

theorem getLast?_before_name (hgap : Text.allBlank gap = true) (lead : List Char) :
    (lead ++ (marker ++ gap)).getLast? ≠ some '$' := by
  rw [List.getLast?_append, List.getLast?_append]
  cases hlast : gap.getLast? with
  | none => exact nofun
  | some c =>
    rintro ⟨⟩
    exact absurd (Text.allBlank_iff.1 hgap _ (List.mem_of_getLast? hlast)) (by decide)

/-- A text around the program's name, if that is the only one left open. Its lines are the same
whatever word is filled in, and leave no further name open. -/
structure Around (text : List Char) where
  before : List (List Char)
  lead : List Char
  gap : List Char
  tail : List Char
  after : List (List Char)
  unmarked_before : ∀ line ∈ before, ¬ marker <:+: line
  unmarked_lead : ¬ marker <:+: lead
  blank_gap : Text.allBlank gap = true
  stops_tail : Text.Stops UsageLine.isInWord tail
  lines_eq : ∀ word, Filling word → Text.lines (substitute word text) =
    before ++ (lead ++ (marker ++ gap) ++ (word ++ tail)) :: after
  closed_before : openingsIn before = 0
  closed_lead : openings (lead ++ (marker ++ gap)) = 0
  closed_tail : openings tail = 0
  closed_after : openingsIn after = 0

theorem exists_around {text : String} {rest : List (List Char)}
    (hopen : openings text.toList = 1) (hline : HasUsageLine text programToken rest) :
    ∃ around : Around text.toList, UsageLine.tokens around.tail = rest := by
  obtain ⟨before, lead, behind, after, hlines, hbefore, hlead, htokens⟩ := hline
  obtain ⟨gap, tail, hgap, rfl, htail, hrest⟩ := exists_of_tokens_eq htokens
  have hlast := getLast?_before_name hgap lead
  have hsplit : lead ++ (marker ++ (gap ++ (programToken ++ tail))) =
      lead ++ (marker ++ gap) ++ (programToken ++ tail) := by simp
  rw [hsplit] at hlines
  -- Each line has its share in the one name that is left open, and the usage line has it all.
  rw [openings_eq_openingsIn, hlines, openingsIn_append, openingsIn, openings_append hlast,
    openings_programToken] at hopen
  refine ⟨⟨before, lead, gap, tail, after, hbefore, hlead, hgap, htail, ?_, ?_, ?_, ?_, ?_⟩, hrest⟩
  · intro word hword
    rw [lines_substitute hword, hlines, List.map_append, List.map_cons,
      map_substitute_eq_self (by omega), map_substitute_eq_self (by omega),
      substitute_append hlast, substitute_programToken, substitute_eq_self (by omega),
      substitute_eq_self (by omega)]
  all_goals omega

namespace Around

variable {text : List Char}

theorem hasUsageLine (around : Around text) (hword : Filling word) :
    HasUsageLine (String.ofList (substitute word text)) word (UsageLine.tokens around.tail) := by
  refine ⟨around.before, around.lead, around.gap ++ (word ++ around.tail), around.after, ?_,
    around.unmarked_before, around.unmarked_lead, ?_⟩
  · simp [around.lines_eq word hword]
  · exact tokens_filling around.blank_gap hword around.stops_tail

theorem listedDeclarations_eq (around : Around text) {v w : List Char} (hv : Filling v)
    (hw : Filling w) :
    listedDeclarations (Text.lines (substitute v text)) =
      listedDeclarations (Text.lines (substitute w text)) := by
  have hread := @read?_filling _ _ _ _ around.lead around.blank_gap hv hw around.stops_tail
  simp only [Usage.listedDeclarations_eq, around.lines_eq v hv, around.lines_eq w hw,
    List.filterMap_append, List.filterMap_cons, List.append_assoc, hread]

theorem openings_eq_zero (around : Around text) (hword : Filling word) (hclosed : '$' ∉ word) :
    openings (substitute word text) = 0 := by
  have hzero : openings word = 0 :=
    openings_eq_zero_iff.2 fun hi => hclosed (hi.subset (by decide))
  rw [openings_eq_openingsIn, around.lines_eq word hword, openingsIn_append, openingsIn,
    openings_append (getLast?_before_name around.blank_gap around.lead),
    openings_append (fun hlast => hclosed (List.mem_of_getLast? hlast)), around.closed_before,
    around.closed_lead, hzero, around.closed_tail, around.closed_after]

end Around

/-! ## Reading the help message -/

theorem assemble_congr {program : String} {t u : List Char} (es : List UsageLine.Element)
    (hdeclarations : listedDeclarations (Text.lines t) = listedDeclarations (Text.lines u))
    (hhelp : helpText program.toList t = helpText program.toList u) :
    assemble program t es = assemble program u es := by
  rw [assemble, assemble, hdeclarations, hhelp]

theorem openings_token {text : String} {token : List Char} {rest : List (List Char)}
    (h : openings text.toList = 0) (hline : HasUsageLine text token rest) :
    openings token = 0 := by
  obtain ⟨before, lead, tail, after, hlines, -, -, htokens⟩ := hline
  obtain ⟨gap, t, htail⟩ := UsageLine.exists_of_tokens htokens
  have hzero : openings (lead ++ (marker ++ tail)) = 0 := by
    rw [openings_eq_openingsIn, hlines] at h
    exact openings_eq_zero_of_mem h (by simp)
  rw [openings_eq_zero_iff] at hzero ⊢
  exact fun hopen => hzero (hopen.trans ⟨lead ++ (marker ++ gap), t, by simp [htail]⟩)

theorem programToken_ne_of_openings {text : String} {token : List Char} {rest : List (List Char)}
    (h : openings text.toList = 0) (hline : HasUsageLine text token rest) :
    token ≠ programToken := by
  rintro rfl
  cases openings_token h hline

/-- If no name is left open, it does not matter which one is given, and the blanks at the end of
the text do not matter either. -/
theorem read_trimEnd {text : String} (h : openings text.toList = 0) (given given' : Option String) :
    read given (String.ofList (Text.trimEnd text.toList)) = read given' text := by
  have htokens := lineTokens?_trimEnd text.toList
  have hdeclarations := listedDeclarations_trimEnd text.toList
  have hhelp : ∀ program : String, helpText program.toList (Text.trimEnd text.toList) =
      helpText program.toList text.toList := by
    intro program
    rw [helpText, helpText, substitute_eq_self h, substitute_eq_self (openings_trimEnd h),
      Text.trimEnd_trimEnd]
  rw [read, read, String.toList_ofList, htokens]
  cases hline : lineTokens? (Text.lines text.toList) with
  | none => rfl
  | some tokens =>
    cases tokens with
    | nil => rfl
    | cons token rest =>
      have hne := programToken_ne_of_openings h (lineTokens?_eq_some_iff.1 hline)
      have hname : ∀ given, programName given token = String.ofList token := by
        intro given
        cases given with
        | none => rfl
        | some program => exact if_neg hne
      simp only [hname, assemble_congr _ hdeclarations (hhelp _)]

theorem read_substitute {text program : String} {rest : List (List Char)}
    (hopen : openings text.toList = 1) (hline : HasUsageLine text programToken rest)
    (hprogram : Filling program.toList) (hclosed : '$' ∉ program.toList) :
    openings (substitute program.toList text.toList) = 0 ∧
    read (some program) (String.ofList (substitute program.toList text.toList)) =
      read (some program) text := by
  obtain ⟨around, rfl⟩ := exists_around hopen hline
  have hzero := around.openings_eq_zero hprogram hclosed
  have hname : programName (some program) program.toList = program := by simp [programName]
  have hopened : programName (some program) programToken = program := rfl
  have hdeclarations := around.listedDeclarations_eq hprogram filling_programToken
  rw [substitute_programToken_self] at hdeclarations
  have hhelp : helpText program.toList (substitute program.toList text.toList) =
      helpText program.toList text.toList := by
    rw [helpText, substitute_eq_self hzero]
    rfl
  refine ⟨hzero, ?_⟩
  rw [read_of_hasUsageLine (around.hasUsageLine hprogram), read_of_hasUsageLine hline, hname,
    hopened, String.toList_ofList]
  simp only [assemble_congr _ hdeclarations hhelp]

theorem message_of_read {given : Option String} {text : String} {usage : Usage}
    (h : read given text = .ok usage) :
    usage.message = String.ofList (helpText usage.program.toList text.toList) := by
  obtain ⟨token, rest, es, -, -, -, rfl⟩ := exists_of_read h
  rfl

theorem read_message_of_openings {given : Option String} {text : String} {usage : Usage}
    (hopen : openings text.toList = 0) (h : read given text = .ok usage) (other : Option String) :
    read other usage.message = .ok usage := by
  rw [message_of_read h, helpText, substitute_eq_self hopen, read_trimEnd hopen other given, h]

/-- Characters of a program's name are the name characters and the dot. -/
def isProgramChar (c : Char) : Bool := Text.isNameChar c || c == '.'

/-- A name that may be given to a program. -/
def IsProgramName (program : String) : Prop :=
  program.toList ≠ [] ∧ program.toList.all isProgramChar = true

theorem IsProgramName.ne_of_mem {program : String} (h : IsProgramName program) {c d : Char}
    (hd : isProgramChar d = false) (hc : c ∈ program.toList) : c ≠ d := by
  rintro rfl
  exact absurd (List.all_eq_true.1 h.2 c hc) (by simp [hd])

theorem isBlank_of_isProgramChar {c : Char} (h : isProgramChar c = true) :
    Text.isBlank c = false := by
  simp only [isProgramChar, Text.isNameChar, Bool.or_eq_true, beq_iff_eq] at h
  rcases h with (hword | rfl) | rfl
  · exact Text.isBlank_of_isWordChar hword
  · decide
  · decide

theorem IsProgramName.filling {program : String} (h : IsProgramName program) :
    Filling program.toList := by
  refine ⟨h.1, fun hhead => ?_, fun c hc => ⟨?_, ?_, ?_⟩⟩
  · exact h.ne_of_mem (by decide) (List.mem_of_mem_head? hhead) rfl
  · exact isBlank_of_isProgramChar (List.all_eq_true.1 h.2 c hc)
  · exact h.ne_of_mem (by decide) hc
  · exact h.ne_of_mem (by decide) hc

/-- **The help message is a usage text** of the same usage, whatever name is given with it. The text
leaves no name open, or only that of the program on its usage line. -/
theorem read_help_message {given : Option String} {text : String} {usage : Usage}
    (h : read given text = .ok usage)
    (hnames : ¬ programToken <:+: text.toList ∨
      (openings text.toList = 1 ∧ (∃ rest, HasUsageLine text programToken rest) ∧
        ∃ program, given = some program ∧ IsProgramName program)) (other : Option String) :
    read other usage.message = .ok usage := by
  rcases hnames with hclosed | ⟨hopen, ⟨rest, hline⟩, program, rfl, hprogram⟩
  · exact read_message_of_openings (openings_eq_zero_iff.2 hclosed) h other
  · have hdollar : '$' ∉ program.toList := fun hmem => hprogram.ne_of_mem (by decide) hmem rfl
    obtain ⟨hzero, hread⟩ := read_substitute hopen hline hprogram.filling hdollar
    rw [h] at hread
    exact read_message_of_openings (by rwa [String.toList_ofList]) hread other

/-- Here the name that is left open stands on a line that starts with a flag, in a default that is
not closed, and the blanks at the end belong to two lines. -/
def openText : String := "-v NUM (default Usage: $0 [-x NUM] out...\n -o  Out (default 3 \r\n "

theorem read_help_message_openText :
    ∃ usage, read (some "cp.sh") openText = .ok usage ∧
      usage.message = "-v NUM (default Usage: cp.sh [-x NUM] out...\n -o  Out (default 3" ∧
      ∀ other, read other usage.message = .ok usage := by
  have hname : IsProgramName "cp.sh" := ⟨by decide, by decide⟩
  have hline : HasUsageLine openText programToken (["[-x NUM]", "out..."].map String.toList) :=
    lineTokens?_eq_some_iff.1 (by decide +kernel)
  have hmessage : (read (some "cp.sh") openText).toOption.map Usage.message =
      some "-v NUM (default Usage: cp.sh [-x NUM] out...\n -o  Out (default 3" := by
    decide +kernel
  cases hread : read (some "cp.sh") openText with
  | error e =>
    rw [hread] at hmessage
    cases hmessage
  | ok usage =>
    rw [hread] at hmessage
    refine ⟨usage, rfl, Option.some.inj hmessage, read_help_message hread (.inr ?_)⟩
    exact ⟨by decide +kernel, ⟨_, hline⟩, _, rfl, hname⟩

end Usage

end Synopsis
