import Synopsis.Proofs.HelpText

/-!
# The usage line is cut up without loss

A line is divided into blanks and tokens, and in one way only (`tokens_eq_iff`). A token is a group
or a word; a bracket starts a word only if no bracket closes behind it, and from there on every
bracket does, since what follows a token is part of what followed the tokens before it. So a line
may start with groups and go on with open brackets, never the other way round.

Tokens that are put together with one space between each two are the tokens of that line again,
unless one of them is a word that starts with a bracket: a later token might close it.
-/

namespace Synopsis.UsageLine

/-- A group goes from an opening bracket to the first closing one. -/
def IsGroup (token : List Char) : Prop :=
  ∃ inner, ']' ∉ inner ∧ token = '[' :: (inner ++ [']'])

/-- A word has one or more characters, none of them blank. -/
structure IsWord (token : List Char) : Prop where
  ne_nil : token ≠ []
  chars : ∀ c ∈ token, Text.isBlank c = false

/-- The token stands at the head of a text that goes on with `rest`. -/
inductive Leads : List Char → List Char → Prop
  /-- A group ends with its bracket, whatever follows. -/
  | group {token rest : List Char} (h : IsGroup token) : Leads token rest
  /-- A word ends before a blank, and starts with a bracket only if none closes behind it. -/
  | word {token rest : List Char} (h : IsWord token) (hstop : Text.Stops isInWord rest)
      (hopen : token.head? = some '[' → ']' ∉ token ++ rest) : Leads token rest

/-- The line consists of blanks and these tokens. -/
inductive Divides : List Char → List (List Char) → Prop
  | blank {gap : List Char} (hgap : Text.allBlank gap = true) : Divides gap []
  | token {gap token rest : List Char} {ts : List (List Char)} (hgap : Text.allBlank gap = true)
      (hlead : Leads token rest) (h : Divides rest ts) :
      Divides (gap ++ (token ++ rest)) (token :: ts)

/-! ## One token -/

theorem IsGroup.exists_cons {token : List Char} (h : IsGroup token) :
    ∃ c s, token = c :: s ∧ Text.isBlank c = false := by
  obtain ⟨inner, -, rfl⟩ := h
  exact ⟨'[', inner ++ [']'], rfl, by decide⟩

theorem IsWord.exists_cons {token : List Char} (h : IsWord token) :
    ∃ c s, token = c :: s ∧ Text.isBlank c = false := by
  obtain ⟨c, s, rfl⟩ := List.exists_cons_of_ne_nil h.ne_nil
  exact ⟨c, s, rfl, h.chars c List.mem_cons_self⟩

theorem Leads.isGroup_or_isWord {token rest : List Char} (h : Leads token rest) :
    IsGroup token ∨ IsWord token := by
  cases h with
  | group h => exact .inl h
  | word h => exact .inr h

/-- The token stays the one at the head if the text is cut short behind it. -/
theorem Leads.of_append {token rest more : List Char} (h : Leads token (rest ++ more)) :
    Leads token rest := by
  cases h with
  | group h => exact .group h
  | word h hstop hopen =>
    refine .word h ?_ fun hhead hmem => hopen hhead ?_
    · cases rest with
      | nil => exact Text.stops_nil isInWord
      | cons c rest => exact Text.stops_cons.2 (Text.stops_cons.1 hstop)
    · rw [← List.append_assoc]
      exact List.mem_append_left more hmem

/-- What is cut off a text is the token at its head. -/
theorem leads_cut {c : Char} (hc : Text.isBlank c = false) (s : List Char) :
    Leads (c :: (cut c s).1) (cut c s).2 := by
  by_cases hgroup : c = '[' ∧ ']' ∈ s
  · obtain ⟨rfl, hmem⟩ := hgroup
    obtain ⟨inner, rest, rfl, hinner⟩ := List.eq_append_cons_of_mem hmem
    rw [cut_group hinner]
    exact .group ⟨inner, hinner, rfl⟩
  · have hs := cut_fst_append_snd c s
    rw [cut_word hgroup] at hs ⊢
    refine .word ⟨List.cons_ne_nil _ _, ?_⟩ (Text.stops_dropWhile _ s) ?_
    · refine List.forall_mem_cons.2 ⟨hc, fun d hd => ?_⟩
      simpa [isInWord] using List.mem_takeWhile_imp hd
    · intro hhead hmem
      obtain rfl : c = '[' := Option.some.inj hhead
      rw [List.cons_append, hs, List.mem_cons] at hmem
      exact hgroup ⟨rfl, hmem.resolve_left (by decide)⟩

/-- The token at the head of a text is cut off first. -/
theorem tokens_of_leads {gap token rest : List Char} (hgap : Text.allBlank gap = true)
    (h : Leads token rest) : tokens (gap ++ (token ++ rest)) = token :: tokens rest := by
  obtain ⟨c, s, rfl, hc⟩ := h.isGroup_or_isWord.elim IsGroup.exists_cons IsWord.exists_cons
  have htrim : Text.trimStart (gap ++ (c :: s ++ rest)) = c :: (s ++ rest) := by
    rw [Text.trimStart_append_of_allBlank hgap, List.cons_append, Text.trimStart,
      List.dropWhile_cons_of_neg (by simp [hc])]
  -- A group is cut at its bracket, a word at the blank; a bracket that is not closed starts a word.
  have hcut : cut c (s ++ rest) = (s, rest) := by
    cases h with
    | group h =>
      obtain ⟨inner, hinner, heq⟩ := h
      obtain ⟨rfl, rfl⟩ := List.cons.inj heq
      rw [List.append_assoc, List.singleton_append, cut_group hinner]
    | word h hstop hopen =>
      have hin : ∀ d ∈ s, isInWord d = true := by
        intro d hd
        simp [isInWord, h.chars d (List.mem_cons_of_mem c hd)]
      have hword : ¬(c = '[' ∧ ']' ∈ s ++ rest) := by
        rintro ⟨rfl, hmem⟩
        exact hopen rfl (List.mem_cons_of_mem _ hmem)
      rw [cut_word hword, Text.takeWhile_append_of_stops hstop,
        Text.dropWhile_append_of_stops hstop, List.takeWhile_eq_self_iff.2 hin,
        List.dropWhile_eq_nil_iff.2 hin, List.nil_append]
  rw [tokens_of_trimStart htrim, hcut]

/-! ## The whole line -/

theorem divides_tokens (line : List Char) : Divides line (tokens line) := by
  induction line using tokens.induct with
  | case1 line hnil =>
    have hblank := Text.trimStart_eq_nil_iff.1 hnil
    rw [tokens_of_allBlank hblank]
    exact .blank hblank
  | case2 line c s hcons _ ih =>
    obtain ⟨gap, hgap, hline⟩ := Text.exists_trimStart line
    have hc := Text.isBlank_head_trimStart hcons
    have hsplit : line = gap ++ (c :: (cut c s).1 ++ (cut c s).2) := by
      rw [List.cons_append, cut_fst_append_snd, ← hcons]
      exact hline
    rw [tokens_of_trimStart hcons]
    nth_rewrite 1 [hsplit]
    exact .token hgap (leads_cut hc s) ih

/-- **A line is divided into blanks and tokens in one way only.** -/
theorem tokens_eq_iff {line : List Char} {ts : List (List Char)} :
    tokens line = ts ↔ Divides line ts := by
  constructor
  · rintro rfl
    exact divides_tokens line
  · intro h
    induction h with
    | blank hgap => exact tokens_of_allBlank hgap
    | token hgap hlead _ ih => rw [tokens_of_leads hgap hlead, ih]

namespace Divides

variable {line : List Char} {ts : List (List Char)}

theorem isGroup_or_isWord (h : Divides line ts) : ∀ t ∈ ts, IsGroup t ∨ IsWord t := by
  induction h with
  | blank => simp
  | token _ hlead _ ih => exact List.forall_mem_cons.2 ⟨hlead.isGroup_or_isWord, ih⟩

/-- Blanks in front belong to no token. -/
theorem blanks {gap : List Char} (hgap : Text.allBlank gap = true) (h : Divides line ts) :
    Divides (gap ++ line) ts := by
  have hblank : ∀ {other}, Text.allBlank other = true → Text.allBlank (gap ++ other) = true := by
    intro other hother
    rw [Text.allBlank, List.all_append]
    exact Bool.and_eq_true_iff.2 ⟨hgap, hother⟩
  cases h with
  | blank hother => exact .blank (hblank hother)
  | token hother hlead h =>
    rw [← List.append_assoc]
    exact .token (hblank hother) hlead h

/-- Only blanks are lost. -/
theorem filter_flatten (h : Divides line ts) :
    ts.flatten.filter isInWord = line.filter isInWord := by
  have hnone : ∀ {gap}, Text.allBlank gap = true → gap.filter isInWord = [] := by
    intro gap hgap
    rw [List.filter_eq_nil_iff]
    intro c hc
    simp [isInWord, Text.allBlank_iff.1 hgap c hc]
  induction h with
  | blank hgap => rw [hnone hgap]; rfl
  | token hgap _ _ ih =>
    rw [List.flatten_cons, List.filter_append, ih, List.filter_append, List.filter_append,
      hnone hgap, List.nil_append]

/-- A division of the tokens is a division of the line: what stands before a token is divided into
the tokens before it, and what follows it into those behind. -/
theorem exists_split {before after : List (List Char)} {t : List Char}
    (h : Divides line (before ++ t :: after)) :
    ∃ pre suf, line = pre ++ (t ++ suf) ∧ Divides pre before ∧ Divides suf after ∧ Leads t suf := by
  induction before generalizing line with
  | nil =>
    cases h with
    | token hgap hlead h => exact ⟨_, _, rfl, .blank hgap, h, hlead⟩
  | cons u before ih =>
    cases h with
    | token hgap hlead h =>
      obtain ⟨pre, suf, rfl, hpre, hsuf, ht⟩ := ih h
      -- What was the token at the head of the whole rest is so for the part before `t` too.
      exact ⟨_, suf, by simp, .token hgap hlead.of_append hpre, hsuf, ht⟩

end Divides

/-- Tokens with one space between each two, none of them a word that starts with a bracket. -/
theorem divides_intercalate {ts : List (List Char)}
    (h : ∀ t ∈ ts, IsGroup t ∨ IsWord t ∧ t.head? ≠ some '[') :
    Divides ([' '].intercalate ts) ts := by
  have hlead : ∀ {t rest}, IsGroup t ∨ IsWord t ∧ t.head? ≠ some '[' →
      Text.Stops isInWord rest → Leads t rest := by
    intro t rest ht hrest
    rcases ht with ht | ⟨ht, hhead⟩
    · exact .group ht
    · exact .word ht hrest fun hopen => absurd hopen hhead
  induction ts with
  | nil => exact .blank rfl
  | cons t ts ih =>
    obtain ⟨ht, hts⟩ := List.forall_mem_cons.1 h
    cases ts with
    | nil =>
      have hlast := hlead ht (Text.stops_nil isInWord)
      simpa using @Divides.token [] t [] [] rfl hlast (.blank rfl)
    | cons u ts =>
      have hspace : Text.Stops isInWord ([' '] ++ [' '].intercalate (u :: ts)) :=
        Text.stops_cons.2 (by decide)
      rw [List.intercalate_cons_cons, List.append_assoc]
      exact @Divides.token [] t _ _ rfl (hlead ht hspace) ((ih hts).blanks (by decide))

/-- **Cutting up a line loses nothing but blanks.** Every token is a group or a word and starts with
no blank. It stands in the line where the tokens before it end and those behind it begin, and if it
starts with a bracket without being a group, no bracket closes from there on. The tokens have all
the characters of the line that are not blank, in their order. Conversely, groups and words that
start with no bracket are the tokens of the line that has them with one space between each two. -/
theorem tokens_lose_only_blanks (line : List Char) :
    (∀ t ∈ tokens line, t ≠ [] ∧ (∀ c ∈ t.head?, Text.isBlank c = false) ∧
      (IsGroup t ∨ IsWord t)) ∧
    (∀ before t after, tokens line = before ++ t :: after →
      ∃ pre suf, line = pre ++ (t ++ suf) ∧ tokens pre = before ∧ tokens suf = after ∧
        (t.head? = some '[' → ¬ IsGroup t → ']' ∉ t ++ suf)) ∧
    (tokens line).flatten.filter (fun c => !Text.isBlank c) =
      line.filter (fun c => !Text.isBlank c) ∧
    ∀ ts : List (List Char), (∀ t ∈ ts, IsGroup t ∨ IsWord t ∧ t.head? ≠ some '[') →
      tokens ([' '].intercalate ts) = ts := by
  have hline := divides_tokens line
  refine ⟨?_, ?_, hline.filter_flatten, fun ts hts => tokens_eq_iff.2 (divides_intercalate hts)⟩
  · intro t ht
    have hkind := hline.isGroup_or_isWord t ht
    obtain ⟨c, s, rfl, hc⟩ := hkind.elim IsGroup.exists_cons IsWord.exists_cons
    refine ⟨List.cons_ne_nil c s, ?_, hkind⟩
    rintro _ ⟨⟩
    exact hc
  · intro before t after htokens
    obtain ⟨pre, suf, hsplit, hpre, hsuf, hlead⟩ := (tokens_eq_iff.1 htokens).exists_split
    refine ⟨pre, suf, hsplit, tokens_eq_iff.2 hpre, tokens_eq_iff.2 hsuf, ?_⟩
    intro hhead hgroup
    cases hlead with
    | group h => exact absurd h hgroup
    | word _ _ hopen => exact hopen hhead

/-- A group with a blank and an opening bracket inside, a word right behind it, and two brackets
that nothing closes. -/
theorem tokens_lose_only_blanks_open :
    tokens " a[b] [c [d]e [f [g".toList =
      ["a[b]".toList, "[c [d]".toList, "e".toList] ++ "[f".toList :: ["[g".toList] ∧
    (∃ pre suf, " a[b] [c [d]e [f [g".toList = pre ++ ("[f".toList ++ suf) ∧
      tokens pre = ["a[b]".toList, "[c [d]".toList, "e".toList] ∧ tokens suf = ["[g".toList] ∧
      ']' ∉ "[f".toList ++ suf) ∧
    tokens "[c [d] e".toList = ["[c [d]".toList, "e".toList] := by
  have htokens : tokens " a[b] [c [d]e [f [g".toList =
      ["a[b]".toList, "[c [d]".toList, "e".toList] ++ "[f".toList :: ["[g".toList] := by
    decide +kernel
  obtain ⟨-, hplace, -, hback⟩ := tokens_lose_only_blanks " a[b] [c [d]e [f [g".toList
  obtain ⟨pre, suf, hline, hpre, hsuf, hopen⟩ := hplace _ _ _ htokens
  have hgroup : ¬ IsGroup "[f".toList := by
    rintro ⟨inner, -, hinner⟩
    have hlast := congrArg List.getLast? hinner
    rw [← List.cons_append, List.getLast?_concat] at hlast
    cases hlast
  refine ⟨htokens, ⟨pre, suf, hline, hpre, hsuf, hopen rfl hgroup⟩, ?_⟩
  have hword : IsWord "e".toList := ⟨by decide, List.forall_mem_singleton.2 rfl⟩
  refine hback ["[c [d]".toList, "e".toList] (List.forall_mem_cons.2 ⟨?_, ?_⟩)
  · exact .inl ⟨"c [d".toList, by decide, rfl⟩
  · exact List.forall_mem_singleton.2 (.inr ⟨hword, by decide⟩)

end Synopsis.UsageLine
