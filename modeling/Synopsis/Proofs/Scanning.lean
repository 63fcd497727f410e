import Mathlib.Data.List.DropRight
import Mathlib.Data.List.Infix
import Synopsis.Text.Blank
import Synopsis.Text.Lines
import Synopsis.Text.Search

/-!
# Scanning a text

A usage text is read by scans over one class of characters, by searches for a mark and by cutting
it into lines. Each of them stops somewhere, and what stands behind that place may be exchanged
without the scan noticing. This module states, for every such operation, what it makes of a text
with something appended.

The two marks that are searched for do not have their first character twice. So a mark cannot
overlap itself, and the first one in a text is the one with no mark before it
(`afterFirst?_eq_some_iff`), the last one that with no mark behind it (`afterLast?_eq_some_iff`).
-/

namespace Synopsis.Text

/-! ## Scans over a class of characters -/

/-- A scan over the characters of the class stops here at once. -/
def Stops (p : Char → Bool) (t : List Char) : Prop := ∀ c ∈ t.head?, p c = false

theorem takeWhile_append_of_stops {p : Char → Bool} {t : List Char} (h : Stops p t)
    (s : List Char) : (s ++ t).takeWhile p = s.takeWhile p := by
  induction s with
  | nil =>
    cases t with
    | nil => rfl
    | cons c t => simp [h c rfl]
  | cons c s ih =>
    rw [List.cons_append, List.takeWhile_cons, List.takeWhile_cons, ih]

theorem dropWhile_append_of_stops {p : Char → Bool} {t : List Char} (h : Stops p t)
    (s : List Char) : (s ++ t).dropWhile p = s.dropWhile p ++ t := by
  induction s with
  | nil =>
    cases t with
    | nil => rfl
    | cons c t => simp [h c rfl]
  | cons c s ih =>
    rw [List.cons_append, List.dropWhile_cons, List.dropWhile_cons, ih]
    split <;> rfl

theorem stops_nil (p : Char → Bool) : Stops p [] := by simp [Stops]

theorem stops_cons {p : Char → Bool} {c : Char} {t : List Char} :
    Stops p (c :: t) ↔ p c = false := by
  simp [Stops]

/-- A scan stops behind what it has taken. -/
theorem stops_dropWhile (p : Char → Bool) (s : List Char) : Stops p (s.dropWhile p) := by
  intro c hc
  have h := List.head?_dropWhile_not p s
  rw [Option.mem_def.1 hc] at h
  exact h

/-! ## Blanks -/

theorem isBlank_of_isWordChar {c : Char} (h : isWordChar c = true) : isBlank c = false := by
  have hbounds : 48 ≤ c.toNat ∧ c.toNat ≤ 122 := by
    delta isWordChar Char.isAlphanum Char.isAlpha Char.isUpper Char.isLower Char.isDigit at h
    simp only [Bool.or_eq_true, Bool.and_eq_true, decide_eq_true_eq, beq_iff_eq,
      UInt32.le_iff_toNat_le, ge_iff_le] at h
    rcases h with ((⟨h₁, h₂⟩ | ⟨h₁, h₂⟩) | ⟨h₁, h₂⟩) | rfl
    · exact ⟨Nat.le_trans (by decide) h₁, Nat.le_trans h₂ (by decide)⟩
    · exact ⟨Nat.le_trans (by decide) h₁, h₂⟩
    · exact ⟨h₁, Nat.le_trans h₂ (by decide)⟩
    · decide
  simp only [isBlank, Bool.or_eq_false_iff, Bool.and_eq_false_iff, decide_eq_false_iff_not,
    beq_eq_false_iff_ne]
  omega

theorem allBlank_iff {s : List Char} : allBlank s = true ↔ ∀ c ∈ s, isBlank c = true :=
  List.all_eq_true

theorem trimStart_eq_nil_iff {s : List Char} : trimStart s = [] ↔ allBlank s = true :=
  List.dropWhile_eq_nil_iff.trans allBlank_iff.symm

theorem trimStart_append_of_allBlank {s : List Char} (h : allBlank s = true) (t : List Char) :
    trimStart (s ++ t) = trimStart t :=
  List.dropWhile_append_of_pos (allBlank_iff.1 h)

/-- Trimming leaves alone what follows a character that is not blank. -/
theorem trimStart_append_of_ne_nil {s : List Char} (h : trimStart s ≠ []) (t : List Char) :
    trimStart (s ++ t) = trimStart s ++ t := by
  rw [trimStart, List.dropWhile_append, if_neg]
  · rfl
  · exact fun hnil => h (List.isEmpty_iff.1 hnil)

theorem exists_trimStart (s : List Char) : ∃ gap, allBlank gap = true ∧ s = gap ++ trimStart s := by
  refine ⟨s.takeWhile isBlank, allBlank_iff.2 fun c hc => List.mem_takeWhile_imp hc, ?_⟩
  exact List.takeWhile_append_dropWhile.symm

theorem exists_trimEnd (s : List Char) : ∃ gap, allBlank gap = true ∧ s = trimEnd s ++ gap := by
  refine ⟨s.rtakeWhile isBlank, allBlank_iff.2 fun c hc => List.mem_rtakeWhile_imp hc, ?_⟩
  exact List.rdropWhile_append_rtakeWhile.symm

@[simp] theorem trimEnd_nil : trimEnd [] = [] := rfl

theorem trimEnd_trimEnd (s : List Char) : trimEnd (trimEnd s) = trimEnd s :=
  List.rdropWhile_idempotent isBlank s

theorem trimEnd_eq_nil {s : List Char} (h : allBlank s = true) : trimEnd s = [] :=
  List.rdropWhile_eq_nil_iff.2 (allBlank_iff.1 h)

theorem trimEnd_cons (c : Char) (s : List Char) :
    trimEnd (c :: s) =
      if trimEnd s = [] then (if isBlank c then [] else [c]) else c :: trimEnd s := by
  rw [trimEnd, List.reverse_cons, List.dropWhile_append]
  by_cases h : s.reverse.dropWhile isBlank = []
  · have htrim : trimEnd s = [] := by rw [trimEnd, h]; rfl
    rw [h, if_pos List.isEmpty_nil, if_pos htrim]
    cases hc : isBlank c <;> simp [hc]
  · have htrim : trimEnd s ≠ [] := by
      rw [trimEnd, ne_eq, List.reverse_eq_nil_iff]
      exact h
    rw [if_neg (fun he => h (List.isEmpty_iff.1 he)), if_neg htrim]
    simp [trimEnd]

/-! ## Searching for a mark -/

section Search

variable {needle s t : List Char} {c : Char}

theorem after?_eq_none_iff : after? needle s = none ↔ ¬ needle <+: s := by
  rw [Option.eq_none_iff_forall_ne_some]
  simp only [ne_eq, after?_eq_some_iff]
  exact ⟨fun h ⟨t, ht⟩ => h t ht.symm, fun h t ht => h ⟨t, ht.symm⟩⟩

/-- A character that the mark does not have is not passed. -/
theorem after?_append_cons (hc : c ∉ needle) :
    after? needle (s ++ c :: t) = (after? needle s).map (· ++ c :: t) := by
  induction needle generalizing s with
  | nil => rfl
  | cons a needle ih =>
    rw [List.mem_cons, not_or] at hc
    cases s with
    | nil => simp [after?, Ne.symm hc.1]
    | cons d s =>
      rw [List.cons_append, after?, after?]
      split
      · exact ih hc.2
      · rfl

theorem afterFirst?_eq_none_iff : afterFirst? needle s = none ↔ ¬ needle <:+: s := by
  induction s with
  | nil => rw [afterFirst?, after?_eq_none_iff, List.prefix_nil, List.infix_nil]
  | cons c s ih =>
    rw [afterFirst?, Option.or_eq_none_iff, ih, after?_eq_none_iff, List.infix_cons_iff, not_or]

theorem afterLast?_eq_none_iff : afterLast? needle s = none ↔ ¬ needle <:+: s := by
  induction s with
  | nil => rw [afterLast?, after?_eq_none_iff, List.prefix_nil, List.infix_nil]
  | cons c s ih =>
    rw [afterLast?, Option.or_eq_none_iff, ih, after?_eq_none_iff, List.infix_cons_iff, not_or,
      and_comm]

theorem afterFirst?_append_cons (hne : needle ≠ []) (hc : c ∉ needle) :
    afterFirst? needle (s ++ c :: t) =
      ((afterFirst? needle s).map (· ++ c :: t)).or (afterFirst? needle t) := by
  have hnil : after? needle [] = none := by
    rw [after?_eq_none_iff, List.prefix_nil]
    exact hne
  induction s with
  | nil =>
    have h := @after?_append_cons needle [] t c hc
    rw [List.nil_append, hnil] at h
    simp only [List.nil_append, afterFirst?, h, hnil, Option.map_none, Option.none_or]
  | cons d s ih =>
    rw [List.cons_append, afterFirst?, afterFirst?, ih, ← List.cons_append, after?_append_cons hc,
      Option.map_or, Option.or_assoc]

theorem afterLast?_append_cons (hne : needle ≠ []) (hc : c ∉ needle) :
    afterLast? needle (s ++ c :: t) =
      (afterLast? needle t).or ((afterLast? needle s).map (· ++ c :: t)) := by
  have hnil : after? needle [] = none := by
    rw [after?_eq_none_iff, List.prefix_nil]
    exact hne
  induction s with
  | nil =>
    have h := @after?_append_cons needle [] t c hc
    rw [List.nil_append, hnil] at h
    rw [List.nil_append, afterLast?, afterLast?, h, hnil]
  | cons d s ih =>
    rw [List.cons_append, afterLast?, afterLast?, ih, ← List.cons_append, after?_append_cons hc,
      Option.map_or, Option.or_assoc]

end Search

/-! ## Marks that do not overlap themselves -/

section Mark

variable {a : Char} {word s y : List Char}

theorem afterLast?_append_of_not_mem {lead : List Char} (h : a ∉ lead) :
    afterLast? (a :: word) (lead ++ s) = afterLast? (a :: word) s := by
  induction lead with
  | nil => rfl
  | cons c lead ih =>
    rw [List.mem_cons, not_or] at h
    rw [List.cons_append, afterLast?, ih h.2, after?, if_neg h.1, Option.or_none]

/-- No mark starts before the end of a text without marks that a mark follows. -/
theorem not_isPrefix_append {lead : List Char} (ha : a ∉ word) (hne : lead ≠ [])
    (h : ¬ (a :: word) <:+: lead) : ¬ (a :: word) <+: lead ++ (a :: word ++ y) := by
  intro hpre
  rcases List.prefix_or_prefix_of_prefix hpre (List.prefix_append lead _) with hp | ⟨rest, hr⟩
  · exact h hp.isInfix
  · -- The mark ends inside the one that follows, so it has the first character of that one.
    have hrest : rest <+: a :: word ++ y := by
      rw [← List.prefix_append_right_inj lead, hr]
      exact hpre
    cases rest with
    | nil =>
      rw [List.append_nil] at hr
      exact h (hr ▸ List.infix_rfl)
    | cons b rest =>
      have hb : b = a := (List.cons_prefix_cons.1 hrest).1
      cases lead with
      | nil => exact hne rfl
      | cons d lead =>
        have hword : lead ++ b :: rest = word := (List.cons.inj hr).2
        exact ha (by simp [← hword, hb])

/-- The first mark is the one with no mark before it. -/
theorem afterFirst?_eq_some_iff (ha : a ∉ word) :
    afterFirst? (a :: word) s = some y ↔
      ∃ lead, s = lead ++ (a :: word ++ y) ∧ ¬ (a :: word) <:+: lead := by
  induction s with
  | nil => simp [afterFirst?, after?]
  | cons c s ih =>
    rw [afterFirst?, Option.or_eq_some_iff, ih, after?_eq_some_iff, after?_eq_none_iff]
    constructor
    · intro h
      rcases h with h | ⟨hnot, lead, rfl, hlead⟩
      · exact ⟨[], h, by simp⟩
      · refine ⟨c :: lead, rfl, ?_⟩
        rw [List.infix_cons_iff, not_or]
        refine ⟨fun hp => hnot ?_, hlead⟩
        exact hp.trans (List.prefix_append (c :: lead) _)
    · intro h
      obtain ⟨lead, hs, hlead⟩ := h
      cases lead with
      | nil => exact .inl hs
      | cons d lead =>
        obtain ⟨rfl, rfl⟩ := List.cons.inj hs
        refine .inr ⟨?_, lead, rfl, fun hi => hlead (List.infix_cons hi)⟩
        exact not_isPrefix_append ha (List.cons_ne_nil c lead) hlead

/-- The last mark is the one with no mark behind it. -/
theorem afterLast?_eq_some_iff (ha : a ∉ word) :
    afterLast? (a :: word) s = some y ↔
      ∃ lead, s = lead ++ (a :: word ++ y) ∧ ¬ (a :: word) <:+: y := by
  induction s with
  | nil => simp [afterLast?, after?]
  | cons c s ih =>
    rw [afterLast?, Option.or_eq_some_iff, ih, after?_eq_some_iff, afterLast?_eq_none_iff]
    constructor
    · intro h
      rcases h with ⟨lead, rfl, hy⟩ | ⟨hnot, h⟩
      · exact ⟨c :: lead, rfl, hy⟩
      · refine ⟨[], h, fun hi => hnot ?_⟩
        obtain ⟨rfl, rfl⟩ := List.cons.inj h
        exact hi.trans (List.suffix_append word y).isInfix
    · intro h
      obtain ⟨lead, hs, hy⟩ := h
      cases lead with
      | cons d lead =>
        obtain ⟨rfl, rfl⟩ := List.cons.inj hs
        exact .inl ⟨lead, rfl, hy⟩
      | nil =>
        obtain ⟨rfl, rfl⟩ := List.cons.inj hs
        refine .inr ⟨?_, rfl⟩
        -- A mark behind the first character would start inside the mark, or else behind it.
        rw [← afterLast?_eq_none_iff] at hy ⊢
        exact (afterLast?_append_of_not_mem ha).trans hy

end Mark

/-! ## Lines -/

/-- A character ends the line, or belongs to a line end with the next one, or stands at the head of
the first line. -/
theorem lines_cons_cases (c : Char) (s : List Char) :
    (c = '\n' ∧ lines (c :: s) = [] :: lines s) ∨
    (c = '\r' ∧ s.head? = some '\n' ∧ lines (c :: s) = lines s) ∨
    (c ≠ '\n' ∧ (c = '\r' → s.head? ≠ some '\n') ∧
      lines (c :: s) = (c :: (lines s).headD []) :: (lines s).tail) := by
  by_cases hn : c = '\n'
  · subst hn
    exact .inl ⟨rfl, rfl⟩
  · by_cases hr : c = '\r' ∧ s.head? = some '\n'
    · obtain ⟨rfl, hs⟩ := hr
      cases s with
      | nil => cases hs
      | cons d s =>
        cases hs
        exact .inr (.inl ⟨rfl, rfl, rfl⟩)
    · refine .inr (.inr ⟨hn, fun hc hs => hr ⟨hc, hs⟩, ?_⟩)
      rw [lines.eq_def]
      split
      · contradiction
      · next h => cases h; contradiction
      · next h => cases h; exact absurd ⟨rfl, rfl⟩ hr
      · next h =>
        cases h
        cases lines s <;> rfl

theorem lines_return {s : List Char} (h : s.head? = some '\n') :
    lines ('\r' :: s) = lines s := by
  rcases lines_cons_cases '\r' s with ⟨hc, -⟩ | ⟨-, -, hl⟩ | ⟨-, hr, -⟩
  · cases hc
  · exact hl
  · exact absurd h (hr rfl)

theorem allBlank_of_mem_lines {s line : List Char} (h : allBlank s = true)
    (hline : line ∈ lines s) : allBlank line = true := by
  induction s generalizing line with
  | nil => simp [lines] at hline
  | cons c s ih =>
    obtain ⟨hc, hs⟩ := List.forall_mem_cons.1 (allBlank_iff.1 h)
    have ih := fun {line} => @ih line (allBlank_iff.2 hs)
    rcases lines_cons_cases c s with ⟨-, hl⟩ | ⟨-, -, hl⟩ | ⟨-, -, hl⟩ <;> rw [hl] at hline
    · rcases List.mem_cons.1 hline with rfl | hline
      · rfl
      · exact ih hline
    · exact ih hline
    · cases hls : lines s with
      | nil => simp_all [allBlank]
      | cons first rest =>
        rw [hls, List.headD_cons, List.tail_cons, List.mem_cons] at hline
        rcases hline with rfl | hline
        · have hfirst := allBlank_iff.1 (ih (hls ▸ List.mem_cons_self))
          exact allBlank_iff.2 (List.forall_mem_cons.2 ⟨hc, hfirst⟩)
        · exact ih (hls ▸ List.mem_cons_of_mem first hline)

theorem map_trimEnd_lines_of_allBlank {gap : List Char} (h : allBlank gap = true) :
    (lines gap).map trimEnd = List.replicate (lines gap).length [] := by
  refine List.eq_replicate_iff.2 ⟨List.length_map _, ?_⟩
  intro line hline
  obtain ⟨l, hl, rfl⟩ := List.mem_map.1 hline
  exact trimEnd_eq_nil (allBlank_of_mem_lines h hl)

/-- **Blanks at the end of a text** add blanks to its last line and blank lines after it. -/
theorem map_trimEnd_lines_append {gap : List Char} (hgap : allBlank gap = true) (s : List Char) :
    ∃ k, (lines (s ++ gap)).map trimEnd = (lines s).map trimEnd ++ List.replicate k [] := by
  induction s with
  | nil => exact ⟨_, map_trimEnd_lines_of_allBlank hgap⟩
  | cons c s ih =>
    obtain ⟨k, ih⟩ := ih
    rw [List.cons_append]
    rcases lines_cons_cases c s with ⟨rfl, hl⟩ | ⟨rfl, hs, hl⟩ | ⟨hn, hr, hl⟩
    · exact ⟨k, by simpa [lines] using ih⟩
    · rw [hl, lines_return (by rw [List.head?_append, hs]; rfl)]
      exact ⟨k, ih⟩
    · rw [hl]
      rcases lines_cons_cases c (s ++ gap) with ⟨hc, -⟩ | ⟨hc, hs, hl'⟩ | ⟨-, -, hl'⟩
      · contradiction
      · -- A carriage return at the end of the text, which a line feed among the blanks completes.
        obtain rfl : s = [] := by
          cases s with
          | nil => rfl
          | cons d s => exact absurd hs (hr hc)
        subst hc
        obtain ⟨m, hm⟩ : ∃ m, (lines gap).length = m + 1 := by
          cases gap with
          | nil => cases hs
          | cons d gap =>
            cases hs
            exact ⟨(lines gap).length, rfl⟩
        rw [hl', List.nil_append, map_trimEnd_lines_of_allBlank hgap, hm]
        exact ⟨m, rfl⟩
      · rw [hl']
        cases hls : lines s with
        | nil =>
          -- Only blank lines follow, and the first of them continues the line.
          rw [hls, List.map_nil, List.nil_append] at ih
          cases hls' : lines (s ++ gap) with
          | nil => exact ⟨0, by simp⟩
          | cons first rest =>
            rw [hls', List.map_cons] at ih
            cases k with
            | zero => cases ih
            | succ k =>
              obtain ⟨hfirst, hrest⟩ := List.cons.inj ih
              exact ⟨k, by simp [hrest, trimEnd_cons, hfirst]⟩
        | cons line more =>
          cases hls' : lines (s ++ gap) with
          | nil => simp [hls, hls'] at ih
          | cons first rest =>
            rw [hls, hls', List.map_cons, List.map_cons, List.cons_append, List.cons.injEq] at ih
            exact ⟨k, by simp [ih.1, ih.2, trimEnd_cons]⟩

end Synopsis.Text
