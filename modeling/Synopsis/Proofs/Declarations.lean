import Synopsis.Declaration
import Synopsis.Proofs.Scanning

/-!
# How a declaration is read

A declaration has two parts that do not get into each other's way. Its *heading*, the flags and
the placeholder, stands at the start of the text and ends where neither a flag nor a placeholder
goes on; whatever follows there may be exchanged for something else of that sort
(`heading?_append`). Its default stands in the description. No heading has an opening parenthesis,
so the default can just as well be looked for in the whole text (`read?_eq`).
-/

namespace Synopsis.Declaration

/-- The flags and the placeholder that a text declares. -/
def heading? (text : List Char) : Option (Flags × Option String) :=
  (read? text).map fun d => (d.flags, d.placeholder)

theorem shortFlag?_eq_some_iff {s : List Char} {x : Char × Option String × List Char} :
    shortFlag? s = some x ↔
      ∃ c t, s = '-' :: c :: t ∧ Text.isWordChar c = true ∧ endsFlag t = true ∧
        x = (c, placeholder? t) := by
  unfold shortFlag?
  split
  · next c t =>
    simp only [Option.ite_none_right_eq_some, Bool.and_eq_true, Option.some.injEq, List.cons.injEq,
      true_and]
    constructor
    · rintro ⟨⟨hc, ht⟩, rfl⟩
      exact ⟨c, t, ⟨rfl, rfl⟩, hc, ht, rfl⟩
    · rintro ⟨c, t, ⟨rfl, rfl⟩, hc, ht, rfl⟩
      exact ⟨⟨hc, ht⟩, rfl⟩
  · next hs =>
    refine iff_of_false nofun ?_
    rintro ⟨c, t, rfl, -⟩
    exact hs c t rfl

theorem longFlag?_eq_some_iff {s : List Char} {x : String × Option String × List Char} :
    longFlag? s = some x ↔
      ∃ c t, s = '-' :: '-' :: c :: t ∧ Text.isWordChar c = true ∧
        x = (String.ofList (c :: t.takeWhile Text.isNameChar),
          placeholder? (t.dropWhile Text.isNameChar)) := by
  unfold longFlag?
  split
  · next c t =>
    simp only [Option.ite_none_right_eq_some, Option.some.injEq, List.cons.injEq, true_and]
    constructor
    · rintro ⟨hc, rfl⟩
      exact ⟨c, t, ⟨rfl, rfl⟩, hc, rfl⟩
    · rintro ⟨c, t, ⟨rfl, rfl⟩, hc, rfl⟩
      exact ⟨hc, rfl⟩
  · next hs =>
    refine iff_of_false nofun ?_
    rintro ⟨c, t, rfl, -⟩
    exact hs c t rfl

/-! ## The default is the one of the whole text -/

/-- The text goes on with `rest` after a part that opens no parenthesis. -/
def Passed (text rest : List Char) : Prop := ∃ part, text = part ++ rest ∧ '(' ∉ part

theorem Passed.refl (s : List Char) : Passed s s := ⟨[], rfl, List.not_mem_nil⟩

theorem Passed.trans {s t u : List Char} (hs : Passed s t) (ht : Passed t u) : Passed s u := by
  obtain ⟨x, rfl, hx⟩ := hs
  obtain ⟨y, rfl, hy⟩ := ht
  exact ⟨x ++ y, (List.append_assoc x y u).symm, by simp [hx, hy]⟩

theorem Passed.cons {s t : List Char} {c : Char} (hc : c ≠ '(') (h : Passed s t) :
    Passed (c :: s) t := by
  obtain ⟨x, rfl, hx⟩ := h
  exact ⟨c :: x, rfl, by simp [hx, hc.symm]⟩

theorem passed_dropWhile {p : Char → Bool} (hp : p '(' = false) (s : List Char) :
    Passed s (s.dropWhile p) := by
  refine ⟨s.takeWhile p, List.takeWhile_append_dropWhile.symm, fun h => ?_⟩
  have := List.mem_takeWhile_imp h
  rw [hp] at this
  cases this

theorem passed_trimStart (s : List Char) : Passed s (Text.trimStart s) :=
  passed_dropWhile (by decide) s

theorem passed_placeholder? {s rest : List Char} {word : Option String}
    (h : placeholder? s = (word, rest)) : Passed s rest := by
  unfold placeholder? at h
  split at h
  · next s =>
    split at h
    · cases h
      exact .refl _
    · cases h
      exact (passed_dropWhile (by decide) s).cons (by decide)
  · cases h
    exact .refl _

theorem ne_paren_of_isWordChar {c : Char} (h : Text.isWordChar c = true) : c ≠ '(' := by
  rintro rfl
  cases h

theorem passed_shortFlag? {s rest : List Char} {c : Char} {word : Option String}
    (h : shortFlag? s = some (c, word, rest)) : Passed s rest := by
  obtain ⟨c, t, rfl, hc, -, hx⟩ := shortFlag?_eq_some_iff.1 h
  obtain ⟨rfl, ht⟩ := Prod.mk.inj hx
  exact ((passed_placeholder? ht.symm).cons (ne_paren_of_isWordChar hc)).cons (by decide)

theorem passed_longFlag? {s rest : List Char} {name : String} {word : Option String}
    (h : longFlag? s = some (name, word, rest)) : Passed s rest := by
  obtain ⟨c, t, rfl, hc, hx⟩ := longFlag?_eq_some_iff.1 h
  obtain ⟨-, ht⟩ := Prod.mk.inj hx
  have hname := (passed_dropWhile (by decide) t).trans (passed_placeholder? ht.symm)
  exact ((hname.cons (ne_paren_of_isWordChar hc)).cons (by decide)).cons (by decide)

theorem passed_skipComma (s : List Char) : Passed s (skipComma s) := by
  unfold skipComma
  split
  · next t h =>
    have hcomma : Passed (Text.trimStart s) t := h ▸ (Passed.refl t).cons (by decide)
    exact (passed_trimStart s).trans hcomma
  · exact .refl s

theorem passed_shortAfterLong? {s rest : List Char} {c : Char} {word : Option String}
    (h : shortAfterLong? s = some (c, word, rest)) : Passed s rest := by
  unfold shortAfterLong? at h
  split at h
  · next s => exact ((passed_trimStart s).trans (passed_shortFlag? h)).cons (by decide)
  · cases h

theorem default?_of_passed {s t : List Char} (h : Passed s t) : default? s = default? t := by
  obtain ⟨x, rfl, hx⟩ := h
  have hlast : Text.afterLast? defaultMark (x ++ t) = Text.afterLast? defaultMark t :=
    Text.afterLast?_append_of_not_mem hx
  rw [default?, default?, hlast]

/-- The default of a declaration is the one in its whole text. -/
theorem defaultValue_of_read? {s : List Char} {d : Declaration} (h : read? s = some d) :
    d.defaultValue = default? s := by
  rw [default?_of_passed (passed_trimStart s)]
  simp only [read?] at h
  split at h
  · next hlong =>
    have hlong := passed_longFlag? hlong
    split at h
    · next hshort =>
      cases h
      exact (default?_of_passed (hlong.trans (passed_shortAfterLong? hshort))).symm
    · cases h
      exact (default?_of_passed hlong).symm
  · split at h
    · next rest hshort =>
      have hcomma := (passed_skipComma rest).trans (passed_trimStart _)
      have hrest := (passed_shortFlag? hshort).trans hcomma
      split at h
      · next hlong =>
        cases h
        exact (default?_of_passed (hrest.trans (passed_longFlag? hlong))).symm
      · cases h
        exact (default?_of_passed hrest).symm
    · cases h

/-- **A declaration is its heading and the default of the whole text.** -/
theorem read?_eq (s : List Char) :
    read? s = (heading? s).map fun h => ⟨h.1, h.2, default? s⟩ := by
  rw [heading?]
  cases h : read? s with
  | none => rfl
  | some d =>
    obtain ⟨flags, placeholder, value⟩ := d
    have hvalue : value = default? s := defaultValue_of_read? h
    rw [hvalue]
    rfl

/-- Every text that can be read looks like a declaration. -/
theorem startsWithFlag_of_read? {s : List Char} {d : Declaration} (h : read? s = some d) :
    startsWithFlag s = true := by
  simp only [read?] at h
  split at h
  · next x hlong =>
    obtain ⟨c, t, hs, hc, -⟩ := longFlag?_eq_some_iff.1 hlong
    simp [startsWithFlag, hs, hc]
  · split at h
    · next x hshort =>
      obtain ⟨c, t, hs, hc, -⟩ := shortFlag?_eq_some_iff.1 hshort
      unfold startsWithFlag
      rw [hs]
      split
      · next heq =>
        cases heq
        cases hc
      · next heq =>
        cases heq
        exact hc
      · next hne => exact absurd rfl (hne _)
    · cases h

/-! ## What may follow a heading -/

/-- Neither a flag nor a placeholder goes on with this text, and none starts in it. -/
structure Plain (t : List Char) : Prop where
  head : ∀ c ∈ t.head?, Text.isWordChar c = false
  word : ∀ c s, t = ' ' :: c :: s → Text.isWordChar c = false
  flag : ∀ c ∈ (Text.trimStart t).head?, c ≠ '-' ∧ c ≠ ','

namespace Plain

variable {t : List Char}

theorem ne (h : Plain t) {c : Char} (hc : c ∈ t.head?) : c ≠ '-' ∧ c ≠ ',' := by
  by_cases hb : Text.isBlank c = true
  · constructor <;> (rintro rfl; cases hb)
  · cases t with
    | nil => cases hc
    | cons d t =>
      cases hc
      apply h.flag c
      rw [Text.trimStart, List.dropWhile_cons_of_neg hb]
      rfl

theorem stops_word (h : Plain t) : Text.Stops Text.isWordChar t := h.head

theorem stops_name (h : Plain t) : Text.Stops Text.isNameChar t := by
  intro c hc
  rw [Text.isNameChar, h.head c hc, beq_eq_false_iff_ne.2 (h.ne hc).1]
  rfl

theorem placeholder? (h : Plain t) : placeholder? t = (none, t) := by
  unfold Declaration.placeholder?
  split
  · next s =>
    have hnil : s.takeWhile Text.isWordChar = [] := by
      cases s with
      | nil => rfl
      | cons c s => simp [h.word c s rfl]
    rw [hnil]
  · rfl

end Plain

theorem placeholder?_cons_of_ne {c : Char} (hc : c ≠ ' ') (s : List Char) :
    placeholder? (c :: s) = (none, c :: s) := by
  unfold placeholder?
  split
  · next heq =>
    cases heq
    contradiction
  · rfl

theorem placeholder?_append {t : List Char} (h : Plain t) (s : List Char) :
    placeholder? (s ++ t) = ((placeholder? s).1, (placeholder? s).2 ++ t) := by
  cases s with
  | nil => exact h.placeholder?
  | cons c s =>
    by_cases hc : c = ' '
    · subst hc
      simp only [List.cons_append, placeholder?, Text.takeWhile_append_of_stops h.stops_word,
        Text.dropWhile_append_of_stops h.stops_word]
      cases s.takeWhile Text.isWordChar <;> rfl
    · rw [List.cons_append, placeholder?_cons_of_ne hc, placeholder?_cons_of_ne hc]
      rfl

theorem shortFlag?_of_head? {s : List Char} (h : s.head? ≠ some '-') : shortFlag? s = none := by
  rw [Option.eq_none_iff_forall_ne_some]
  intro x hx
  obtain ⟨c, t, rfl, -⟩ := shortFlag?_eq_some_iff.1 hx
  exact h rfl

theorem longFlag?_of_head? {s : List Char} (h : s.head? ≠ some '-') : longFlag? s = none := by
  rw [Option.eq_none_iff_forall_ne_some]
  intro x hx
  obtain ⟨c, t, rfl, -⟩ := longFlag?_eq_some_iff.1 hx
  exact h rfl

variable {t : List Char}

/-- What was read, with more of the text behind it. -/
def extend {α : Type} (t : List Char) (x : α × Option String × List Char) :
    α × Option String × List Char :=
  (x.1, x.2.1, x.2.2 ++ t)

theorem Plain.head?_ne (h : Plain t) : t.head? ≠ some '-' := fun hhead => (h.ne hhead).1 rfl

theorem longFlag?_append (h : Plain t) (s : List Char) :
    longFlag? (s ++ t) = (longFlag? s).map (extend t) := by
  apply Option.ext
  intro x
  rw [Option.map_eq_some_iff]
  simp only [longFlag?_eq_some_iff]
  constructor
  · rintro ⟨c, u, hs, hc, rfl⟩
    -- A flag that ends in `t` would go on with a dash or a word character of it.
    rcases List.append_eq_cons_iff.1 hs with ⟨-, ht⟩ | ⟨s₁, rfl, hs₁⟩
    · exact absurd (by simp [ht]) h.head?_ne
    rcases List.append_eq_cons_iff.1 hs₁.symm with ⟨-, ht⟩ | ⟨s₂, rfl, hs₂⟩
    · exact absurd (by simp [ht]) h.head?_ne
    rcases List.append_eq_cons_iff.1 hs₂.symm with ⟨-, ht⟩ | ⟨s₃, rfl, rfl⟩
    · exact absurd hc (by simp [h.head c (by simp [ht])])
    refine ⟨_, ⟨c, s₃, rfl, hc, rfl⟩, ?_⟩
    simp only [extend, Text.takeWhile_append_of_stops h.stops_name,
      Text.dropWhile_append_of_stops h.stops_name, placeholder?_append h]
  · rintro ⟨y, ⟨c, u, rfl, hc, rfl⟩, rfl⟩
    refine ⟨c, u ++ t, rfl, hc, ?_⟩
    simp only [extend, Text.takeWhile_append_of_stops h.stops_name,
      Text.dropWhile_append_of_stops h.stops_name, placeholder?_append h]

/-- Whether a short flag can end before a text is all that can be told of it after a heading. -/
structure Alike (t u : List Char) : Prop where
  left : Plain t
  right : Plain u
  ends : endsFlag t = endsFlag u

theorem endsFlag_append {u : List Char} (h : endsFlag t = endsFlag u) (s : List Char) :
    endsFlag (s ++ t) = endsFlag (s ++ u) := by
  cases s with
  | nil => exact h
  | cons c s => rfl

/-- The same short flag and placeholder, or none, before either text. -/
def SameShort (t u : List Char) (x y : Option (Char × Option String × List Char)) : Prop :=
  ∃ o, x = Option.map (extend t) o ∧ y = Option.map (extend u) o

theorem shortFlag?_append {u : List Char} (h : Alike t u) (s : List Char) :
    SameShort t u (shortFlag? (s ++ t)) (shortFlag? (s ++ u)) := by
  match s with
  | [] =>
    exact ⟨none, shortFlag?_of_head? h.left.head?_ne, shortFlag?_of_head? h.right.head?_ne⟩
  | [a] =>
    have hnone : ∀ {v}, Plain v → shortFlag? ([a] ++ v) = none := by
      intro v hv
      rw [Option.eq_none_iff_forall_ne_some]
      intro x hx
      obtain ⟨c, w, hs, hc, -⟩ := shortFlag?_eq_some_iff.1 hx
      obtain ⟨-, rfl⟩ := List.cons.inj hs
      exact absurd hc (by simp [hv.head c rfl])
    exact ⟨none, hnone h.left, hnone h.right⟩
  | a :: c :: s =>
    by_cases ha : a = '-'
    · subst ha
      refine ⟨if Text.isWordChar c && endsFlag (s ++ t) then some (c, placeholder? s) else none,
        ?_, ?_⟩
      · simp only [List.cons_append, shortFlag?, placeholder?_append h.left]
        split <;> rfl
      · simp only [List.cons_append, shortFlag?, placeholder?_append h.right,
          endsFlag_append h.ends]
        split <;> rfl
    · have hnone : ∀ v, shortFlag? (a :: v) = none := fun v =>
        shortFlag?_of_head? (by simpa using ha)
      exact ⟨none, hnone _, hnone _⟩

/-! Blanks before a flag are skipped, and no flag starts in `t`. -/

theorem longFlag?_trimStart_append (h : Plain t) (s : List Char) :
    longFlag? (Text.trimStart (s ++ t)) = (longFlag? (Text.trimStart s)).map (extend t) := by
  by_cases hs : Text.trimStart s = []
  · rw [hs, Text.trimStart_append_of_allBlank (Text.trimStart_eq_nil_iff.1 hs)]
    exact longFlag?_of_head? fun hhead => (h.flag _ hhead).1 rfl
  · rw [Text.trimStart_append_of_ne_nil hs, longFlag?_append h]

theorem shortFlag?_trimStart_append {u : List Char} (h : Alike t u) (s : List Char) :
    SameShort t u (shortFlag? (Text.trimStart (s ++ t)))
      (shortFlag? (Text.trimStart (s ++ u))) := by
  by_cases hs : Text.trimStart s = []
  · have hblank := Text.trimStart_eq_nil_iff.1 hs
    rw [Text.trimStart_append_of_allBlank hblank, Text.trimStart_append_of_allBlank hblank]
    exact ⟨none, shortFlag?_of_head? fun hhead => (h.left.flag _ hhead).1 rfl,
      shortFlag?_of_head? fun hhead => (h.right.flag _ hhead).1 rfl⟩
  · rw [Text.trimStart_append_of_ne_nil hs, Text.trimStart_append_of_ne_nil hs]
    exact shortFlag?_append h _

theorem skipComma_append (h : Plain t) (s : List Char) : skipComma (s ++ t) = skipComma s ++ t := by
  unfold skipComma
  by_cases hs : Text.trimStart s = []
  · rw [hs, Text.trimStart_append_of_allBlank (Text.trimStart_eq_nil_iff.1 hs)]
    split
    · next heq => exact absurd rfl (h.flag ',' (by simp [heq])).2
    · rfl
  · rw [Text.trimStart_append_of_ne_nil hs]
    obtain ⟨c, v, hv⟩ := List.exists_cons_of_ne_nil hs
    rw [hv, List.cons_append]
    by_cases hc : c = ','
    · subst hc
      rfl
    · split
      · next heq =>
        cases heq
        contradiction
      · split
        · next heq =>
          cases heq
          contradiction
        · rfl

theorem shortAfterLong?_append {u : List Char} (h : Alike t u) (s : List Char) :
    SameShort t u (shortAfterLong? (s ++ t)) (shortAfterLong? (s ++ u)) := by
  cases s with
  | nil =>
    have hnone : ∀ {v}, Plain v → shortAfterLong? v = none := by
      intro v hv
      unfold shortAfterLong?
      split
      · exact absurd rfl (hv.ne rfl).2
      · rfl
    exact ⟨none, hnone h.left, hnone h.right⟩
  | cons c s =>
    by_cases hc : c = ','
    · subst hc
      exact shortFlag?_trimStart_append h s
    · have hnone : ∀ v, shortAfterLong? (c :: v) = none := by
        intro v
        unfold shortAfterLong?
        split
        · next heq =>
          cases heq
          contradiction
        · rfl
      exact ⟨none, hnone _, hnone _⟩

/-- **What follows a heading does not matter**, as long as it goes on with no flag and no
placeholder. -/
theorem heading?_append {u : List Char} (h : Alike t u) (s : List Char) :
    heading? (s ++ t) = heading? (s ++ u) := by
  simp only [heading?, read?, longFlag?_trimStart_append h.left, longFlag?_trimStart_append h.right]
  cases hlong : longFlag? (Text.trimStart s) with
  | some x =>
    obtain ⟨name, word, rest⟩ := x
    obtain ⟨o, ht, hu⟩ := shortAfterLong?_append h rest
    simp only [Option.map_some, extend, ht, hu]
    cases o <;> rfl
  | none =>
    obtain ⟨o, ht, hu⟩ := shortFlag?_trimStart_append h s
    simp only [Option.map_none, ht, hu]
    cases o with
    | none => rfl
    | some x =>
      obtain ⟨letter, word, rest⟩ := x
      simp only [Option.map_some, extend, skipComma_append h.left, skipComma_append h.right,
        longFlag?_trimStart_append h.left, longFlag?_trimStart_append h.right]
      cases longFlag? (Text.trimStart (skipComma rest)) <;> rfl

/-! ## What may follow an annotation -/

/-- A character that a default may have. -/
def isValueChar (c : Char) : Bool := !(Text.isBlank c || c == ')')

/-- The word at the start of a text, if a parenthesis closes behind it. -/
def closedWord? (s : List Char) : Option String :=
  if s.takeWhile isValueChar ≠ [] ∧ (s.dropWhile isValueChar).head? = some ')' then
    some (String.ofList (s.takeWhile isValueChar))
  else none

theorem annotated?_eq (s : List Char) :
    annotated? s =
      if (skipColon s).head?.any Text.isBlank then closedWord? (Text.trimStart (skipColon s))
      else none := by
  have hvalue : (fun c => !(Text.isBlank c || c == ')')) = isValueChar := rfl
  unfold annotated?
  dsimp only
  rw [hvalue]
  refine if_congr Iff.rfl ?_ rfl
  unfold closedWord?
  generalize List.takeWhile isValueChar (Text.trimStart (skipColon s)) = word
  generalize List.dropWhile isValueChar (Text.trimStart (skipColon s)) = rest
  split
  · simp
  · next hne => simpa using hne
  · next hclose =>
    rw [if_neg]
    rintro ⟨-, hhead⟩
    obtain ⟨after, rfl⟩ := List.head?_eq_some_iff.1 hhead
    exact hclose after rfl

/-- No parenthesis closes behind the word that this text starts with or goes on with. -/
structure Unclosing (t : List Char) : Prop where
  colon : t.head? ≠ some ':'
  start : (Text.trimStart t |>.dropWhile isValueChar).head? ≠ some ')'
  rest : (t.dropWhile isValueChar).head? ≠ some ')'

theorem closedWord?_eq_none {s : List Char} (h : (s.dropWhile isValueChar).head? ≠ some ')') :
    closedWord? s = none :=
  if_neg fun hs => h hs.2

theorem closedWord?_append (h : (t.dropWhile isValueChar).head? ≠ some ')') (s : List Char) :
    closedWord? (s ++ t) = closedWord? s := by
  by_cases hs : s.dropWhile isValueChar = []
  · -- The word goes on with `t`, where nothing closes behind it.
    rw [closedWord?_eq_none, closedWord?_eq_none]
    · rw [hs]
      exact nofun
    · rwa [List.dropWhile_append_of_pos (List.dropWhile_eq_nil_iff.1 hs)]
  · have htake : (s ++ t).takeWhile isValueChar = s.takeWhile isValueChar := by
      rw [List.takeWhile_append, if_neg]
      intro hlen
      have hall := List.IsPrefix.eq_of_length ⟨_, List.takeWhile_append_dropWhile⟩ hlen
      exact hs (List.dropWhile_eq_nil_iff.2 (List.takeWhile_eq_self_iff.1 hall))
    have hdrop : ((s ++ t).dropWhile isValueChar).head? = (s.dropWhile isValueChar).head? := by
      rw [List.dropWhile_append, if_neg (fun he => hs (List.isEmpty_iff.1 he)),
        List.head?_append_of_ne_nil _ hs]
    rw [closedWord?, closedWord?, htake, hdrop]

theorem skipColon_append (h : t.head? ≠ some ':') (s : List Char) :
    skipColon (s ++ t) = skipColon s ++ t := by
  have hskip : ∀ {v : List Char}, v.head? ≠ some ':' → skipColon v = v := by
    intro v hv
    unfold skipColon
    split
    · exact absurd rfl hv
    · rfl
  cases s with
  | nil => exact hskip h
  | cons c s =>
    by_cases hc : c = ':'
    · subst hc
      rfl
    · rw [hskip (by simpa using hc), hskip (by simpa using hc)]

theorem annotated?_append (h : Unclosing t) (s : List Char) :
    annotated? (s ++ t) = annotated? s := by
  rw [annotated?_eq, annotated?_eq, skipColon_append h.colon]
  cases hs : skipColon s with
  | nil =>
    rw [List.nil_append, closedWord?_eq_none h.start, ite_self]
    rfl
  | cons c u =>
    rw [List.cons_append]
    refine if_congr Iff.rfl ?_ rfl
    by_cases hu : Text.trimStart (c :: u) = []
    · have hblank := Text.trimStart_eq_nil_iff.1 hu
      rw [hu, ← List.cons_append, Text.trimStart_append_of_allBlank hblank,
        closedWord?_eq_none h.start]
      rfl
    · rw [← List.cons_append, Text.trimStart_append_of_ne_nil hu, closedWord?_append h.rest]

/-- **A text that has no annotation and closes none** may follow a description. -/
theorem default?_append_cons {c : Char} (hc : c ∉ defaultMark)
    (hnone : Text.afterLast? defaultMark t = none) (h : Unclosing (c :: t)) (s : List Char) :
    default? (s ++ c :: t) = default? s := by
  have hlast : Text.afterLast? defaultMark (s ++ c :: t) =
      (Text.afterLast? defaultMark s).map (· ++ c :: t) := by
    rw [Text.afterLast?_append_cons (by decide) hc, hnone, Option.none_or]
  rw [default?, default?, hlast]
  cases Text.afterLast? defaultMark s with
  | none => rfl
  | some rest => exact annotated?_append h rest

end Synopsis.Declaration
