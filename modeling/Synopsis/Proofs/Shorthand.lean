import Synopsis.Proofs.Spelling

/-!
# A shorthand and what it stands for

Replacing a shorthand by what it stands for changes no answer of matching, whatever the argument
list has around it (`Usage.fit_spell`). Only the offsets of failures move, because the list becomes
longer: all parts of the shorthand fall together on its own offset (`collapse`), and what comes
after is counted from there.

Matching never looks at offsets. So it gives the same answer for tokens whose offsets are moved by
any map, and a failure is moved with its token (the lemmas on `relocate`). The two argument lists
then have the same spelled-out tokens.
-/

namespace Synopsis

/-! ## Moving offsets -/

/-- The token at another offset. -/
def Token.relocate (f : Nat → Nat) (t : Token) : Token := ⟨f t.offset, t.text⟩

/-- The chunk with its tokens at other offsets. -/
def Chunk.relocate (f : Nat → Nat) (c : Chunk) : Chunk :=
  ⟨c.leader.relocate f, c.values.map (Token.relocate f)⟩

/-- The failure at another offset. -/
def Failure.relocate (f : Nat → Nat) (failure : Failure) : Failure :=
  ⟨f failure.offset, failure.error⟩

/-- The resolution with the values that are left over at other offsets. -/
def Resolution.relocate (f : Nat → Nat) (r : Resolution) : Resolution :=
  ⟨r.found, r.pending.map (Token.relocate f), r.lastValued⟩

theorem Chunk.cut_relocate (f : Nat → Nat) (ts : List Token) :
    cut (ts.map (Token.relocate f)) =
      ((cut ts).1.map (Token.relocate f), (cut ts).2.map (relocate f)) := by
  induction ts with
  | nil => rfl
  | cons t ts ih =>
    rw [List.map_cons]
    cases ht : t.isDashed with
    | true =>
      have ht' : (t.relocate f).isDashed = true := ht
      rw [cut_cons_dashed ht, cut_cons_dashed ht', ih]
      rfl
    | false =>
      have ht' : (t.relocate f).isDashed = false := ht
      rw [cut_cons_value ht, cut_cons_value ht', ih]
      rfl

namespace Token

@[simp] theorem relocate_text (f : Nat → Nat) (t : Token) : (t.relocate f).text = t.text := rfl

theorem spell_relocate (f : Nat → Nat) (usage : Usage) (t : Token) :
    (t.relocate f).spell usage = (t.spell usage).map (relocate f) := by
  rw [spell, spell, List.map_map]
  rfl

theorem flatMap_spell_relocate (f : Nat → Nat) (usage : Usage) (ts : List Token) :
    (ts.map (relocate f)).flatMap (spell usage) =
      (ts.flatMap (spell usage)).map (relocate f) := by
  rw [List.flatMap_map, List.map_flatMap]
  exact List.flatMap_congr fun t _ => spell_relocate f usage t

theorem groupFault?_relocate (f : Nat → Nat) (usage : Usage) (t : Token) :
    (t.relocate f).groupFault? usage = (t.groupFault? usage).map (Failure.relocate f) := by
  rw [groupFault?, groupFault?, Option.map_bind]
  refine congrArg (Option.bind _) (funext fun letters => ?_)
  rw [Function.comp_apply, Option.map_map]
  rfl

theorem unknownFault?_relocate (f : Nat → Nat) (usage : Usage) (t : Token) :
    (t.relocate f).unknownFault? usage = (t.unknownFault? usage).map (Failure.relocate f) := by
  by_cases h : usage.Undeclared t.text <;> simp [unknownFault?, h, Failure.relocate, relocate]

/-- The first fault among moved tokens is the first fault, moved. -/
theorem findSome?_relocate {f : Nat → Nat} {fault? : Token → Option Failure}
    (h : ∀ t, fault? (t.relocate f) = (fault? t).map (Failure.relocate f)) (ts : List Token) :
    (ts.map (relocate f)).findSome? fault? = (ts.findSome? fault?).map (Failure.relocate f) := by
  induction ts with
  | nil => rfl
  | cons t ts ih =>
    rw [List.map_cons, List.findSome?_cons, List.findSome?_cons, h, ih]
    cases fault? t <;> rfl

end Token

namespace Resolution

theorem settle_relocate (f : Nat → Nat) (usage : Usage) (found : Matches) (c : Chunk) :
    settle usage found (c.relocate f) =
      ((settle usage found c).mapError (Failure.relocate f)).map (relocate f) := by
  have htext : (c.relocate f).leader.text = c.leader.text := rfl
  rw [settle, settle, htext]
  cases usage.option? c.leader.text with
  | none => rfl
  | some spec =>
    dsimp only
    cases spec.kind? with
    | none => rfl
    | some kind =>
      have hvalues : (c.relocate f).values = c.values.map (Token.relocate f) := rfl
      rw [hvalues]
      cases c.values with
      | nil => rfl
      | cons v rest =>
        simp only [List.map_cons, Token.relocate_text]
        cases kind.coerce? v.text <;> rfl

theorem step_relocate (f : Nat → Nat) (usage : Usage) (r : Resolution) (c : Chunk) :
    step usage (r.relocate f) (c.relocate f) =
      ((step usage r c).mapError (Failure.relocate f)).map (relocate f) := by
  obtain ⟨found, pending, lastValued⟩ := r
  cases pending with
  | nil => exact settle_relocate f usage found c
  | cons v rest => rfl

/-- Resolving moved chunks is resolving the chunks, and moving what comes out. -/
theorem run_relocate (f : Nat → Nat) (usage : Usage) (r : Resolution) (cs : List Chunk) :
    run usage (r.relocate f) (cs.map (Chunk.relocate f)) =
      ((run usage r cs).mapError (Failure.relocate f)).map (relocate f) := by
  induction cs generalizing r with
  | nil => rfl
  | cons c cs ih =>
    rw [List.map_cons, run, run, step_relocate]
    cases step usage r c with
    | error failure => rfl
    | ok r' => exact ih r'

end Resolution

theorem Positional.checkCount_relocate (f : Nat → Nat) (bound : Bound) (values : List Token)
    (hint : Option String) (stop : Nat) :
    checkCount bound (values.map (Token.relocate f)) hint (f stop) =
      (checkCount bound values hint stop).mapError (Failure.relocate f) := by
  have hlower : ∀ lower, checkLower lower (values.map (Token.relocate f)) hint (f stop) =
      (checkLower lower values hint stop).mapError (Failure.relocate f) := by
    intro lower
    rw [checkLower, checkLower, List.length_map]
    split <;> rfl
  cases bound with
  | atLeast lower => exact hlower lower
  | range lower upper =>
    rw [checkCount, checkCount, List.length_map, List.getElem?_map]
    by_cases hup : upper < values.length
    · rw [if_pos hup, if_pos hup]
      cases values[upper]? <;> rfl
    · rw [if_neg hup, if_neg hup]
      exact hlower lower

theorem Usage.complete_relocate {usage : Usage} (hc : Coherent usage.arguments) (f : Nat → Nat)
    (leading : List Token) (cs : List Chunk) (stop : Nat) :
    usage.complete (leading.map (Token.relocate f)) (cs.map (Chunk.relocate f)) (f stop) =
      (usage.complete leading cs stop).mapError (Failure.relocate f) := by
  have hrun := Resolution.run_relocate f usage ⟨.ofDefaults usage.defaults, leading, none⟩ cs
  rw [Resolution.relocate] at hrun
  rw [complete, complete, hrun]
  cases Resolution.run usage ⟨.ofDefaults usage.defaults, leading, none⟩ cs with
  | error failure => rfl
  | ok r =>
    obtain ⟨found, pending, lastValued⟩ := r
    have hcount := Positional.checkCount_relocate f usage.bound pending lastValued stop
    simp only [Except.mapError, Except.map, Resolution.relocate, hcount]
    cases hok : Positional.checkCount usage.bound pending lastValued stop with
    | error failure => rfl
    | ok =>
      -- Binding would report places of its own, but it does not fail after the count.
      have htakes := (bound_accepts_iff hc _).1 (Positional.checkCount_eq_ok_iff.1 hok)
      have htakes' : usage.Takes (pending.map (Token.relocate f)).length := by
        rwa [List.length_map]
      show Positional.bind usage found (pending.map (Token.relocate f)) = _
      rw [Positional.bind_eq_ok hc htakes', Positional.bind_eq_ok hc htakes, List.map_map]
      rfl

/-- **Matching does not look at offsets.** If the tokens are moved, so is the failure. -/
theorem Usage.fitTokens_relocate {usage : Usage} (hc : Coherent usage.arguments) (f : Nat → Nat)
    (ts : List Token) (stop : Nat) :
    usage.fitTokens (ts.map (Token.relocate f)) (f stop) =
      (usage.fitTokens ts stop).mapError (Failure.relocate f) := by
  rw [fitTokens, fitTokens, Token.findSome?_relocate (Token.groupFault?_relocate f usage),
    Token.findSome?_relocate (Token.unknownFault?_relocate f usage), Token.flatMap_spell_relocate,
    Chunk.cut_relocate]
  dsimp only
  rw [complete_relocate hc]
  cases ts.findSome? (Token.groupFault? usage) with
  | some failure => rfl
  | none =>
    cases ts.findSome? (Token.unknownFault? usage) with
    | some failure => rfl
    | none =>
      dsimp only [Option.map_none]
      cases usage.complete (Chunk.cut (ts.flatMap (Token.spell usage))).1
        (Chunk.cut (ts.flatMap (Token.spell usage))).2 stop <;> rfl

/-! ## Replacing a token by what it stands for -/

/-- Where an offset goes when the `count` tokens from `start` on become one. -/
def collapse (start count offset : Nat) : Nat :=
  if offset < start then offset
  else if offset < start + count then start
  else offset - (count - 1)

namespace Token

theorem numberedFrom_append (offset : Nat) (xs ys : List String) :
    numberedFrom offset (xs ++ ys) =
      numberedFrom offset xs ++ numberedFrom (offset + xs.length) ys := by
  induction xs generalizing offset with
  | nil => rfl
  | cons x xs ih =>
    rw [List.cons_append, numberedFrom, numberedFrom, ih, List.length_cons, List.cons_append]
    congr 3
    omega

theorem map_relocate_numberedFrom {f : Nat → Nat} {offset offset' : Nat} {xs : List String}
    (h : ∀ i < xs.length, f (offset + i) = offset' + i) :
    (numberedFrom offset xs).map (relocate f) = numberedFrom offset' xs := by
  apply List.ext_getElem?
  intro i
  rw [List.getElem?_map, getElem?_numberedFrom, getElem?_numberedFrom, Option.map_map]
  by_cases hi : i < xs.length
  · simp [hi, relocate, h i hi]
  · simp [hi]

theorem map_relocate_constant {f : Nat → Nat} {offset place : Nat} {xs : List String}
    (h : ∀ i < xs.length, f (offset + i) = place) :
    (numberedFrom offset xs).map (relocate f) = xs.map fun text => ⟨place, text⟩ := by
  apply List.ext_getElem?
  intro i
  rw [List.getElem?_map, getElem?_numberedFrom, List.getElem?_map, Option.map_map]
  by_cases hi : i < xs.length
  · simp [hi, relocate, h i hi]
  · simp [hi]

/-- Once the parts of a token have fallen together, the longer list is the shorter one with the
token replaced by its parts. -/
theorem map_collapse_numbered (before parts after : List String) (hparts : parts ≠ []) :
    (numbered (before ++ parts ++ after)).map (relocate (collapse before.length parts.length)) =
      numbered before ++ parts.map (fun text => ⟨before.length, text⟩) ++
        numberedFrom (before.length + 1) after := by
  have hpos : 0 < parts.length := List.length_pos_iff.2 hparts
  rw [numbered, numberedFrom_append, numberedFrom_append, List.map_append, List.map_append,
    List.length_append]
  congr 1
  · congr 1
    · apply map_relocate_numberedFrom
      intro i hi
      rw [collapse, if_pos (by omega)]
    · apply map_relocate_constant
      intro i hi
      rw [collapse, if_neg (by omega), if_pos (by omega)]
  · apply map_relocate_numberedFrom
    intro i hi
    rw [collapse, if_neg (by omega), if_neg (by omega)]
    omega

/-- A search that finds in the parts of a token what it finds in the token does not see whether
the token is spelled out. -/
theorem findSome?_replace {β : Type} {f : Token → Option β} {t : Token} {parts : List Token}
    (h : parts.findSome? f = f t) (xs ys : List Token) :
    (xs ++ parts ++ ys).findSome? f = (xs ++ t :: ys).findSome? f := by
  rw [List.findSome?_append, List.findSome?_append, List.findSome?_append, List.findSome?_cons, h]
  cases xs.findSome? f with
  | some b => rfl
  | none => cases f t <;> rfl

end Token

namespace Usage

variable {usage : Usage}

theorem spell_ne_nil (usage : Usage) (text : String) : usage.spell text ≠ [] := by
  rcases usage.spell_cases text with ⟨letters, hl⟩ | ⟨digits, hn, hd⟩ | hplain
  · rw [spell_group hl]
    intro hnil
    have hlen := (Chunk.groupLetters?_eq_some_iff.1 hl).2.1
    rw [List.map_eq_nil_iff.1 hnil] at hlen
    simp at hlen
  · rw [spell_number hn hd]
    exact List.cons_ne_nil _ _
  · rw [spell_plain hplain]
    exact List.cons_ne_nil _ _

/-- A request for help is not spelled out as anything else. -/
theorem ne_help_of_spell {text : String} (hshort : "-h" ∉ usage.spell text)
    (hlong : "--help" ∉ usage.spell text) : "-h" ≠ text ∧ "--help" ≠ text := by
  have hplain : ∀ help ∈ ["-h", "--help"], ¬usage.IsShorthand help := by
    have hgroup : ∀ help ∈ ["-h", "--help"], Chunk.groupLetters? help = none := by decide
    have hnumber : ∀ help ∈ ["-h", "--help"], Chunk.numberDigits? help = none := by decide
    intro help hmem
    simp [IsShorthand, hgroup help hmem, hnumber help hmem]
  constructor
  · rintro rfl
    simp [spell_plain (hplain "-h" (by simp))] at hshort
  · rintro rfl
    simp [spell_plain (hplain "--help" (by simp))] at hlong

/-- A token whose letters are all declared can be replaced by its parts, if these are at its
offset. -/
theorem fitTokens_spell {t : Token} (hgroup : t.groupFault? usage = none) (xs ys : List Token)
    (stop : Nat) :
    usage.fitTokens (xs ++ t.spell usage ++ ys) stop = usage.fitTokens (xs ++ t :: ys) stop := by
  have hparts : (t.spell usage).findSome? (Token.groupFault? usage) = t.groupFault? usage := by
    rw [hgroup, List.findSome?_eq_none_iff]
    intro s hs
    rw [Token.groupFault?_eq_none_iff]
    rintro ⟨letters, hl, -⟩
    exact Token.not_isShorthand_of_mem_spell hs (.inl (by simp [hl]))
  have hspelled : (xs ++ t.spell usage ++ ys).flatMap (Token.spell usage) =
      (xs ++ t :: ys).flatMap (Token.spell usage) := by
    simp only [List.flatMap_append, List.flatMap_cons, Token.flatMap_spell_spell,
      List.append_assoc]
  rw [fitTokens, fitTokens, Token.findSome?_replace hparts,
    Token.findSome?_replace (Token.findSome?_unknownFault?_spell hgroup), hspelled]

/-- **A text and what it is spelled out as are interchangeable**, if it asks for no help and is no
group with an unknown letter. -/
theorem fit_spell (hc : Coherent usage.arguments) {text : String}
    (hgroup : ¬usage.UnknownGroup text) (hshort : "-h" ∉ usage.spell text)
    (hlong : "--help" ∉ usage.spell text) (before after : List String) :
    usage.fit (before ++ text :: after) =
      (usage.fit (before ++ usage.spell text ++ after)).mapError
        (Failure.relocate (collapse before.length (usage.spell text).length)) := by
  have hne := usage.spell_ne_nil text
  have hmoved := Token.map_collapse_numbered before (usage.spell text) after hne
  have hstop : collapse before.length (usage.spell text).length
      (before ++ usage.spell text ++ after).length = (before ++ text :: after).length := by
    have hpos : 0 < (usage.spell text).length := List.length_pos_iff.2 hne
    simp only [collapse, List.length_append, List.length_cons]
    rw [if_neg (by omega), if_neg (by omega)]
    omega
  have hasks : ("-h" ∈ before ++ text :: after ∨ "--help" ∈ before ++ text :: after) ↔
      ("-h" ∈ before ++ usage.spell text ++ after ∨
        "--help" ∈ before ++ usage.spell text ++ after) := by
    obtain ⟨hne, hne'⟩ := ne_help_of_spell hshort hlong
    simp only [List.mem_append, List.mem_cons, hshort, hlong, hne, hne', false_or, or_false]
  rw [fit_eq, fit_eq]
  by_cases hask : "-h" ∈ before ++ text :: after ∨ "--help" ∈ before ++ text :: after
  · rw [if_pos hask, if_pos (hasks.1 hask)]
    rfl
  · -- Once its offsets are moved, the longer list has the parts in the place of the token.
    let t : Token := ⟨before.length, text⟩
    have hnone : t.groupFault? usage = none := Token.groupFault?_eq_none_iff.2 hgroup
    have htokens : Token.numbered (before ++ text :: after) =
        Token.numbered before ++ t :: Token.numberedFrom (before.length + 1) after := by
      rw [Token.numbered, Token.numberedFrom_append, Token.numberedFrom, Nat.zero_add]
      rfl
    rw [if_neg hask, if_neg fun h => hask (hasks.2 h), ← fitTokens_relocate hc, hmoved, hstop,
      htokens]
    exact (fitTokens_spell hnone _ _ _).symm

/-- **A group is its letters.** In any argument list, a group of declared short flags can be
written as separate flags. The answer stays the same, and a failure is reported at the same token;
all letters of the group are one token. -/
theorem fit_group_eq_letters {given : Option String} {source : String}
    (h : read given source = .ok usage)
    (letters : List Char) (hlen : 2 ≤ letters.length) (halpha : ∀ c ∈ letters, c.isAlpha = true)
    (hknown : ∀ c ∈ letters, (usage.option? (Flags.shortToken c)).isSome) (hh : 'h' ∉ letters)
    (before after : List String) :
    usage.fit (before ++ String.ofList ('-' :: letters) :: after) =
      (usage.fit (before ++ letters.map Flags.shortToken ++ after)).mapError
        (Failure.relocate (collapse before.length letters.length)) := by
  have hl : Chunk.groupLetters? (String.ofList ('-' :: letters)) = some letters :=
    Chunk.groupLetters?_eq_some_iff.2 ⟨rfl, hlen, List.all_eq_true.2 halpha⟩
  have hgroup : ¬usage.UnknownGroup (String.ofList ('-' :: letters)) := by
    rintro ⟨letters', hl', c, hc, hnone⟩
    obtain rfl : letters = letters' := Option.some.inj (hl.symm.trans hl')
    have hsome := hknown c hc
    rw [hnone] at hsome
    cases hsome
  have hshort : "-h" ∉ usage.spell (String.ofList ('-' :: letters)) := by
    rw [spell_group hl, List.mem_map]
    rintro ⟨c, hc, he⟩
    have hletter : c = 'h' := Flags.shortToken_inj.1 he
    exact hh (hletter ▸ hc)
  have hlong : "--help" ∉ usage.spell (String.ofList ('-' :: letters)) := by
    rw [spell_group hl, List.mem_map]
    rintro ⟨c, hc, he⟩
    have hlist := congrArg String.toList he
    simp [Flags.shortToken] at hlist
  have hfit := fit_spell (coherent_of_read h) hgroup hshort hlong before after
  rwa [spell_group hl, List.length_map] at hfit

/-- There is one value too many after the group, at offset 4, or at offset 5 after its letters. -/
theorem fit_group_eq_letters_excess :
    ∃ usage, read none "Usage: p [-q] [-v] [-n NUM] file" = .ok usage ∧
      usage.fit ["-n", "3", "-vq", "a", "b"] = .error ⟨4, .tooManyArguments 1 1⟩ ∧
      usage.fit ["-n", "3", "-v", "-q", "a", "b"] = .error ⟨5, .tooManyArguments 1 1⟩ := by
  let usage : Usage :=
    { program := "p"
      message := "Usage: p [-q] [-v] [-n NUM] file"
      arguments := [⟨"file", .required⟩]
      options := [⟨"q", .short 'q', none⟩, ⟨"v", .short 'v', none⟩, ⟨"n", .short 'n', some "NUM"⟩]
      flagTable := NameMap.empty.insertAll [("-q", 0), ("-v", 1), ("-n", 2)]
      defaults := .empty }
  have hread : read none "Usage: p [-q] [-v] [-n NUM] file" = .ok usage := by decide +kernel
  have hletters : usage.fit ["-n", "3", "-v", "-q", "a", "b"] =
      .error ⟨5, .tooManyArguments 1 1⟩ := by decide +kernel
  have hknown : ∀ c ∈ ['v', 'q'], (usage.option? (Flags.shortToken c)).isSome :=
    List.all_eq_true.1 (by decide +kernel)
  have hgroup := fit_group_eq_letters hread ['v', 'q'] (by decide)
    (List.all_eq_true.1 (by decide)) hknown (by decide)
    ["-n", "3"] ["a", "b"]
  have hshort : ["-n", "3"] ++ String.ofList ['-', 'v', 'q'] :: ["a", "b"] =
      ["-n", "3", "-vq", "a", "b"] := by decide
  have hlong : ["-n", "3"] ++ ['v', 'q'].map Flags.shortToken ++ ["a", "b"] =
      ["-n", "3", "-v", "-q", "a", "b"] := by decide
  rw [hshort, hlong, hletters] at hgroup
  exact ⟨usage, hread, hgroup, hletters⟩

/-- A number and `-n` with its digits are interchangeable, if `-n` takes a value. -/
theorem fit_spell_number (hc : Coherent usage.arguments) (hn : Chunk.numericAllowed usage = true)
    {text : String} {digits : List Char} (hd : Chunk.numberDigits? text = some digits)
    (before after : List String) :
    usage.fit (before ++ text :: after) =
      (usage.fit (before ++ ["-n", String.ofList digits] ++ after)).mapError
        (Failure.relocate (collapse before.length 2)) := by
  have hgroup : ¬usage.UnknownGroup text := by
    rintro ⟨letters, hl, -⟩
    rw [Chunk.groupLetters?_of_isDigit hd] at hl
    cases hl
  have hnohelp : ∀ help, ¬IsValue help → "-n" ≠ help → help ∉ usage.spell text := by
    intro help hdash hne hmem
    rw [spell_number hn hd, List.mem_pair] at hmem
    rcases hmem with he | he
    · exact hne he.symm
    · have hdigits := (Chunk.numberDigits?_eq_some_iff.1 hd).2.2
      exact hdash (he ▸ isValue_of_isDigit hdigits)
  have hfit := fit_spell hc hgroup (hnohelp "-h" (by decide) (by decide))
    (hnohelp "--help" (by decide) (by decide)) before after
  rwa [spell_number hn hd] at hfit

/-- **A number is `-n` with a value.** In any argument list, a dash and digits can be written as
`-n` and the digits, if `-n` takes a value. The answer stays the same, and a failure is reported at
the same token; the digits belong to the token of the number. -/
theorem fit_number_eq_valued {given : Option String} {source : String}
    (h : read given source = .ok usage)
    {o : OptionSpec} (ho : usage.option? "-n" = some o) (hp : o.placeholder.isSome)
    (digits : List Char) (hne : digits ≠ []) (hdigits : ∀ c ∈ digits, c.isDigit = true)
    (before after : List String) :
    usage.fit (before ++ String.ofList ('-' :: digits) :: after) =
      (usage.fit (before ++ ["-n", String.ofList digits] ++ after)).mapError
        (Failure.relocate fun j => if j ≤ before.length then j else j - 1) := by
  have hn := numericAllowed_iff.2 ⟨o, ho, hp⟩
  have hd : Chunk.numberDigits? (String.ofList ('-' :: digits)) = some digits :=
    Chunk.numberDigits?_eq_some_iff.2 ⟨rfl, hne, List.all_eq_true.2 hdigits⟩
  have hmap : collapse before.length 2 = fun j => if j ≤ before.length then j else j - 1 := by
    funext j
    simp only [collapse]
    split_ifs <;> omega
  rw [← hmap]
  exact fit_spell_number (coherent_of_read h) hn hd before after

/-- The digits are no date; they stand at offset 1 if they are written apart. -/
theorem fit_number_eq_valued_no_date :
    ∃ usage, read none "Usage: p [-n DATE] file" = .ok usage ∧
      usage.fit ["-5", "a"] = .error ⟨0, .invalidTypedValue "5" "-n" .date⟩ ∧
      usage.fit ["-n", "5", "a"] = .error ⟨1, .invalidTypedValue "5" "-n" .date⟩ := by
  let usage : Usage :=
    { program := "p"
      message := "Usage: p [-n DATE] file"
      arguments := [⟨"file", .required⟩]
      options := [⟨"n", .short 'n', some "DATE"⟩]
      flagTable := NameMap.empty.insertAll [("-n", 0)]
      defaults := .empty }
  have hread : read none "Usage: p [-n DATE] file" = .ok usage := by decide +kernel
  have hoption : usage.option? "-n" = some ⟨"n", .short 'n', some "DATE"⟩ := by decide +kernel
  have happart : usage.fit ["-n", "5", "a"] = .error ⟨1, .invalidTypedValue "5" "-n" .date⟩ := by
    decide +kernel
  have hnumber := fit_number_eq_valued hread hoption rfl ['5'] (by decide)
    (List.all_eq_true.1 (by decide)) [] ["a"]
  have hshort : [] ++ String.ofList ['-', '5'] :: ["a"] = ["-5", "a"] := by decide
  have hlong : [] ++ ["-n", String.ofList ['5']] ++ ["a"] = ["-n", "5", "a"] := by decide
  rw [hshort, hlong, happart] at hnumber
  exact ⟨usage, hread, hnumber, happart⟩

end Usage

end Synopsis
