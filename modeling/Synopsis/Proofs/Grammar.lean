import Synopsis.Proofs.LatestDeclaration
import Synopsis.Proofs.PositionalBinding
import Synopsis.Proofs.Selections

/-!
# The grammar of argument lists

An argument list is a sequence of *items* and then the positional values. An item is a flag, a
group of short flags or a number, with the value that its last option takes. A `Reading` is such
a division of an argument list in which every item calls declared options in the way they were
declared. Matching accepts exactly the argument lists that have a reading.

Matching works on chunks, which take in all values up to the next dash, and items end earlier. So
the proof goes chunk by chunk: what one chunk stands for resolves exactly if the chunk is an item
and the values that are left over (`Resolution.run_written_eq_ok_iff`), and the next chunk can be
taken in only if there are no such values.
-/

namespace Synopsis

/-! ## Flags that select an option -/

theorem ofList_dash_inj {cs ds : List Char} :
    String.ofList ('-' :: cs) = String.ofList ('-' :: ds) ↔ cs = ds := by
  rw [String.ofList_inj, List.cons.injEq, and_iff_right rfl]

namespace Usage

variable {usage : Usage}

/-- A declared flag is a short flag or a long one. -/
theorem flag_of_option? {flag : String} {o : OptionSpec} (hi : usage.Indexed)
    (h : usage.option? flag = some o) :
    (∃ c, flag = Flags.shortToken c) ∨ ∃ l, flag = Flags.longToken l := by
  rcases Flags.mem_tokens.1 (hi.option?_eq_some_iff.1 h).2 with ⟨c, -, hc⟩ | ⟨l, -, hl⟩
  · exact .inl ⟨c, hc⟩
  · exact .inr ⟨l, hl⟩

/-- A declared flag is not a group: it has one letter, or a second dash. -/
theorem groupLetters?_of_option? {flag : String} {o : OptionSpec} (hi : usage.Indexed)
    (h : usage.option? flag = some o) : Chunk.groupLetters? flag = none := by
  rw [Option.eq_none_iff_forall_ne_some]
  intro letters hl
  obtain ⟨hflag, hlen, halpha⟩ := Chunk.groupLetters?_eq_some_iff.1 hl
  rcases flag_of_option? hi h with ⟨c, hc⟩ | ⟨l, hlong⟩
  · rw [hflag, Flags.shortToken, ofList_dash_inj] at hc
    simp [hc] at hlen
  · rw [hflag] at hlong
    have hdash : letters = '-' :: l.toList := by
      simpa [Flags.longToken] using congrArg String.toList hlong
    simp [hdash] at halpha

/-- A declared flag that is a number is a dash and one digit. -/
theorem exists_digit_of_number {flag : String} {o : OptionSpec} (hi : usage.Indexed)
    (ho : usage.option? flag = some o) {digits : List Char}
    (hd : Chunk.numberDigits? flag = some digits) :
    ∃ c, c.isDigit = true ∧ flag = Flags.shortToken c := by
  obtain ⟨hflag, -, hdigits⟩ := Chunk.numberDigits?_eq_some_iff.1 hd
  rcases flag_of_option? hi ho with ⟨c, hc⟩ | ⟨l, hlong⟩
  · rw [hflag, Flags.shortToken, ofList_dash_inj] at hc
    exact ⟨c, by simpa [hc] using hdigits, by rw [hflag, hc, Flags.shortToken]⟩
  · -- The second dash of a long flag is no digit.
    rw [hflag] at hlong
    have hdash : digits = '-' :: l.toList := by
      simpa [Flags.longToken] using congrArg String.toList hlong
    simp [hdash] at hdigits

/-- A declared flag starts with a dash. -/
theorem head?_of_option? {flag : String} {o : OptionSpec} (hi : usage.Indexed)
    (h : usage.option? flag = some o) : flag.toList.head? = some '-' := by
  rcases flag_of_option? hi h with ⟨c, rfl⟩ | ⟨l, rfl⟩
  · simp [Flags.shortToken]
  · simp [Flags.longToken]

theorem numericAllowed_iff :
    Chunk.numericAllowed usage = true ↔
      ∃ n, usage.option? "-n" = some n ∧ n.placeholder.isSome = true :=
  Option.any_eq_true ..

/-- A number selects something only if numbers are allowed. -/
theorem numericAllowed_of_select {raw : String}
    (h : (usage.select? ⟨Chunk.numericFlag, some raw⟩).isSome) : Chunk.numericAllowed usage := by
  obtain ⟨s, hs⟩ := Option.isSome_iff_exists.1 h
  obtain ⟨o, kind, value, hopt, hkind, -⟩ := select?_valued_iff.1 hs
  obtain ⟨placeholder, hp, -⟩ := Option.map_eq_some_iff.1 hkind
  exact numericAllowed_iff.2 ⟨o, hopt, by rw [hp]; rfl⟩

/-- Where numbers are allowed, `-n` takes a value. -/
theorem select?_numericFlag_none (h : Chunk.numericAllowed usage) :
    usage.select? ⟨Chunk.numericFlag, none⟩ = none := by
  rw [Option.eq_none_iff_forall_ne_some]
  intro s hs
  obtain ⟨o, hopt, hkind, -⟩ := select?_switch_iff.1 hs
  rw [OptionSpec.kind?, Option.map_eq_none_iff] at hkind
  simp [Chunk.numericAllowed, hopt, hkind] at h

end Usage

/-! ## Items -/

/-- The text does not start with a dash. -/
def IsValue (text : String) : Prop := text.toList.head? ≠ some '-'

instance (text : String) : Decidable (IsValue text) :=
  inferInstanceAs (Decidable (text.toList.head? ≠ some '-'))

theorem Token.isDashed_eq_false_iff {t : Token} : t.isDashed = false ↔ IsValue t.text := by
  rw [isDashed, IsValue, decide_eq_false_iff_not]

/-- A part of an argument list that calls options. -/
inductive Item where
  /-- A flag, with a value if its option takes one. -/
  | single (flag : String) (raw : Option String)
  /-- A group of short flags, with a value if the last option takes one. -/
  | group (letters : List Char) (raw : Option String)
  /-- A number, which stands for the option `-n` and its value. -/
  | number (digits : List Char)
deriving DecidableEq

namespace Item

/-- The token at the head of the item. -/
def leader : Item → String
  | .single flag _ => flag
  | .group letters _ => String.ofList ('-' :: letters)
  | .number digits => String.ofList ('-' :: digits)

/-- The value that follows the leader as a token of its own. -/
def raw? : Item → Option String
  | .single _ raw => raw
  | .group _ raw => raw
  | .number _ => none

/-- The tokens of the item. -/
def tokens (item : Item) : List String := item.leader :: item.raw?.toList

/-- The uses of the letters of a group; the last one has the value. -/
def letterUses (raw : Option String) : List Char → List FlagUse
  | [] => []
  | [c] => [⟨Flags.shortToken c, raw⟩]
  | c :: rest => ⟨Flags.shortToken c, none⟩ :: letterUses raw rest

/-- The uses of flags that the item stands for. -/
def uses : Item → List FlagUse
  | .single flag raw => [⟨flag, raw⟩]
  | .group letters raw => letterUses raw letters
  | .number digits => [⟨Chunk.numericFlag, some (String.ofList digits)⟩]

/-- The item is spelled as its form asks for. A flag that is a dash and digits is a number
whenever `-n` takes a value. -/
def WellFormed (usage : Usage) : Item → Prop
  | .single flag _ => Chunk.numericAllowed usage → Chunk.numberDigits? flag = none
  | .group letters _ => 2 ≤ letters.length ∧ letters.all Char.isAlpha
  | .number digits => digits ≠ [] ∧ digits.all Char.isDigit

instance (usage : Usage) : (item : Item) → Decidable (item.WellFormed usage)
  | .single flag _ =>
    inferInstanceAs (Decidable (Chunk.numericAllowed usage → Chunk.numberDigits? flag = none))
  | .group letters _ =>
    inferInstanceAs (Decidable (2 ≤ letters.length ∧ letters.all Char.isAlpha))
  | .number digits => inferInstanceAs (Decidable (digits ≠ [] ∧ digits.all Char.isDigit))

/-- The item calls declared options in the way they were declared: each of its flags selects an
option, and its value does not start with a dash. -/
structure Fits (usage : Usage) (item : Item) : Prop where
  wellFormed : item.WellFormed usage
  value : ∀ raw ∈ item.raw?, IsValue raw
  selects : ∀ use ∈ item.uses, (usage.select? use).isSome

instance (usage : Usage) (item : Item) : Decidable (item.Fits usage) :=
  decidable_of_iff
    (item.WellFormed usage ∧ (∀ raw ∈ item.raw?, IsValue raw) ∧
      ∀ use ∈ item.uses, (usage.select? use).isSome)
    ⟨fun h => ⟨h.1, h.2.1, h.2.2⟩, fun h => ⟨h.1, h.2, h.3⟩⟩

section

variable {usage : Usage} {item : Item}

/-! The leader tells the form of an item that fits. -/

theorem Fits.eq_group (h : item.Fits usage) (hi : usage.Indexed) {letters : List Char}
    (hl : Chunk.groupLetters? item.leader = some letters) : item = .group letters item.raw? := by
  obtain ⟨hleader, -, halpha⟩ := Chunk.groupLetters?_eq_some_iff.1 hl
  cases item with
  | single flag raw =>
    have hselects := h.selects ⟨flag, raw⟩ (List.mem_singleton.2 rfl)
    obtain ⟨o, hopt⟩ := Option.isSome_iff_exists.1 (Usage.isSome_option?_of_select hselects)
    rw [leader, Usage.groupLetters?_of_option? hi hopt] at hl
    cases hl
  | group cs raw => rw [ofList_dash_inj.1 hleader]; rfl
  | number digits =>
    have hdigits := Chunk.numberDigits?_eq_some_iff.2 ⟨rfl, h.wellFormed⟩
    rw [ofList_dash_inj.1 hleader, Chunk.numberDigits?_of_isAlpha halpha] at hdigits
    cases hdigits

theorem Fits.eq_number (h : item.Fits usage) (hn : Chunk.numericAllowed usage)
    {digits : List Char} (hd : Chunk.numberDigits? item.leader = some digits) :
    item = .number digits := by
  cases item with
  | single flag raw =>
    have hnone : Chunk.numberDigits? flag = none := h.wellFormed hn
    rw [leader, hnone] at hd
    cases hd
  | group letters raw =>
    rw [leader, Chunk.numberDigits?_of_isAlpha h.wellFormed.2] at hd
    cases hd
  | number ds => rw [ofList_dash_inj.1 (Chunk.numberDigits?_eq_some_iff.1 hd).1]

theorem Fits.eq_single (h : item.Fits usage) (hl : Chunk.groupLetters? item.leader = none)
    (hd : Chunk.numericAllowed usage → Chunk.numberDigits? item.leader = none) :
    item = .single item.leader item.raw? := by
  cases item with
  | single flag raw => rfl
  | group letters raw =>
    rw [leader, Chunk.groupLetters?_eq_some_iff.2 ⟨rfl, h.wellFormed⟩] at hl
    cases hl
  | number digits =>
    have hselects := h.selects _ (List.mem_singleton.2 rfl)
    have hnone := hd (Usage.numericAllowed_of_select hselects)
    rw [leader, Chunk.numberDigits?_eq_some_iff.2 ⟨rfl, h.wellFormed⟩] at hnone
    cases hnone

end

end Item

/-! ## From chunks to items -/

/-- The chunk is the item, and these values that the item does not take. -/
structure Chunk.IsItem (c : Chunk) (item : Item) (pending : List Token) : Prop where
  leader : item.leader = c.leader.text
  values : ∃ taken : Option Token,
    item.raw? = taken.map Token.text ∧ c.values = taken.toList ++ pending

namespace Resolution

variable {usage : Usage} {r r' : Resolution}

/-- The chunks of a group are resolved exactly if each letter selects an option, the last one with
the first value or with none. -/
theorem run_spread_eq_ok_iff {offset : Nat} {values : List Token} {letters : List Char}
    (hne : letters ≠ []) (hr : r.pending = []) :
    run usage r (Chunk.spread offset values letters) = .ok r' ↔
      ∃ (taken : Option Token) (pending : List Token), values = taken.toList ++ pending ∧
        (∀ use ∈ Item.letterUses (taken.map Token.text) letters, (usage.select? use).isSome) ∧
        r' = r.advance usage (Item.letterUses (taken.map Token.text) letters) pending := by
  induction letters generalizing r with
  | nil => exact absurd rfl hne
  | cons c letters ih =>
    cases letters with
    | nil =>
      rw [Chunk.spread, run_singleton, step_eq_ok_iff hr]
      simp only [Item.letterUses, List.mem_singleton, forall_eq]
    | cons d rest =>
      -- A letter before the last has no value to take, and leaves none over.
      have hstep : ∀ r₁, step usage r ⟨⟨offset, Flags.shortToken c⟩, []⟩ = .ok r₁ ↔
          (usage.select? ⟨Flags.shortToken c, none⟩).isSome ∧
            r₁ = r.advance usage [⟨Flags.shortToken c, none⟩] [] := by
        intro r₁
        rw [step_eq_ok_iff hr]
        constructor
        · intro h
          obtain ⟨taken, pending, hvalues, hselects, rfl⟩ := h
          obtain ⟨htaken, rfl⟩ := List.append_eq_nil_iff.1 hvalues.symm
          rw [Option.toList_eq_nil_iff] at htaken
          subst htaken
          exact ⟨hselects, rfl⟩
        · intro h
          obtain ⟨hselects, rfl⟩ := h
          exact ⟨none, [], rfl, hselects, rfl⟩
      have ih := @ih (r.advance usage [⟨Flags.shortToken c, none⟩] []) (List.cons_ne_nil d rest) rfl
      rw [Chunk.spread, run_cons_eq_ok_iff]
      · simp only [hstep, and_assoc, exists_and_left, exists_eq_left, ih, advance_advance]
        simp only [Item.letterUses, List.forall_mem_cons, List.singleton_append]
        constructor
        · intro h
          obtain ⟨hc, taken, pending, hvalues, hselects, rfl⟩ := h
          exact ⟨taken, pending, hvalues, ⟨hc, hselects⟩, rfl⟩
        · intro h
          obtain ⟨taken, pending, hvalues, ⟨hc, hselects⟩, rfl⟩ := h
          exact ⟨hc, taken, pending, hvalues, hselects, rfl⟩
      · exact List.cons_ne_nil d rest

theorem isValue_of_taken {c : Chunk} (hc : c.WellCut) {taken : Option Token}
    {pending : List Token} (hvalues : c.values = taken.toList ++ pending) :
    ∀ raw ∈ taken.map Token.text, IsValue raw := by
  intro raw hraw
  obtain ⟨v, rfl, rfl⟩ := Option.map_eq_some_iff.1 hraw
  exact Token.isDashed_eq_false_iff.1 (hc.values v (by simp [hvalues]))

/-- The resolution after a chunk that is read as an item that fits: its flags have taken effect,
and the values that it does not take are left over. -/
def AfterItem (usage : Usage) (r : Resolution) (c : Chunk) (r' : Resolution) : Prop :=
  ∃ (item : Item) (pending : List Token), item.Fits usage ∧ c.IsItem item pending ∧
    r' = r.advance usage item.uses pending

/-! The three forms of a chunk are the three forms of an item. -/

theorem run_group_eq_ok_iff (hi : usage.Indexed) {c : Chunk} (hc : c.WellCut)
    (hr : r.pending = []) {letters : List Char}
    (hl : Chunk.groupLetters? c.leader.text = some letters) :
    run usage r (Chunk.spread c.leader.offset c.values letters) = .ok r' ↔
      AfterItem usage r c r' := by
  obtain ⟨hleader, hlen, halpha⟩ := Chunk.groupLetters?_eq_some_iff.1 hl
  have hne : letters ≠ [] := List.ne_nil_of_length_pos (by omega)
  rw [run_spread_eq_ok_iff hne hr]
  constructor
  · intro h
    obtain ⟨taken, pending, hvalues, hselects, rfl⟩ := h
    exact ⟨.group letters (taken.map Token.text), pending,
      ⟨⟨hlen, halpha⟩, isValue_of_taken hc hvalues, hselects⟩,
      ⟨hleader.symm, taken, rfl, hvalues⟩, rfl⟩
  · intro h
    obtain ⟨item, pending, hfits, ⟨heq, taken, hraw, hvalues⟩, rfl⟩ := h
    have hitem := hfits.eq_group hi (heq ▸ hl)
    rw [hitem, hraw] at hfits ⊢
    exact ⟨taken, pending, hvalues, hfits.selects, rfl⟩

theorem step_single_eq_ok_iff {c : Chunk} (hc : c.WellCut) (hr : r.pending = [])
    (hl : Chunk.groupLetters? c.leader.text = none)
    (hd : Chunk.numericAllowed usage → Chunk.numberDigits? c.leader.text = none) :
    step usage r c = .ok r' ↔ AfterItem usage r c r' := by
  rw [step_eq_ok_iff hr]
  constructor
  · intro h
    obtain ⟨taken, pending, hvalues, hselects, rfl⟩ := h
    exact ⟨.single c.leader.text (taken.map Token.text), pending,
      ⟨hd, isValue_of_taken hc hvalues, by simpa [Item.uses] using hselects⟩,
      ⟨rfl, taken, rfl, hvalues⟩, rfl⟩
  · intro h
    obtain ⟨item, pending, hfits, ⟨heq, taken, hraw, hvalues⟩, rfl⟩ := h
    have hitem := hfits.eq_single (heq ▸ hl) (heq ▸ hd)
    rw [hitem, hraw, heq] at hfits ⊢
    exact ⟨taken, pending, hvalues, hfits.selects _ (List.mem_singleton.2 rfl), rfl⟩

theorem step_number_eq_ok_iff {c : Chunk} (hr : r.pending = []) (hn : Chunk.numericAllowed usage)
    {digits : List Char} (hd : Chunk.numberDigits? c.leader.text = some digits) :
    step usage r (Chunk.expandNumber c) = .ok r' ↔ AfterItem usage r c r' := by
  rw [Chunk.expandNumber, hd, step_eq_ok_iff hr]
  constructor
  · intro h
    obtain ⟨taken, pending, hvalues, hselects, rfl⟩ := h
    cases taken with
    | none =>
      rw [Option.map_none, Usage.select?_numericFlag_none hn] at hselects
      cases hselects
    | some v =>
      rw [Option.toList_some, List.singleton_append, List.cons.injEq] at hvalues
      obtain ⟨rfl, rfl⟩ := hvalues
      obtain ⟨hleader, hwf⟩ := Chunk.numberDigits?_eq_some_iff.1 hd
      exact ⟨.number digits, c.values,
        ⟨hwf, by simp [Item.raw?], by simpa [Item.uses] using hselects⟩,
        ⟨hleader.symm, none, rfl, rfl⟩, rfl⟩
  · intro h
    obtain ⟨item, pending, hfits, ⟨heq, taken, hraw, hvalues⟩, rfl⟩ := h
    have hitem := hfits.eq_number hn (heq ▸ hd)
    rw [hitem] at hfits hraw ⊢
    -- A number is an item without a value of its own, so all values of the chunk are left over.
    rw [Option.map_eq_none_iff.1 hraw.symm, Option.toList_none, List.nil_append] at hvalues
    exact ⟨some ⟨c.leader.offset, String.ofList digits⟩, pending, by simp [hvalues],
      hfits.selects _ (List.mem_singleton.2 rfl), rfl⟩

/-- **What a chunk stands for resolves exactly if the chunk is an item that fits.** -/
theorem run_written_eq_ok_iff (hi : usage.Indexed) {c : Chunk} (hc : c.WellCut)
    (hr : r.pending = []) :
    run usage r (c.written usage) = .ok r' ↔ AfterItem usage r c r' := by
  cases hl : Chunk.groupLetters? c.leader.text with
  | some letters =>
    simp only [Chunk.written, hl]
    exact run_group_eq_ok_iff hi hc hr hl
  | none =>
    simp only [Chunk.written, hl, run_singleton]
    cases hd : Chunk.numberDigits? c.leader.text with
    | none =>
      have hsame : (if Chunk.numericAllowed usage then Chunk.expandNumber c else c) = c := by
        rw [Chunk.expandNumber, hd, ite_self]
      rw [hsame]
      exact step_single_eq_ok_iff hc hr hl fun _ => hd
    | some digits =>
      by_cases hn : Chunk.numericAllowed usage
      · rw [if_pos hn]
        exact step_number_eq_ok_iff hr hn hd
      · rw [if_neg hn]
        exact step_single_eq_ok_iff hc hr hl fun h => absurd h hn

end Resolution

/-! ## Readings -/

/-- The tokens are the items, which all fit, and then values that are left over. -/
structure Item.Split (usage : Usage) (ts : List Token) (items : List Item)
    (pending : List Token) : Prop where
  fits : ∀ item ∈ items, item.Fits usage
  tokens : ∃ front, ts = front ++ pending ∧ front.map Token.text = items.flatMap Item.tokens
  values : ∀ v ∈ pending, v.isDashed = false

namespace Item

variable {usage : Usage} {items : List Item} {pending leading : List Token}

/-- An item that fits starts with a dash. -/
theorem Fits.not_isValue_leader {item : Item} (hi : usage.Indexed) (h : item.Fits usage) :
    ¬IsValue item.leader := by
  rw [IsValue, Classical.not_not]
  cases item with
  | single flag raw =>
    show flag.toList.head? = some '-'
    have hselects := h.selects ⟨flag, raw⟩ (List.mem_singleton.2 rfl)
    obtain ⟨o, hopt⟩ := Option.isSome_iff_exists.1 (Usage.isSome_option?_of_select hselects)
    exact Usage.head?_of_option? hi hopt
  | group letters raw => simp [leader]
  | number digits => simp [leader]

/-- Values alone are no item. -/
theorem split_values_iff (hi : usage.Indexed) (hleading : ∀ v ∈ leading, v.isDashed = false) :
    Split usage leading items pending ↔ items = [] ∧ pending = leading := by
  constructor
  · intro h
    obtain ⟨hfits, ⟨front, rfl, hfront⟩, -⟩ := h
    cases items with
    | nil => simp [List.map_eq_nil_iff.1 hfront]
    | cons item items =>
      rw [List.flatMap_cons, tokens, List.cons_append] at hfront
      obtain ⟨t, front, rfl, ht, -⟩ := List.map_eq_cons_iff.1 hfront
      have hvalue := Token.isDashed_eq_false_iff.1 (hleading t (by simp))
      exact absurd (ht ▸ hvalue) ((hfits item (by simp)).not_isValue_leader hi)
  · intro h
    obtain ⟨rfl, rfl⟩ := h
    exact ⟨by simp, ⟨[], rfl, rfl⟩, hleading⟩

/-- If tokens start with the value of an item, it is the first of the values before the next
dash. -/
theorem exists_taken {raw? : Option String} (hraw : ∀ raw ∈ raw?, IsValue raw)
    {values ts front : List Token} (hts : ∀ t ∈ ts.head?, t.isDashed = true)
    (h : values ++ ts = front ++ pending) {texts : List String}
    (hfront : front.map Token.text = raw?.toList ++ texts) :
    ∃ (taken : Option Token) (left front' : List Token), raw? = taken.map Token.text ∧
      values = taken.toList ++ left ∧ left ++ ts = front' ++ pending ∧
      front'.map Token.text = texts := by
  cases raw? with
  | none => exact ⟨none, values, front, rfl, rfl, h, hfront⟩
  | some raw =>
    obtain ⟨v, front, rfl, rfl, htexts⟩ := List.map_eq_cons_iff.1 hfront
    have hvalue : v.isDashed = false := Token.isDashed_eq_false_iff.2 (hraw v.text rfl)
    cases values with
    | nil =>
      rw [List.nil_append] at h
      rw [hts v (by simp [h])] at hvalue
      cases hvalue
    | cons w left =>
      obtain ⟨rfl, hleft⟩ := List.cons.inj h
      exact ⟨some w, left, front, rfl, rfl, hleft, htexts⟩

/-- A chunk is the first item, and no value stands before it. The values that the item does not
take stand before what comes next. -/
theorem split_chunk_iff (hi : usage.Indexed) (hleading : ∀ v ∈ leading, v.isDashed = false)
    {c : Chunk} (hc : c.WellCut) {ts : List Token} (hts : ∀ t ∈ ts.head?, t.isDashed = true) :
    Split usage (leading ++ (c.toTokens ++ ts)) items pending ↔
      leading = [] ∧ ∃ item more left, items = item :: more ∧ item.Fits usage ∧
        c.IsItem item left ∧ Split usage (left ++ ts) more pending := by
  constructor
  · intro h
    obtain ⟨hfits, ⟨front, hsplit, hfront⟩, hvalues⟩ := h
    cases items with
    | nil =>
      -- The leader of the chunk would be a value that is left over.
      rw [List.map_eq_nil_iff.1 hfront, List.nil_append] at hsplit
      have hleader := hvalues c.leader (by simp [← hsplit, Chunk.toTokens])
      rw [hc.leader] at hleader
      cases hleader
    | cons item more =>
      obtain ⟨hitem, hmore⟩ := List.forall_mem_cons.1 hfits
      rw [List.flatMap_cons, tokens, List.cons_append] at hfront
      obtain ⟨t, front, rfl, ht, htail⟩ := List.map_eq_cons_iff.1 hfront
      cases leading with
      | cons v leading =>
        -- The first token would be a value and the leader of an item.
        obtain ⟨rfl, -⟩ := List.cons.inj hsplit
        have hvalue := Token.isDashed_eq_false_iff.1 (hleading v (by simp))
        exact absurd (ht ▸ hvalue) (hitem.not_isValue_leader hi)
      | nil =>
        obtain ⟨rfl, hrest⟩ := List.cons.inj hsplit
        obtain ⟨taken, left, front, hraw, hcv, hleft, hmap⟩ :=
          exists_taken hitem.value hts hrest htail
        exact ⟨rfl, item, more, left, rfl, hitem, ⟨ht.symm, taken, hraw, hcv⟩, hmore,
          ⟨front, hleft, hmap⟩, hvalues⟩
  · intro h
    obtain ⟨rfl, item, more, left, rfl, hitem, ⟨hleader, taken, hraw, hcv⟩, hsplit⟩ := h
    obtain ⟨front, hts', hfront⟩ := hsplit.tokens
    refine ⟨List.forall_mem_cons.2 ⟨hitem, hsplit.fits⟩, ?_, hsplit.values⟩
    refine ⟨c.leader :: taken.toList ++ front, ?_, ?_⟩
    · simp [Chunk.toTokens, hcv, hts']
    · rw [List.flatMap_cons, tokens, hleader, hraw, ← hfront]
      cases taken <;> simp

end Item

namespace Resolution

variable {usage : Usage} {r r' : Resolution}

/-- A chunk can be taken in only if no value is left over. -/
theorem pending_of_run_written {c : Chunk} (h : run usage r (c.written usage) = .ok r') :
    r.pending = [] := by
  obtain ⟨d, ds, hcons⟩ := List.exists_cons_of_ne_nil (c.written_ne_nil usage)
  rw [hcons, run_cons_eq_ok_iff] at h
  obtain ⟨r₁, hstep, -⟩ := h
  exact pending_of_step hstep

/-- **Resolving chunks splits their tokens into items.** It succeeds exactly if there are items
that the tokens, and the values left over from before, can be split into. -/
theorem run_flatMap_written_eq_ok_iff (hi : usage.Indexed)
    (hr : ∀ v ∈ r.pending, v.isDashed = false) {chunks : List Chunk}
    (hcut : ∀ c ∈ chunks, c.WellCut) :
    run usage r (chunks.flatMap (Chunk.written usage)) = .ok r' ↔
      ∃ (items : List Item) (pending : List Token),
        Item.Split usage (r.pending ++ chunks.flatMap Chunk.toTokens) items pending ∧
        r' = r.advance usage (items.flatMap Item.uses) pending := by
  -- Each chunk is one item. What it leaves over is pending when the next one is taken in, so the
  -- induction is over all resolutions.
  induction chunks generalizing r with
  | nil =>
    simp only [List.flatMap_nil, List.append_nil, Item.split_values_iff hi hr, run,
      Except.ok.injEq]
    constructor
    · rintro rfl
      exact ⟨[], r.pending, ⟨rfl, rfl⟩, rfl⟩
    · intro h
      obtain ⟨items, pending, ⟨rfl, rfl⟩, rfl⟩ := h
      rfl
  | cons c chunks ih =>
    obtain ⟨hc, hcut⟩ := List.forall_mem_cons.1 hcut
    have hts : ∀ t ∈ (chunks.flatMap Chunk.toTokens).head?, t.isDashed = true := by
      cases chunks with
      | nil => simp
      | cons d chunks => simpa [Chunk.toTokens] using (hcut d (by simp)).leader
    have hleft : ∀ {item left}, c.IsItem item left → ∀ v ∈ left, v.isDashed = false := by
      rintro item left ⟨-, taken, -, hvalues⟩ v hv
      exact hc.values v (by simp [hvalues, hv])
    rw [List.flatMap_cons, List.flatMap_cons, run_append_eq_ok_iff]
    simp only [Item.split_chunk_iff hi hr hc hts]
    constructor
    · intro h
      obtain ⟨r₁, hwritten, hrun⟩ := h
      have hnil := pending_of_run_written hwritten
      obtain ⟨item, left, hfits, hitem, rfl⟩ := (run_written_eq_ok_iff hi hc hnil).1 hwritten
      obtain ⟨more, pending, hsplit, rfl⟩ := (ih (hleft hitem) hcut).1 hrun
      exact ⟨item :: more, pending, ⟨hnil, item, more, left, rfl, hfits, hitem, hsplit⟩,
        advance_advance ..⟩
    · intro h
      obtain ⟨items, pending, ⟨hnil, item, more, left, rfl, hfits, hitem, hsplit⟩, rfl⟩ := h
      refine ⟨r.advance usage item.uses left, ?_, ?_⟩
      · exact (run_written_eq_ok_iff hi hc hnil).2 ⟨item, left, hfits, hitem, rfl⟩
      · exact (ih (hleft hitem) hcut).2 ⟨more, pending, hsplit, (advance_advance ..).symm⟩

end Resolution

/-- A reading of an argument list: the items, which all fit, and then the positional values, as
many as the usage line takes. -/
structure Reading (usage : Usage) (texts : List String) (items : List Item)
    (rest : List String) : Prop where
  tokens : texts = items.flatMap Item.tokens ++ rest
  fits : ∀ item ∈ items, item.Fits usage
  values : ∀ v ∈ rest, IsValue v
  takes : usage.Takes rest.length

instance (usage : Usage) (texts : List String) (items : List Item) (rest : List String) :
    Decidable (Reading usage texts items rest) :=
  decidable_of_iff
    (texts = items.flatMap Item.tokens ++ rest ∧ (∀ item ∈ items, item.Fits usage) ∧
      (∀ v ∈ rest, IsValue v) ∧ usage.Takes rest.length)
    ⟨fun h => ⟨h.1, h.2.1, h.2.2.1, h.2.2.2⟩, fun h => ⟨h.1, h.2, h.3, h.4⟩⟩

/-- A reading splits the numbered tokens of the argument list. -/
theorem reading_iff_split {usage : Usage} {texts rest : List String} {items : List Item} :
    Reading usage texts items rest ↔
      ∃ pending : List Token, rest = pending.map Token.text ∧ usage.Takes pending.length ∧
        Item.Split usage (Token.numbered texts) items pending := by
  constructor
  · intro h
    obtain ⟨htokens, hfits, hvalues, htakes⟩ := h
    rw [← Token.map_text_numbered texts, List.map_eq_append_iff] at htokens
    obtain ⟨front, pending, hsplit, hfront, rfl⟩ := htokens
    refine ⟨pending, rfl, by simpa using htakes, hfits, ⟨front, hsplit, hfront⟩, ?_⟩
    intro v hv
    exact Token.isDashed_eq_false_iff.2 (hvalues v.text (List.mem_map_of_mem hv))
  · intro h
    obtain ⟨pending, rfl, htakes, hfits, ⟨front, hsplit, hfront⟩, hvalues⟩ := h
    refine ⟨?_, hfits, ?_, by simpa using htakes⟩
    · rw [← Token.map_text_numbered texts, hsplit, List.map_append, hfront]
    · intro v hv
      obtain ⟨t, ht, rfl⟩ := List.mem_map.1 hv
      exact Token.isDashed_eq_false_iff.1 (hvalues t ht)

/-! ## Matching accepts what has a reading -/

namespace Usage

/-- What a reading says: the options that its items select, on top of the defaults, and then the
positional values. -/
def meaning (usage : Usage) (items : List Item) (rest : List String) : Matches :=
  ((Matches.ofDefaults usage.defaults).recordAll
    (usage.selections (items.flatMap Item.uses))).setAll
      (Positional.bindings rest usage.arguments)

theorem complete_eq_ok_iff {usage : Usage} (hc : Coherent usage.arguments) {leading : List Token}
    {cs : List Chunk} {stop : Nat} {m : Matches} :
    usage.complete leading cs stop = .ok m ↔
      ∃ r, Resolution.run usage ⟨.ofDefaults usage.defaults, leading, none⟩ cs = .ok r ∧
        usage.Takes r.pending.length ∧
        m = r.found.setAll (Positional.bindings (r.pending.map Token.text) usage.arguments) := by
  rw [complete]
  cases Resolution.run usage ⟨.ofDefaults usage.defaults, leading, none⟩ cs with
  | error failure => simp
  | ok r =>
    simp only [Except.ok.injEq, exists_eq_left', ← bound_accepts_iff hc,
      ← @Positional.checkCount_eq_ok_iff usage.bound stop r.pending r.lastValued]
    cases hcount : Positional.checkCount usage.bound r.pending r.lastValued stop with
    | error failure => simp
    | ok =>
      have htakes := (bound_accepts_iff hc _).1 (Positional.checkCount_eq_ok_iff.1 hcount)
      simp only [Positional.bind_eq_ok hc htakes, Except.ok.injEq, true_and]
      exact eq_comm

/-- Help is shown exactly if it is asked for, whatever else the argument list says. -/
theorem fit_eq_showUsage_iff {usage : Usage} {texts : List String} {message : String} :
    usage.fit texts = .ok (.showUsage message) ↔
      message = usage.message ∧ ("-h" ∈ texts ∨ "--help" ∈ texts) := by
  rw [fit, ← Chunk.any_asksHelp_cut]
  dsimp only
  split
  · next hhelp => simp [hhelp, eq_comm]
  · next hhelp =>
    refine iff_of_false ?_ fun h => hhelp h.2
    split
    · exact nofun
    · cases usage.complete (Chunk.cut (Token.numbered texts)).1 _ texts.length <;> exact nofun

/-- Matching completes exactly if all its stages succeed. -/
theorem fit_eq_complete_iff_stages {usage : Usage} {texts : List String} {m : Matches} :
    usage.fit texts = .ok (.complete m) ↔
      ¬("-h" ∈ texts ∨ "--help" ∈ texts) ∧
      ∃ cs, usage.occurrences (Chunk.cut (Token.numbered texts)).2 = .ok cs ∧
        usage.complete (Chunk.cut (Token.numbered texts)).1 cs texts.length = .ok m := by
  rw [fit, ← Chunk.any_asksHelp_cut]
  dsimp only
  split
  · next hhelp => exact iff_of_false nofun fun h => h.1 hhelp
  · next hhelp =>
    rw [and_iff_right hhelp]
    cases usage.occurrences (Chunk.cut (Token.numbered texts)).2 with
    | error failure => simp
    | ok cs =>
      simp only [Except.ok.injEq, exists_eq_left']
      cases usage.complete (Chunk.cut (Token.numbered texts)).1 cs texts.length <;>
        simp [Except.map]

/-- **An argument list is complete exactly if it has a reading**, and then every reading of it says
what matching finds. -/
theorem fit_eq_complete_iff {usage : Usage} (hi : usage.Indexed) (hc : Coherent usage.arguments)
    {texts : List String} {m : Matches} :
    usage.fit texts = .ok (.complete m) ↔
      ¬("-h" ∈ texts ∨ "--help" ∈ texts) ∧
      ∃ items rest, Reading usage texts items rest ∧ m = usage.meaning items rest := by
  rw [fit_eq_complete_iff_stages]
  refine and_congr_right fun _ => ?_
  obtain ⟨hleading, hcut⟩ := Chunk.wellCut_cut (Token.numbered texts)
  have htokens := Chunk.cut_toTokens (Token.numbered texts)
  generalize Chunk.cut (Token.numbered texts) = parts at hleading hcut htokens ⊢
  -- Cutting loses no token, so the leading values and the chunks are the whole argument list.
  have hrun := fun r' => @Resolution.run_flatMap_written_eq_ok_iff usage
    ⟨.ofDefaults usage.defaults, parts.1, none⟩ r' hi hleading parts.2 hcut
  simp only [htokens] at hrun
  constructor
  · intro h
    obtain ⟨cs, hocc, hcomplete⟩ := h
    obtain ⟨rfl, -⟩ := occurrences_eq_ok_iff.1 hocc
    obtain ⟨r, hr, htakes, rfl⟩ := (complete_eq_ok_iff hc).1 hcomplete
    obtain ⟨items, pending, hsplit, rfl⟩ := (hrun r).1 hr
    exact ⟨items, pending.map Token.text, reading_iff_split.2 ⟨pending, rfl, htakes, hsplit⟩, rfl⟩
  · intro h
    obtain ⟨items, rest, hreading, rfl⟩ := h
    obtain ⟨pending, rfl, htakes, hsplit⟩ := reading_iff_split.1 hreading
    have hr := (hrun _).2 ⟨items, pending, hsplit, rfl⟩
    exact ⟨_, occurrences_eq_ok_iff.2 ⟨rfl, Resolution.known_of_run hr⟩,
      (complete_eq_ok_iff hc).2 ⟨_, hr, htakes, rfl⟩⟩

/-- **Matching accepts exactly its grammar.** Help is shown if a token asks for it; otherwise an
argument list is complete if it can be read as items that fit and then as many values as the
usage line takes. -/
theorem fit_accepts_grammar {given : Option String} {text : String} {usage : Usage}
    (h : read given text = .ok usage) (texts : List String) :
    (∀ message, usage.fit texts = .ok (.showUsage message) ↔
      message = usage.message ∧ ("-h" ∈ texts ∨ "--help" ∈ texts)) ∧
    (¬("-h" ∈ texts ∨ "--help" ∈ texts) →
      ((∃ found, usage.fit texts = .ok (.complete found)) ↔
        ∃ items rest, Reading usage texts items rest)) := by
  refine ⟨fun message => fit_eq_showUsage_iff, fun hhelp => ?_⟩
  simp only [fit_eq_complete_iff (indexed_of_read h) (coherent_of_read h)]
  constructor
  · intro h
    obtain ⟨found, -, items, rest, hreading, -⟩ := h
    exact ⟨items, rest, hreading⟩
  · intro h
    obtain ⟨items, rest, hreading⟩ := h
    exact ⟨_, hhelp, items, rest, hreading, rfl⟩

/-- A group, a number and a positional value, read for a usage that has all three. -/
theorem fit_accepts_grammar_group_number :
    ∃ usage, read none "Usage: p [-q] [-v] [-n NUM] file" = .ok usage ∧
      ∃ found, usage.fit ["-qv", "-15", "a"] = .ok (.complete found) := by
  let usage : Usage :=
    { program := "p"
      message := "Usage: p [-q] [-v] [-n NUM] file"
      arguments := [⟨"file", .required⟩]
      options := [⟨"q", .short 'q', none⟩, ⟨"v", .short 'v', none⟩, ⟨"n", .short 'n', some "NUM"⟩]
      flagTable := NameMap.empty.insertAll [("-q", 0), ("-v", 1), ("-n", 2)]
      defaults := .empty }
  have hread : read none "Usage: p [-q] [-v] [-n NUM] file" = .ok usage := by decide +kernel
  have hreading : Reading usage ["-qv", "-15", "a"]
      [.group ['q', 'v'] none, .number ['1', '5']] ["a"] := by decide +kernel
  exact ⟨usage, hread, ((fit_accepts_grammar hread _).2 (by decide)).2 ⟨_, _, hreading⟩⟩

end Usage

end Synopsis
