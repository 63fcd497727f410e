import Synopsis.Proofs.Priority

/-!
# Every failure names the token at fault

A failure has an offset and an error. `MatchError.Blames` says, error by error, what must be true of
the argument list at that offset if the failure is to be believed, and every failure of matching
can be believed (`Usage.fit_blames_token`).

Resolving a list of chunks stops in one of them. The chunks before it are items and values that are
left over; if there are such values, the first of them is at fault, and otherwise one of the parts
of the chunk (`Chunk.Part`) has no value or one of another kind. In either case the place of the
chunk in the argument list (`Chunk.StandsIn`) tells what stands at the offset and next to it.
-/

namespace Synopsis

/-! ## What an error says of the argument list -/

/-- No value stands at the place: the list ends before it, or there is a token with a dash. -/
def NoValueAt (texts : List String) (i : Nat) : Prop :=
  ∀ text, texts[i]? = some text → ¬IsValue text

/-- The option that a token with a dash calls first. -/
inductive Usage.Calls (usage : Usage) : String → String → Prop
  /-- A flag calls its own option. -/
  | flag {text : String} (h : ¬usage.IsShorthand text) : usage.Calls text text
  /-- A group calls the option of its first letter. -/
  | group {text : String} {letter : Char} {rest : List Char}
      (h : Chunk.groupLetters? text = some (letter :: rest)) :
      usage.Calls text (Flags.shortToken letter)
  /-- A number calls `-n`. -/
  | number {text : String} {digits : List Char} (hn : Chunk.numericAllowed usage)
      (h : Chunk.numberDigits? text = some digits) : usage.Calls text Chunk.numericFlag

/-- What an error at offset `i` says of the argument list. -/
def MatchError.Blames (usage : Usage) (texts : List String) (i : Nat) : MatchError → Prop
  | .unknownOption option => texts[i]? = some option ∧ usage.option? option = none
  | .unknownShorthand letter group suggestion =>
    texts[i]? = some group ∧
    (∃ known rest, Chunk.groupLetters? group = some (known ++ letter :: rest) ∧
      (∀ c ∈ known, (usage.option? (Flags.shortToken c)).isSome) ∧
      usage.option? (Flags.shortToken letter) = none) ∧
    ∀ flag, suggestion = some flag ↔ flag = "-" ++ group ∧ (usage.option? flag).isSome
  | .missingOptionValue option =>
    (usage.valueKind? option).isSome ∧
    ((texts[i]? = some option ∧ NoValueAt texts (i + 1)) ∨
      ∃ group before letter after, texts[i]? = some group ∧
        Chunk.groupLetters? group = some (before ++ letter :: after) ∧
        option = Flags.shortToken letter ∧ (after ≠ [] ∨ NoValueAt texts (i + 1)))
  | .invalidTypedValue value option expected =>
    usage.valueKind? option = some expected ∧ expected.coerce? value = none ∧
    ((texts[i]? = some value ∧ ∃ j leader, i = j + 1 ∧ texts[j]? = some leader ∧
        (leader = option ∨ ∃ before letter,
          Chunk.groupLetters? leader = some (before ++ [letter]) ∧
          option = Flags.shortToken letter)) ∨
      (texts[i]? = some ("-" ++ value) ∧ option = Chunk.numericFlag))
  | .argumentsBeforeOption option =>
    (∃ value, texts[i]? = some value ∧ IsValue value) ∧
    ∃ j leader, i < j ∧ texts[j]? = some leader ∧ ¬IsValue leader ∧ usage.Calls leader option ∧
      ∀ k, i < k → k < j → ∃ value, texts[k]? = some value ∧ IsValue value
  | .tooManyArguments min max =>
    usage.hasRepeated = false ∧ min = usage.requiredCount ∧
    max = usage.requiredCount + usage.optionalCount ∧
    ∃ items values v, Item.Split usage (Token.numbered texts) items values ∧
      values[max]? = some v ∧ v.offset = i ∧ texts[i]? = some v.text
  | .tooFewArguments min received hint =>
    i = texts.length ∧ min = usage.requiredCount + (if usage.hasRepeated then 1 else 0) ∧
    received < min ∧
    ∃ items values, Item.Split usage (Token.numbered texts) items values ∧
      values.length = received ∧ hint = Resolution.lastValuedOf none (items.flatMap Item.uses)
  | .internalInconsistency _ => False

/-- Only a list that ends too early is blamed at its end. -/
theorem MatchError.Blames.place {usage : Usage} {texts : List String} {i : Nat} {e : MatchError}
    (h : e.Blames usage texts i) :
    i ≤ texts.length ∧
      (i = texts.length ↔ ∃ min received hint, e = .tooFewArguments min received hint) := by
  have hinside : ∀ {text}, texts[i]? = some text →
      (∀ min received hint, e ≠ .tooFewArguments min received hint) →
      i ≤ texts.length ∧
        (i = texts.length ↔ ∃ min received hint, e = .tooFewArguments min received hint) := by
    intro text hget hother
    have hlt : i < texts.length := (List.getElem?_eq_some_iff.1 hget).1
    refine ⟨by omega, iff_of_false (by omega) ?_⟩
    rintro ⟨min, received, hint, he⟩
    exact hother min received hint he
  cases e with
  | unknownOption option => exact hinside h.1 nofun
  | unknownShorthand letter group suggestion => exact hinside h.1 nofun
  | missingOptionValue option =>
    rcases h.2 with ⟨hget, -⟩ | ⟨group, before, letter, after, hget, -⟩
    · exact hinside hget nofun
    · exact hinside hget nofun
  | invalidTypedValue value option expected =>
    rcases h.2.2 with ⟨hget, -⟩ | ⟨hget, -⟩
    · exact hinside hget nofun
    · exact hinside hget nofun
  | argumentsBeforeOption option =>
    obtain ⟨⟨value, hget, -⟩, -⟩ := h
    exact hinside hget nofun
  | tooManyArguments min max =>
    obtain ⟨-, -, -, items, values, v, -, -, -, hget⟩ := h
    exact hinside hget nofun
  | tooFewArguments min received hint =>
    have hstop : i = texts.length := h.1
    exact ⟨by omega, iff_of_true hstop ⟨min, received, hint, rfl⟩⟩
  | internalInconsistency detail => exact h.elim

/-! ## Unknown groups and options -/

namespace Token

variable {usage : Usage} {texts : List String} {t : Token} {failure : Failure}

/-- A numbered token tells its place and its text. -/
theorem of_getElem?_numbered {i : Nat} (h : (numbered texts)[i]? = some t) :
    t.offset = i ∧ texts[i]? = some t.text := by
  rw [getElem?_numbered, Option.map_eq_some_iff] at h
  obtain ⟨text, hget, rfl⟩ := h
  exact ⟨rfl, hget⟩

theorem getElem?_of_mem_numbered (h : t ∈ numbered texts) : texts[t.offset]? = some t.text := by
  obtain ⟨i, hi⟩ := List.mem_iff_getElem?.1 h
  obtain ⟨rfl, hget⟩ := of_getElem?_numbered hi
  exact hget

theorem blames_of_groupFault? (ht : t ∈ numbered texts) (h : t.groupFault? usage = some failure) :
    failure.error.Blames usage texts failure.offset := by
  obtain ⟨letters, hletters, hfind⟩ := Option.bind_eq_some_iff.1 h
  obtain ⟨letter, hletter, rfl⟩ := Option.map_eq_some_iff.1 hfind
  obtain ⟨hnone, known, rest, rfl, hknown⟩ := List.find?_eq_some_iff_append.1 hletter
  refine ⟨getElem?_of_mem_numbered ht, ⟨known, rest, hletters, ?_, ?_⟩, ?_⟩
  · intro c hc
    have hdeclared := hknown c hc
    rwa [Bool.not_eq_true', Option.isNone_eq_false_iff] at hdeclared
  · exact Option.isNone_iff_eq_none.1 hnone
  · intro flag
    rw [Option.map_eq_some_iff]
    constructor
    · rintro ⟨o, ho, rfl⟩
      exact ⟨rfl, Option.isSome_of_mem ho⟩
    · rintro ⟨rfl, hsome⟩
      obtain ⟨o, ho⟩ := Option.isSome_iff_exists.1 hsome
      exact ⟨o, ho, rfl⟩

theorem blames_of_unknownFault? (ht : t ∈ numbered texts)
    (h : t.unknownFault? usage = some failure) :
    failure.error.Blames usage texts failure.offset := by
  unfold unknownFault? at h
  split at h
  · next hundeclared =>
    cases h
    exact ⟨getElem?_of_mem_numbered ht, hundeclared.2.2⟩
  · cases h

end Token

/-! ## The parts of a chunk -/

namespace Chunk

variable {usage : Usage} {c w : Chunk} {done rest : List Chunk}

/-- One of the chunks that a chunk stands for. Of the letters of a group, only the last one has
the values. -/
inductive Part (usage : Usage) (c : Chunk) : Chunk → Prop
  | plain (h : ¬usage.IsShorthand c.leader.text) : Part usage c c
  | letter {before after : List Char} {letter : Char} {values : List Token}
      (h : groupLetters? c.leader.text = some (before ++ letter :: after))
      (hvalues : values = c.values ∧ after = [] ∨ values = [] ∧ after ≠ []) :
      Part usage c ⟨⟨c.leader.offset, Flags.shortToken letter⟩, values⟩
  | number {digits : List Char} (hn : numericAllowed usage)
      (h : numberDigits? c.leader.text = some digits) :
      Part usage c ⟨⟨c.leader.offset, numericFlag⟩,
        ⟨c.leader.offset, String.ofList digits⟩ :: c.values⟩

/-- A letter of a group stands after letters without values. -/
theorem spread_split {offset : Nat} {values : List Token} {letters : List Char}
    (h : spread offset values letters = done ++ w :: rest) :
    (∀ d ∈ done, d.values = []) ∧ ∃ before letter after, letters = before ++ letter :: after ∧
      w.leader = ⟨offset, Flags.shortToken letter⟩ ∧
      (w.values = values ∧ after = [] ∨ w.values = [] ∧ after ≠ []) ∧
      (done = [] → before = []) := by
  induction letters generalizing done with
  | nil => simp [spread] at h
  | cons c letters ih =>
    cases letters with
    | nil =>
      rw [spread, eq_comm, List.append_eq_singleton_iff] at h
      rcases h with ⟨rfl, hw⟩ | ⟨-, hw⟩
      · cases hw
        exact ⟨by simp, [], c, [], rfl, rfl, .inl ⟨rfl, rfl⟩, fun _ => rfl⟩
      · cases hw
    | cons d more =>
      rw [spread] at h
      · cases done with
        | nil =>
          cases h
          exact ⟨by simp, [], c, d :: more, rfl, rfl, .inr ⟨rfl, List.cons_ne_nil _ _⟩,
            fun _ => rfl⟩
        | cons first done =>
          obtain ⟨rfl, hrest⟩ := List.cons.inj h
          obtain ⟨hdone, before, letter, after, hsplit, hleader, hvalues, -⟩ := ih hrest
          refine ⟨List.forall_mem_cons.2 ⟨rfl, hdone⟩, c :: before, letter, after, ?_, hleader,
            hvalues, fun hnil => absurd hnil (List.cons_ne_nil _ _)⟩
          rw [hsplit, List.cons_append]
      · exact List.cons_ne_nil d more

/-- A part of a chunk stands after parts without values. -/
theorem written_split (h : c.written usage = done ++ w :: rest) :
    c.Part usage w ∧ ∀ d ∈ done, d.values = [] := by
  rcases usage.spell_cases c.leader.text with ⟨letters, hl⟩ | ⟨digits, hn, hd⟩ | hplain
  · rw [written_group hl] at h
    obtain ⟨hdone, before, letter, after, rfl, hleader, hvalues, -⟩ := spread_split h
    obtain ⟨leader, values⟩ := w
    dsimp only at hleader hvalues
    subst hleader
    exact ⟨.letter hl hvalues, hdone⟩
  · rw [written_number hn hd, eq_comm, List.append_eq_singleton_iff] at h
    rcases h with ⟨rfl, hw⟩ | ⟨-, hw⟩
    · cases hw
      exact ⟨.number hn hd, by simp⟩
    · cases hw
  · rw [written_plain hplain, eq_comm, List.append_eq_singleton_iff] at h
    rcases h with ⟨rfl, hw⟩ | ⟨-, hw⟩
    · cases hw
      exact ⟨.plain hplain, by simp⟩
    · cases hw

/-- The first part of a chunk is the option that its leader calls. -/
theorem calls_of_written (h : c.written usage = w :: rest) :
    usage.Calls c.leader.text w.leader.text := by
  rcases usage.spell_cases c.leader.text with ⟨letters, hl⟩ | ⟨digits, hn, hd⟩ | hplain
  · rw [written_group hl] at h
    obtain ⟨-, before, letter, after, rfl, hleader, -, hbefore⟩ :=
      spread_split (h.trans (List.nil_append _).symm)
    rw [hbefore rfl, List.nil_append] at hl
    rw [hleader]
    exact .group hl
  · rw [written_number hn hd] at h
    cases h
    exact .number hn hd
  · rw [written_plain hplain] at h
    cases h
    exact .flag hplain

end Chunk

/-! ## Where resolving stops -/

namespace Resolution

variable {usage : Usage} {r r' : Resolution} {cs : List Chunk} {failure : Failure}

theorem run_append (usage : Usage) (r : Resolution) (cs ds : List Chunk) :
    run usage r (cs ++ ds) = (run usage r cs).bind fun r' => run usage r' ds := by
  induction cs generalizing r with
  | nil => rfl
  | cons c cs ih =>
    rw [List.cons_append, run, run]
    cases step usage r c with
    | error failure => rfl
    | ok r' => exact ih r'

/-- Resolving stops at one of the chunks, after all before it were taken in. -/
theorem exists_step_of_run_error (h : run usage r cs = .error failure) :
    ∃ done w rest r', cs = done ++ w :: rest ∧ run usage r done = .ok r' ∧
      step usage r' w = .error failure := by
  induction cs generalizing r with
  | nil => cases h
  | cons c cs ih =>
    rw [run] at h
    cases hstep : step usage r c with
    | error first =>
      rw [hstep] at h
      cases h
      exact ⟨[], c, cs, r, rfl, rfl, hstep⟩
    | ok r₁ =>
      rw [hstep] at h
      obtain ⟨done, w, rest, r', rfl, hrun, hfail⟩ := ih h
      refine ⟨c :: done, w, rest, r', rfl, ?_, hfail⟩
      rw [run, hstep]
      exact hrun

/-- The same for the chunks of an argument list, each with all that it stands for. -/
theorem exists_written_of_run_error {chunks : List Chunk}
    (h : run usage r (chunks.flatMap (Chunk.written usage)) = .error failure) :
    ∃ done c rest r', chunks = done ++ c :: rest ∧
      run usage r (done.flatMap (Chunk.written usage)) = .ok r' ∧
      run usage r' (c.written usage) = .error failure := by
  induction chunks generalizing r with
  | nil => cases h
  | cons c chunks ih =>
    rw [List.flatMap_cons, run_append] at h
    cases hrun : run usage r (c.written usage) with
    | error first =>
      rw [hrun] at h
      cases h
      exact ⟨[], c, chunks, r, rfl, rfl, hrun⟩
    | ok r₁ =>
      rw [hrun] at h
      obtain ⟨done, d, rest, r', rfl, hdone, hfail⟩ := ih h
      refine ⟨c :: done, d, rest, r', rfl, ?_, hfail⟩
      rw [List.flatMap_cons, run_append, hrun]
      exact hdone

/-- Chunks without values leave nothing over. -/
theorem pending_of_run_empty (hcs : ∀ c ∈ cs, c.values = []) (hr : r.pending = [])
    (h : run usage r cs = .ok r') : r'.pending = [] := by
  induction cs generalizing r with
  | nil =>
    cases h
    exact hr
  | cons c cs ih =>
    obtain ⟨hc, hcs⟩ := List.forall_mem_cons.1 hcs
    obtain ⟨r₁, hstep, hrun⟩ := run_cons_eq_ok_iff.1 h
    obtain ⟨taken, pending, hvalues, -, rfl⟩ := (step_eq_ok_iff hr).1 hstep
    rw [hc, eq_comm, List.append_eq_nil_iff] at hvalues
    exact ih hcs hvalues.2 hrun

/-- A declared option is at fault if it has no value, or one of another kind. -/
theorem settle_error {found : Matches} {w : Chunk} (hw : w.Known usage)
    (h : settle usage found w = .error failure) :
    ∃ kind, usage.valueKind? w.leader.text = some kind ∧
      ((w.values = [] ∧ failure = ⟨w.leader.offset, .missingOptionValue w.leader.text⟩) ∨
        ∃ v rest, w.values = v :: rest ∧ kind.coerce? v.text = none ∧
          failure = ⟨v.offset, .invalidTypedValue v.text w.leader.text kind⟩) := by
  obtain ⟨spec, hspec⟩ := Option.isSome_iff_exists.1 hw
  simp only [settle, hspec] at h
  rw [Usage.valueKind?, hspec, Option.bind_some]
  split at h
  · cases h
  · next kind hkind =>
    refine ⟨kind, hkind, ?_⟩
    split at h
    · next hvalues =>
      cases h
      exact .inl ⟨hvalues, rfl⟩
    · next v rest hvalues =>
      split at h
      · next hcoerce =>
        cases h
        exact .inr ⟨v, rest, hvalues, hcoerce, rfl⟩
      · cases h

end Resolution

/-! ## The place of a chunk -/

/-- The chunk stands in the argument list: its leader is at its offset, its first value comes next,
and if there is none, no value comes next. -/
structure Chunk.StandsIn (texts : List String) (c : Chunk) : Prop where
  leader : texts[c.leader.offset]? = some c.leader.text
  value : ∀ v rest, c.values = v :: rest →
    v.offset = c.leader.offset + 1 ∧ texts[v.offset]? = some v.text
  next : c.values = [] → NoValueAt texts (c.leader.offset + 1)

namespace Chunk

variable {usage : Usage} {texts : List String} {c w : Chunk} {failure : Failure}

theorem standsIn_of_split {front after : List Token}
    (h : Token.numbered texts = front ++ (c.toTokens ++ after))
    (hafter : ∀ t ∈ after.head?, t.isDashed = true) : c.StandsIn texts := by
  have hget : ∀ i, (Token.numbered texts)[front.length + i]? =
      (c.leader :: (c.values ++ after))[i]? := by
    intro i
    rw [h, List.getElem?_append_right (by omega), Nat.add_sub_cancel_left]
    rfl
  obtain ⟨hoffset, hleader⟩ := Token.of_getElem?_numbered (hget 0)
  rw [Nat.add_zero] at hoffset hleader
  rw [← hoffset] at hget hleader
  refine ⟨hleader, ?_, ?_⟩
  · intro v rest hvalues
    have hv := hget 1
    rw [hvalues] at hv
    obtain ⟨hplace, hvalue⟩ := Token.of_getElem?_numbered hv
    exact ⟨hplace, hplace ▸ hvalue⟩
  · intro hvalues text htext
    have hnext := hget 1
    rw [hvalues, Token.getElem?_numbered, htext, Option.map_some, List.getElem?_cons_succ,
      List.nil_append, ← List.head?_eq_getElem?] at hnext
    have hdashed := hafter _ hnext.symm
    rw [← Token.isDashed_eq_false_iff (t := ⟨c.leader.offset + 1, text⟩), hdashed]
    decide

/-- A part of a chunk that is at fault is blamed rightly. -/
theorem Part.blames (hw : c.Part usage w) (hc : c.StandsIn texts) (hknown : w.Known usage)
    {found : Matches} (h : Resolution.settle usage found w = .error failure) :
    failure.error.Blames usage texts failure.offset := by
  obtain ⟨kind, hkind, hcause⟩ := Resolution.settle_error hknown h
  have hsome : (usage.valueKind? w.leader.text).isSome := Option.isSome_of_mem hkind
  cases hw with
  | plain hplain =>
    rcases hcause with ⟨hvalues, rfl⟩ | ⟨v, rest, hvalues, hcoerce, rfl⟩
    · exact ⟨hsome, .inl ⟨hc.leader, hc.next hvalues⟩⟩
    · obtain ⟨hplace, hvalue⟩ := hc.value v rest hvalues
      exact ⟨hkind, hcoerce, .inl ⟨hvalue, c.leader.offset, _, hplace, hc.leader, .inl rfl⟩⟩
  | @letter before after letter values hl hlast =>
    rcases hcause with ⟨hvalues, rfl⟩ | ⟨v, rest, hvalues, hcoerce, rfl⟩
    · refine ⟨hsome, .inr ⟨_, before, letter, after, hc.leader, hl, rfl, ?_⟩⟩
      rcases hlast with ⟨hsame, -⟩ | ⟨-, hmore⟩
      · exact .inr (hc.next (hsame.symm.trans hvalues))
      · exact .inl hmore
    · rcases hlast with ⟨hsame, rfl⟩ | ⟨hnil, -⟩
      · obtain ⟨hplace, hvalue⟩ := hc.value v rest (hsame.symm.trans hvalues)
        exact ⟨hkind, hcoerce, .inl ⟨hvalue, c.leader.offset, _, hplace, hc.leader,
          .inr ⟨before, letter, hl, rfl⟩⟩⟩
      · rw [hnil] at hvalues
        cases hvalues
  | @number digits hn hd =>
    rcases hcause with ⟨hvalues, -⟩ | ⟨v, rest, hvalues, hcoerce, rfl⟩
    · cases hvalues
    · obtain ⟨rfl, -⟩ := List.cons.inj hvalues
      refine ⟨hkind, hcoerce, .inr ⟨?_, rfl⟩⟩
      show texts[c.leader.offset]? = some ("-" ++ String.ofList digits)
      have hdash : "-" ++ String.ofList digits = String.ofList ('-' :: digits) := by
        rw [← String.toList_inj]
        simp
      rw [hc.leader, hdash, (numberDigits?_eq_some_iff.1 hd).1]

/-- A value that is left over before a chunk is blamed rightly. -/
theorem blames_early {before left after : List Token} {v : Token} {option : String}
    (h : Token.numbered texts = before ++ ((v :: left) ++ (c.toTokens ++ after)))
    (hvalues : ∀ t ∈ v :: left, t.isDashed = false) (hc : c.leader.isDashed = true)
    (hcalls : usage.Calls c.leader.text option) :
    (MatchError.argumentsBeforeOption option).Blames usage texts v.offset := by
  have hget : ∀ i, (Token.numbered texts)[before.length + i]? =
      ((v :: left) ++ (c.toTokens ++ after))[i]? := by
    intro i
    rw [h, List.getElem?_append_right (by omega), Nat.add_sub_cancel_left]
  obtain ⟨hoffset, hvalue⟩ := Token.of_getElem?_numbered (hget 0)
  have hleader : ((v :: left) ++ (c.toTokens ++ after))[left.length + 1]? = some c.leader := by
    rw [List.getElem?_append_right (by simp), List.length_cons, Nat.sub_self]
    rfl
  obtain ⟨-, hleader⟩ := Token.of_getElem?_numbered ((hget (left.length + 1)).trans hleader)
  have hdashed : ¬IsValue c.leader.text := by
    rw [← Token.isDashed_eq_false_iff, hc]
    decide
  refine ⟨⟨v.text, hoffset ▸ hvalue, Token.isDashed_eq_false_iff.1 (hvalues v (by simp))⟩,
    before.length + (left.length + 1), c.leader.text, by omega, hleader, hdashed, hcalls, ?_⟩
  -- What stands between is one of the other values that are left over.
  intro k hlow hhigh
  obtain ⟨i, rfl⟩ : ∃ i, k = before.length + i := ⟨k - before.length, by omega⟩
  have hi : i < (v :: left).length := by
    rw [List.length_cons]
    omega
  have hother := hget i
  rw [List.getElem?_append_left hi, List.getElem?_eq_getElem hi] at hother
  exact ⟨_, (Token.of_getElem?_numbered hother).2,
    Token.isDashed_eq_false_iff.1 (hvalues _ (List.getElem_mem hi))⟩

end Chunk

/-! ## Every failure can be believed -/

namespace Usage

variable {usage : Usage} {texts : List String} {failure : Failure} {r : Resolution}

/-- If the options resolve, the argument list is a list of items and then the values that are left
over. -/
theorem exists_split_of_resolve (hi : usage.Indexed) (h : usage.resolve texts = .ok r) :
    ∃ items, Item.Split usage (Token.numbered texts) items r.pending ∧
      r.lastValued = Resolution.lastValuedOf none (items.flatMap Item.uses) := by
  obtain ⟨hleading, hcut⟩ := Chunk.wellCut_cut (Token.numbered texts)
  rw [resolve, spelledOut, Chunk.cut_flatMap_spell,
    Resolution.run_flatMap_written_eq_ok_iff hi hleading hcut, Chunk.cut_toTokens] at h
  obtain ⟨items, pending, hsplit, rfl⟩ := h
  exact ⟨items, hsplit, rfl⟩

theorem blames_of_resolve (hi : usage.Indexed)
    (hknown : ∀ c ∈ (usage.spelledOut texts).2, c.Known usage)
    (h : usage.resolve texts = .error failure) :
    failure.error.Blames usage texts failure.offset := by
  obtain ⟨hleading, hcut⟩ := Chunk.wellCut_cut (Token.numbered texts)
  have htokens := Chunk.cut_toTokens (Token.numbered texts)
  rw [spelledOut, Chunk.cut_flatMap_spell] at hknown
  rw [resolve, spelledOut, Chunk.cut_flatMap_spell] at h
  generalize Chunk.cut (Token.numbered texts) = parts at hleading hcut htokens hknown h
  obtain ⟨leading, chunks⟩ := parts
  dsimp only at hleading hcut htokens hknown h
  obtain ⟨done, c, rest, r₁, rfl, hdone, hfail⟩ := Resolution.exists_written_of_run_error h
  obtain ⟨parts, w, others, r₂, hwritten, hparts, hstep⟩ :=
    Resolution.exists_step_of_run_error hfail
  have hc : c.WellCut := hcut c (by simp)
  -- The chunks before are items, and what these leave over stands right before the chunk.
  obtain ⟨items, pending, hsplit, rfl⟩ := (Resolution.run_flatMap_written_eq_ok_iff hi hleading
    fun d hd => hcut d (List.mem_append_left _ hd)).1 hdone
  obtain ⟨front, hfront, -⟩ := hsplit.tokens
  have hplace : Token.numbered texts =
      front ++ (pending ++ (c.toTokens ++ rest.flatMap Chunk.toTokens)) := by
    rw [← htokens, List.flatMap_append, List.flatMap_cons, ← List.append_assoc, hfront,
      List.append_assoc]
  obtain ⟨hpart, hempty⟩ := Chunk.written_split hwritten
  cases pending with
  | nil =>
    have hnext : ∀ t ∈ (rest.flatMap Chunk.toTokens).head?, t.isDashed = true := by
      cases rest with
      | nil => simp
      | cons d rest => simpa [Chunk.toTokens] using (hcut d (by simp)).leader
    have hw : w.Known usage := by
      apply hknown
      rw [List.flatMap_append, List.flatMap_cons, hwritten]
      simp
    rw [Resolution.step, Resolution.pending_of_run_empty hempty rfl hparts] at hstep
    exact hpart.blames (Chunk.standsIn_of_split hplace hnext) hw hstep
  | cons v left =>
    cases parts with
    | cons d parts =>
      obtain ⟨r₃, htaken, -⟩ := Resolution.run_cons_eq_ok_iff.1 hparts
      have hnone := Resolution.pending_of_step htaken
      cases hnone
    | nil =>
      cases hparts
      cases hstep
      exact Chunk.blames_early hplace hsplit.values hc.leader (Chunk.calls_of_written hwritten)

theorem blames_of_complete (hi : usage.Indexed) (hc : Coherent usage.arguments)
    (hknown : ∀ c ∈ (usage.spelledOut texts).2, c.Known usage)
    (h : usage.complete (usage.spelledOut texts).1 (usage.spelledOut texts).2 texts.length =
      .error failure) :
    failure.error.Blames usage texts failure.offset := by
  cases hresolve : usage.resolve texts with
  | error first =>
    obtain rfl : first = failure := by
      rw [complete, ← resolve, hresolve] at h
      exact Except.error.inj h
    exact blames_of_resolve hi hknown hresolve
  | ok r =>
    obtain ⟨items, hsplit, hhint⟩ := exists_split_of_resolve hi hresolve
    rcases Positional.checkCount_error (checkCount_of_complete hc hresolve h) with
      ⟨lower, upper, v, hbound, hv, rfl⟩ | ⟨hfew, rfl⟩
    · obtain ⟨hrun, hlower, hupper⟩ := of_bound_eq_range hc hbound
      have hmem : v ∈ Token.numbered texts := by
        obtain ⟨front, hfront, -⟩ := hsplit.tokens
        rw [hfront]
        exact List.mem_append_right _ (List.mem_of_getElem? hv)
      exact ⟨hrun, hlower, hupper, items, r.pending, v, hsplit, hv, rfl,
        Token.getElem?_of_mem_numbered hmem⟩
    · exact ⟨rfl, bound_lower hc, hfew, items, r.pending, hsplit, rfl, hhint⟩

/-- **Every failure names the token at fault.** Its offset is that of a token, or the number of
tokens if the list ends too early, and what the error says is true of the argument list at that
offset. -/
theorem fit_blames_token {given : Option String} {source : String}
    (h : read given source = .ok usage) {i : Nat} {e : MatchError}
    (hfit : usage.fit texts = .error ⟨i, e⟩) :
    i ≤ texts.length ∧
    (i = texts.length ↔ ∃ min received hint, e = .tooFewArguments min received hint) ∧
    e.Blames usage texts i := by
  have hhelp : ¬("-h" ∈ texts ∨ "--help" ∈ texts) := by
    intro hasks
    rw [fit_eq, if_pos hasks] at hfit
    cases hfit
  have hblames : e.Blames usage texts i := by
    rcases (fit_eq_error_iff hhelp).1 hfit with hgroup | ⟨-, hoption⟩ | ⟨hgroups, hoptions, hfail⟩
    · obtain ⟨t, ht, hfault⟩ := List.exists_of_findSome?_eq_some hgroup
      exact Token.blames_of_groupFault? ht hfault
    · obtain ⟨t, ht, hfault⟩ := List.exists_of_findSome?_eq_some hoption
      exact Token.blames_of_unknownFault? ht hfault
    · exact blames_of_complete (indexed_of_read h) (coherent_of_read h)
        (known_of_mem_spelledOut hgroups hoptions) hfail
  obtain ⟨hle, hend⟩ := hblames.place
  exact ⟨hle, hend, hblames⟩

/-- The last letter of a group takes a value of another kind, which comes right after the group. -/
theorem fit_blames_token_after_group :
    ∃ usage, read none "Usage: p [-q] [-n NUM] file" = .ok usage ∧
      usage.fit ["-qn", "x", "a"] = .error ⟨1, .invalidTypedValue "x" "-n" .integer⟩ ∧
      (MatchError.invalidTypedValue "x" "-n" .integer).Blames usage ["-qn", "x", "a"] 1 := by
  let usage : Usage :=
    { program := "p"
      message := "Usage: p [-q] [-n NUM] file"
      arguments := [⟨"file", .required⟩]
      options := [⟨"q", .short 'q', none⟩, ⟨"n", .short 'n', some "NUM"⟩]
      flagTable := NameMap.empty.insertAll [("-q", 0), ("-n", 1)]
      defaults := .empty }
  have hread : read none "Usage: p [-q] [-n NUM] file" = .ok usage := by decide +kernel
  have hfit : usage.fit ["-qn", "x", "a"] =
      .error ⟨1, .invalidTypedValue "x" "-n" .integer⟩ := by decide +kernel
  exact ⟨usage, hread, hfit, (fit_blames_token hread hfit).2.2⟩

end Usage

end Synopsis
