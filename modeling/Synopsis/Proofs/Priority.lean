import Synopsis.Proofs.Spelling

/-!
# Which failure is reported

An argument list can be wrong in many places. Here all that is wrong with the occurrences of its
options is listed from left to right (`Usage.occurrenceFaults`), without stopping at the first, and
so independently of the order in which matching proceeds. Matching reports groups with an unknown
letter first, then unknown options, then the first fault of that list, and it counts the positional
values only if there is none of these.
-/

namespace Synopsis

/-- The stages of matching that can fail, in their order. -/
inductive Stage where
  | groups
  | unknownOptions
  | occurrences
  | count
  | unreachable
deriving DecidableEq

/-- The stage that an error belongs to. -/
def MatchError.stage : MatchError → Stage
  | .unknownShorthand _ _ _ => .groups
  | .unknownOption _ => .unknownOptions
  | .argumentsBeforeOption _ => .occurrences
  | .missingOptionValue _ => .occurrences
  | .invalidTypedValue _ _ _ => .occurrences
  | .tooManyArguments _ _ => .count
  | .tooFewArguments _ _ _ => .count
  | .internalInconsistency _ => .unreachable

/-! ## The faults of an occurrence -/

/-- The kind of value that the option of a flag takes, if it takes one. -/
def Usage.valueKind? (usage : Usage) (flag : String) : Option Kind :=
  (usage.option? flag).bind OptionSpec.kind?

namespace Chunk

/-- The values that the option of the chunk does not take. -/
def leftOver (usage : Usage) (c : Chunk) : List Token :=
  match usage.valueKind? c.leader.text with
  | some _ => c.values.tail
  | none => c.values

/-- A value stands before the option. -/
def earlyValue? (left : List Token) (c : Chunk) : Option Failure :=
  left.head?.map fun v => ⟨v.offset, .argumentsBeforeOption c.leader.text⟩

/-- The option takes a value and has none. -/
def missingValue? (usage : Usage) (c : Chunk) : Option Failure :=
  match usage.valueKind? c.leader.text, c.values with
  | some _, [] => some ⟨c.leader.offset, .missingOptionValue c.leader.text⟩
  | _, _ => none

/-- The option takes a value, and the one that it has is of another kind. -/
def invalidValue? (usage : Usage) (c : Chunk) : Option Failure :=
  match usage.valueKind? c.leader.text, c.values with
  | some kind, v :: _ =>
    if kind.coerce? v.text = none then
      some ⟨v.offset, .invalidTypedValue v.text c.leader.text kind⟩
    else none
  | _, _ => none

/-- All that is wrong with an occurrence, in the order in which it counts. `left` are the values
that the occurrence before has left over. -/
def faults (usage : Usage) (left : List Token) (c : Chunk) : List Failure :=
  (earlyValue? left c).toList ++ (missingValue? usage c).toList ++ (invalidValue? usage c).toList

/-- All that is wrong with occurrences, from left to right. -/
def allFaults (usage : Usage) : List Token → List Chunk → List Failure
  | _, [] => []
  | left, c :: rest => faults usage left c ++ allFaults usage (c.leftOver usage) rest

theorem stage_of_mem_faults {usage : Usage} {left : List Token} {c : Chunk} {failure : Failure}
    (h : failure ∈ faults usage left c) : failure.error.stage = .occurrences := by
  simp only [faults, List.mem_append, Option.mem_toList] at h
  rcases h with (h | h) | h
  · obtain ⟨v, -, rfl⟩ := Option.map_eq_some_iff.1 h
    rfl
  · unfold missingValue? at h
    split at h
    · cases h
      rfl
    · cases h
  · unfold invalidValue? at h
    split at h
    · split at h
      · cases h
        rfl
      · cases h
    · cases h

theorem stage_of_mem_allFaults {usage : Usage} {left : List Token} {cs : List Chunk}
    {failure : Failure} (h : failure ∈ allFaults usage left cs) :
    failure.error.stage = .occurrences := by
  induction cs generalizing left with
  | nil => cases h
  | cons c cs ih =>
    rw [allFaults, List.mem_append] at h
    rcases h with h | h
    · exact stage_of_mem_faults h
    · exact ih h

end Chunk

/-! ## Resolving reports the first fault -/

namespace Resolution

variable {usage : Usage} {r : Resolution}

/-- One more occurrence fails with its first fault; if it has none, it is taken in, and what its
option does not take is left over. -/
theorem step_faults {c : Chunk} (hc : c.Known usage) :
    (∀ failure, (c.faults usage r.pending).head? = some failure → step usage r c = .error failure) ∧
    (c.faults usage r.pending = [] →
      ∃ r', step usage r c = .ok r' ∧ r'.pending = c.leftOver usage) := by
  obtain ⟨found, pending, lastValued⟩ := r
  obtain ⟨leader, values⟩ := c
  obtain ⟨spec, hspec⟩ := Option.isSome_iff_exists.1 hc
  have hkind : usage.valueKind? leader.text = spec.kind? := by
    rw [Usage.valueKind?, hspec, Option.bind_some]
  dsimp only at hspec
  cases pending with
  | cons v rest => simp [Chunk.faults, Chunk.earlyValue?, step]
  | nil =>
    simp only [Chunk.faults, Chunk.earlyValue?, Chunk.missingValue?, Chunk.invalidValue?,
      Chunk.leftOver, step, settle, hspec, hkind]
    cases spec.kind? with
    | none => simp
    | some kind =>
      cases values with
      | nil => simp
      | cons v rest => cases hvalue : kind.coerce? v.text <;> simp [hvalue]

/-- Occurrences fail with the first of all their faults, and only if there is one. -/
theorem run_allFaults {cs : List Chunk} (hcs : ∀ c ∈ cs, c.Known usage) :
    (∀ failure, (Chunk.allFaults usage r.pending cs).head? = some failure →
      run usage r cs = .error failure) ∧
    (Chunk.allFaults usage r.pending cs = [] → ∃ r', run usage r cs = .ok r') := by
  induction cs generalizing r with
  | nil =>
    refine ⟨?_, fun _ => ⟨r, rfl⟩⟩
    intro failure hhead
    cases hhead
  | cons c cs ih =>
    obtain ⟨hc, hcs⟩ := List.forall_mem_cons.1 hcs
    obtain ⟨herror, hok⟩ := @step_faults usage r c hc
    rw [Chunk.allFaults, run]
    cases hfaults : c.faults usage r.pending with
    | cons first others =>
      have hstep := herror first (by rw [hfaults]; rfl)
      rw [hstep]
      refine ⟨?_, fun hnil => absurd hnil (List.cons_ne_nil _ _)⟩
      intro failure hhead
      cases hhead
      rfl
    | nil =>
      -- Nothing is wrong here, so the next occurrence sees what this one leaves over.
      obtain ⟨r', hstep, hpending⟩ := hok hfaults
      rw [hstep, List.nil_append, ← hpending]
      exact ih hcs

end Resolution

namespace Positional

variable {bound : Bound} {values : List Token} {hint : Option String} {stop : Nat}
  {failure : Failure}

theorem checkLower_error {lower : Nat} (h : checkLower lower values hint stop = .error failure) :
    values.length < lower ∧ failure = ⟨stop, .tooFewArguments lower values.length hint⟩ := by
  unfold checkLower at h
  split at h
  · next hlt =>
    cases h
    exact ⟨hlt, rfl⟩
  · cases h

/-- Counting finds the first value beyond the bound, or that there are too few. -/
theorem checkCount_error (h : checkCount bound values hint stop = .error failure) :
    (∃ lower upper v, bound = .range lower upper ∧ values[upper]? = some v ∧
      failure = ⟨v.offset, .tooManyArguments lower upper⟩) ∨
    (values.length < bound.lower ∧
      failure = ⟨stop, .tooFewArguments bound.lower values.length hint⟩) := by
  cases bound with
  | atLeast lower => exact .inr (checkLower_error h)
  | range lower upper =>
    rw [checkCount] at h
    split at h
    · next hup =>
      have hget := List.getElem?_eq_getElem hup
      rw [hget] at h
      cases h
      exact .inl ⟨lower, upper, _, rfl, hget, rfl⟩
    · exact .inr (checkLower_error h)

theorem stage_of_checkCount (h : checkCount bound values hint stop = .error failure) :
    failure.error.stage = .count := by
  rcases checkCount_error h with ⟨lower, upper, v, -, -, rfl⟩ | ⟨-, rfl⟩ <;> rfl

end Positional

namespace Usage

variable {usage : Usage} {leading : List Token} {cs : List Chunk} {stop : Nat}
  {failure : Failure}

/-- Once the options are resolved, only the number of values can be at fault. -/
theorem checkCount_of_complete (hc : Coherent usage.arguments) {r : Resolution}
    (hrun : Resolution.run usage ⟨.ofDefaults usage.defaults, leading, none⟩ cs = .ok r)
    (h : usage.complete leading cs stop = .error failure) :
    Positional.checkCount usage.bound r.pending r.lastValued stop = .error failure := by
  rw [complete, hrun] at h
  dsimp only at h
  split at h
  · next hcount =>
    cases h
    exact hcount
  · next hcount =>
    have htakes := (bound_accepts_iff hc _).1 (Positional.checkCount_eq_ok_iff.1 hcount)
    rw [Positional.bind_eq_ok hc htakes] at h
    cases h

theorem complete_of_head?_allFaults (hcs : ∀ c ∈ cs, c.Known usage)
    (h : (Chunk.allFaults usage leading cs).head? = some failure) :
    usage.complete leading cs stop = .error failure := by
  have hrun := (@Resolution.run_allFaults usage ⟨.ofDefaults usage.defaults, leading, none⟩ cs
    hcs).1 failure h
  rw [complete, hrun]

/-- Declared occurrences fail with the first of their faults or, if there is none, because of the
number of values. -/
theorem stage_of_complete (hc : Coherent usage.arguments) (hcs : ∀ c ∈ cs, c.Known usage)
    (h : usage.complete leading cs stop = .error failure) :
    ((Chunk.allFaults usage leading cs).head? = some failure ∧
        failure.error.stage = .occurrences) ∨
      (Chunk.allFaults usage leading cs = [] ∧ failure.error.stage = .count) := by
  cases hfaults : Chunk.allFaults usage leading cs with
  | nil =>
    obtain ⟨r, hrun⟩ := (@Resolution.run_allFaults usage
      ⟨.ofDefaults usage.defaults, leading, none⟩ cs hcs).2 hfaults
    exact .inr ⟨rfl, Positional.stage_of_checkCount (checkCount_of_complete hc hrun h)⟩
  | cons first others =>
    have hfirst : usage.complete leading cs stop = .error first :=
      complete_of_head?_allFaults hcs (by rw [hfaults]; rfl)
    obtain rfl : first = failure := Except.error.inj (hfirst.symm.trans h)
    exact .inl ⟨rfl, Chunk.stage_of_mem_allFaults (hfaults ▸ List.mem_cons_self)⟩

end Usage

/-! ## The first token at fault -/

/-- The text at place `i` is the first for which `p` holds. -/
def Leftmost (p : String → Prop) (texts : List String) (i : Nat) : Prop :=
  (∃ text, texts[i]? = some text ∧ p text) ∧ ∀ j < i, ∀ text, texts[j]? = some text → ¬p text

theorem Leftmost.exists_mem {p : String → Prop} {texts : List String} {i : Nat}
    (h : Leftmost p texts i) : ∃ text ∈ texts, p text := by
  obtain ⟨⟨text, hget, hp⟩, -⟩ := h
  exact ⟨text, List.mem_of_getElem? hget, hp⟩

namespace Token

variable {usage : Usage} {t : Token} {failure : Failure}

theorem unknownFault?_eq_none_iff : t.unknownFault? usage = none ↔ ¬usage.Undeclared t.text := by
  rw [unknownFault?]
  split <;> simp [*]

theorem of_groupFault? (h : t.groupFault? usage = some failure) :
    failure.offset = t.offset ∧ failure.error.stage = .groups := by
  obtain ⟨letters, -, hfind⟩ := Option.bind_eq_some_iff.1 h
  obtain ⟨letter, -, rfl⟩ := Option.map_eq_some_iff.1 hfind
  exact ⟨rfl, rfl⟩

theorem of_unknownFault? (h : t.unknownFault? usage = some failure) :
    failure.offset = t.offset ∧ failure.error.stage = .unknownOptions := by
  unfold unknownFault? at h
  split at h
  · cases h
    exact ⟨rfl, rfl⟩
  · cases h

section

variable {texts : List String} {fault? : Token → Option Failure} {p : String → Prop}

/-- The first fault that a search among the tokens finds is that of the leftmost text that has
one. -/
theorem leftmost_of_findSome? (hp : ∀ t : Token, fault? t = none ↔ ¬p t.text)
    (hplace : ∀ (t : Token) failure, fault? t = some failure → failure.offset = t.offset)
    (h : (numbered texts).findSome? fault? = some failure) : Leftmost p texts failure.offset := by
  obtain ⟨before, t, after, hsplit, hfault, hbefore⟩ := List.findSome?_eq_some_iff.1 h
  have hat : (numbered texts)[before.length]? = some t := by
    rw [hsplit, List.getElem?_append_right (Nat.le_refl _), Nat.sub_self]
    rfl
  rw [getElem?_numbered, Option.map_eq_some_iff] at hat
  obtain ⟨text, htext, rfl⟩ := hat
  rw [hplace _ _ hfault]
  refine ⟨⟨text, htext, ?_⟩, ?_⟩
  · by_contra hno
    rw [(hp ⟨before.length, text⟩).2 hno] at hfault
    cases hfault
  · intro j hj other hother
    have hmem : (⟨j, other⟩ : Token) ∈ before := by
      have hget := getElem?_numbered texts j
      rw [hother, hsplit, List.getElem?_append_left hj] at hget
      exact List.mem_of_getElem? hget
    exact (hp ⟨j, other⟩).1 (hbefore _ hmem)

theorem findSome?_numbered_eq_none_iff (hp : ∀ t : Token, fault? t = none ↔ ¬p t.text) :
    (numbered texts).findSome? fault? = none ↔ ∀ text ∈ texts, ¬p text := by
  rw [List.findSome?_eq_none_iff]
  simp only [hp]
  constructor
  · intro h text hmem
    rw [← map_text_numbered texts] at hmem
    obtain ⟨t, ht, rfl⟩ := List.mem_map.1 hmem
    exact h t ht
  · intro h t ht
    apply h
    rw [← map_text_numbered texts]
    exact List.mem_map_of_mem ht

theorem exists_findSome?_numbered (hp : ∀ t : Token, fault? t = none ↔ ¬p t.text)
    (h : ∃ text ∈ texts, p text) : ∃ failure, (numbered texts).findSome? fault? = some failure := by
  rw [← Option.ne_none_iff_exists', ne_eq, findSome?_numbered_eq_none_iff hp]
  obtain ⟨text, hmem, hfault⟩ := h
  exact fun hno => hno text hmem hfault

end

end Token

namespace Usage

/-- No group of the argument list has an unknown letter. -/
def GroupsKnown (usage : Usage) (texts : List String) : Prop :=
  ∀ text ∈ texts, ¬usage.UnknownGroup text

/-- No option of the argument list is unknown. -/
def OptionsKnown (usage : Usage) (texts : List String) : Prop :=
  ∀ text ∈ texts, ¬usage.Undeclared text

/-- The leading values and the occurrences of options in an argument list. -/
def spelledOut (usage : Usage) (texts : List String) : List Token × List Chunk :=
  Chunk.cut ((Token.numbered texts).flatMap (Token.spell usage))

/-- All that is wrong with the occurrences of options in an argument list, from left to right. -/
def occurrenceFaults (usage : Usage) (texts : List String) : List Failure :=
  Chunk.allFaults usage (usage.spelledOut texts).1 (usage.spelledOut texts).2

/-- The options of an argument list, resolved one after the other. -/
def resolve (usage : Usage) (texts : List String) : Except Failure Resolution :=
  Resolution.run usage ⟨.ofDefaults usage.defaults, (usage.spelledOut texts).1, none⟩
    (usage.spelledOut texts).2

variable {usage : Usage} {texts : List String} {failure : Failure}

theorem findSome?_groupFault?_eq_none_iff :
    (Token.numbered texts).findSome? (Token.groupFault? usage) = none ↔ usage.GroupsKnown texts :=
  Token.findSome?_numbered_eq_none_iff fun _ => Token.groupFault?_eq_none_iff

theorem findSome?_unknownFault?_eq_none_iff :
    (Token.numbered texts).findSome? (Token.unknownFault? usage) = none ↔
      usage.OptionsKnown texts :=
  Token.findSome?_numbered_eq_none_iff fun _ => Token.unknownFault?_eq_none_iff

/-- If no group and no option is unknown, all occurrences are declared. -/
theorem known_of_mem_spelledOut (hgroups : usage.GroupsKnown texts)
    (hoptions : usage.OptionsKnown texts) : ∀ c ∈ (usage.spelledOut texts).2, c.Known usage := by
  have hocc := usage.occurrences_cut (Token.numbered texts)
  rw [findSome?_groupFault?_eq_none_iff.2 hgroups,
    findSome?_unknownFault?_eq_none_iff.2 hoptions] at hocc
  exact (occurrences_eq_ok_iff.1 hocc).2

/-- Without a request for help, matching fails at a group, or else at an unknown option, or else
where it completes what the tokens spell out. -/
theorem fit_eq_error_iff (hhelp : ¬("-h" ∈ texts ∨ "--help" ∈ texts)) :
    usage.fit texts = .error failure ↔
      (Token.numbered texts).findSome? (Token.groupFault? usage) = some failure ∨
      (usage.GroupsKnown texts ∧
        (Token.numbered texts).findSome? (Token.unknownFault? usage) = some failure) ∨
      (usage.GroupsKnown texts ∧ usage.OptionsKnown texts ∧
        usage.complete (usage.spelledOut texts).1 (usage.spelledOut texts).2 texts.length =
          .error failure) := by
  rw [fit_eq, if_neg hhelp, fitTokens, ← findSome?_groupFault?_eq_none_iff,
    ← findSome?_unknownFault?_eq_none_iff]
  cases (Token.numbered texts).findSome? (Token.groupFault? usage) with
  | some first => simp
  | none =>
    cases (Token.numbered texts).findSome? (Token.unknownFault? usage) with
    | some first => simp
    | none =>
      show Except.map _ (usage.complete (usage.spelledOut texts).1 (usage.spelledOut texts).2
        texts.length) = _ ↔ _
      cases usage.complete (usage.spelledOut texts).1 (usage.spelledOut texts).2 texts.length <;>
        simp [Except.map]

theorem stage_of_findSome?_groupFault?
    (h : (Token.numbered texts).findSome? (Token.groupFault? usage) = some failure) :
    failure.error.stage = .groups := by
  obtain ⟨t, -, hfault⟩ := List.exists_of_findSome?_eq_some h
  exact (Token.of_groupFault? hfault).2

theorem stage_of_findSome?_unknownFault?
    (h : (Token.numbered texts).findSome? (Token.unknownFault? usage) = some failure) :
    failure.error.stage = .unknownOptions := by
  obtain ⟨t, -, hfault⟩ := List.exists_of_findSome?_eq_some h
  exact (Token.of_unknownFault? hfault).2

/-- The stage of a failure tells what was found wrong, and what was not found wrong before. -/
theorem fit_error_cases (hc : Coherent usage.arguments)
    (hhelp : ¬("-h" ∈ texts ∨ "--help" ∈ texts)) (h : usage.fit texts = .error failure) :
    (failure.error.stage = .groups ∧
      (Token.numbered texts).findSome? (Token.groupFault? usage) = some failure) ∨
    (failure.error.stage = .unknownOptions ∧ usage.GroupsKnown texts ∧
      (Token.numbered texts).findSome? (Token.unknownFault? usage) = some failure) ∨
    (failure.error.stage = .occurrences ∧ usage.GroupsKnown texts ∧ usage.OptionsKnown texts ∧
      (usage.occurrenceFaults texts).head? = some failure) ∨
    (failure.error.stage = .count ∧ usage.GroupsKnown texts ∧ usage.OptionsKnown texts ∧
      usage.occurrenceFaults texts = []) := by
  rcases (fit_eq_error_iff hhelp).1 h with hgroup | ⟨hgroups, hoption⟩ | ⟨hgroups, hoptions, hfail⟩
  · exact .inl ⟨stage_of_findSome?_groupFault? hgroup, hgroup⟩
  · exact .inr (.inl ⟨stage_of_findSome?_unknownFault? hoption, hgroups, hoption⟩)
  · have hknown := known_of_mem_spelledOut hgroups hoptions
    rcases stage_of_complete hc hknown hfail with ⟨hhead, hstage⟩ | ⟨hnone, hstage⟩
    · exact .inr (.inr (.inl ⟨hstage, hgroups, hoptions, hhead⟩))
    · exact .inr (.inr (.inr ⟨hstage, hgroups, hoptions, hnone⟩))

theorem leftmost_of_fit_groups (hc : Coherent usage.arguments)
    (hhelp : ¬("-h" ∈ texts ∨ "--help" ∈ texts)) (h : usage.fit texts = .error failure)
    (hstage : failure.error.stage = .groups) :
    Leftmost usage.UnknownGroup texts failure.offset := by
  have hcases := fit_error_cases hc hhelp h
  simp only [hstage, reduceCtorEq, false_and, or_false, true_and] at hcases
  exact Token.leftmost_of_findSome? (fun _ => Token.groupFault?_eq_none_iff)
    (fun _ _ hfault => (Token.of_groupFault? hfault).1) hcases

theorem leftmost_of_fit_unknownOptions (hc : Coherent usage.arguments)
    (hhelp : ¬("-h" ∈ texts ∨ "--help" ∈ texts)) (h : usage.fit texts = .error failure)
    (hstage : failure.error.stage = .unknownOptions) :
    usage.GroupsKnown texts ∧ Leftmost usage.Undeclared texts failure.offset := by
  have hcases := fit_error_cases hc hhelp h
  simp only [hstage, reduceCtorEq, false_and, or_false, false_or, true_and] at hcases
  exact ⟨hcases.1, Token.leftmost_of_findSome? (fun _ => Token.unknownFault?_eq_none_iff)
    (fun _ _ hfault => (Token.of_unknownFault? hfault).1) hcases.2⟩

/-- **Matching reports the most urgent failure**, whatever else is wrong. Of the groups with an
unknown letter it is the leftmost one; if there is no such group, it is the leftmost unknown
option; otherwise it is the first fault of the occurrences of options, and the number of values
counts only if there is none. -/
theorem fit_reports_first_fault {given : Option String} {source : String}
    (h : read given source = .ok usage) (hhelp : ¬("-h" ∈ texts ∨ "--help" ∈ texts)) :
    ((∃ failure, usage.fit texts = .error failure ∧ failure.error.stage = .groups) ↔
      ∃ text ∈ texts, usage.UnknownGroup text) ∧
    (∀ failure, usage.fit texts = .error failure → failure.error.stage = .groups →
      Leftmost usage.UnknownGroup texts failure.offset) ∧
    ((∃ failure, usage.fit texts = .error failure ∧ failure.error.stage = .unknownOptions) ↔
      usage.GroupsKnown texts ∧ ∃ text ∈ texts, usage.Undeclared text) ∧
    (∀ failure, usage.fit texts = .error failure → failure.error.stage = .unknownOptions →
      Leftmost usage.Undeclared texts failure.offset) ∧
    (usage.GroupsKnown texts → usage.OptionsKnown texts → ∀ failure,
      (usage.fit texts = .error failure ∧ failure.error.stage = .occurrences ↔
        (usage.occurrenceFaults texts).head? = some failure)) ∧
    ∀ failure, usage.fit texts = .error failure → failure.error.stage = .count →
      usage.GroupsKnown texts ∧ usage.OptionsKnown texts ∧ usage.occurrenceFaults texts = [] ∧
      ∃ r, usage.resolve texts = .ok r := by
  have hc := coherent_of_read h
  refine ⟨⟨?_, ?_⟩, ?_, ⟨?_, ?_⟩, ?_, ?_, ?_⟩
  · rintro ⟨failure, hfit, hstage⟩
    exact Leftmost.exists_mem (leftmost_of_fit_groups hc hhelp hfit hstage)
  · intro hbad
    obtain ⟨failure, hfault⟩ :=
      Token.exists_findSome?_numbered (fun _ => Token.groupFault?_eq_none_iff) hbad
    exact ⟨failure, (fit_eq_error_iff hhelp).2 (.inl hfault),
      stage_of_findSome?_groupFault? hfault⟩
  · exact fun failure hfit hstage => leftmost_of_fit_groups hc hhelp hfit hstage
  · rintro ⟨failure, hfit, hstage⟩
    obtain ⟨hgroups, hleft⟩ := leftmost_of_fit_unknownOptions hc hhelp hfit hstage
    exact ⟨hgroups, Leftmost.exists_mem hleft⟩
  · rintro ⟨hgroups, hbad⟩
    obtain ⟨failure, hfault⟩ :=
      Token.exists_findSome?_numbered (fun _ => Token.unknownFault?_eq_none_iff) hbad
    exact ⟨failure, (fit_eq_error_iff hhelp).2 (.inr (.inl ⟨hgroups, hfault⟩)),
      stage_of_findSome?_unknownFault? hfault⟩
  · exact fun failure hfit hstage => (leftmost_of_fit_unknownOptions hc hhelp hfit hstage).2
  · intro hgroups hoptions failure
    constructor
    · rintro ⟨hfit, hstage⟩
      have hcases := fit_error_cases hc hhelp hfit
      simp only [hstage, reduceCtorEq, false_and, or_false, false_or, true_and] at hcases
      exact hcases.2.2
    · intro hhead
      have hknown := known_of_mem_spelledOut hgroups hoptions
      exact ⟨(fit_eq_error_iff hhelp).2
          (.inr (.inr ⟨hgroups, hoptions, complete_of_head?_allFaults hknown hhead⟩)),
        Chunk.stage_of_mem_allFaults (List.mem_of_head? hhead)⟩
  · intro failure hfit hstage
    have hcases := fit_error_cases hc hhelp hfit
    simp only [hstage, reduceCtorEq, false_and, false_or, true_and] at hcases
    obtain ⟨hgroups, hoptions, hnone⟩ := hcases
    have hknown := known_of_mem_spelledOut hgroups hoptions
    exact ⟨hgroups, hoptions, hnone, (Resolution.run_allFaults hknown).2 hnone⟩

/-- A value stands before an option, an option has a value of another kind, and the positional is
missing. The value that is early comes first, but a group with an unknown letter would come before
it. -/
theorem fit_reports_first_fault_early_value :
    ∃ usage, read none "Usage: p [-q] [-n NUM] file" = .ok usage ∧
      usage.fit ["a", "-n", "x"] = .error ⟨0, .argumentsBeforeOption "-n"⟩ ∧
      ∃ failure, usage.fit ["a", "-n", "x", "-qz"] = .error failure ∧
        failure.error.stage = .groups := by
  let usage : Usage :=
    { program := "p"
      message := "Usage: p [-q] [-n NUM] file"
      arguments := [⟨"file", .required⟩]
      options := [⟨"q", .short 'q', none⟩, ⟨"n", .short 'n', some "NUM"⟩]
      flagTable := NameMap.empty.insertAll [("-q", 0), ("-n", 1)]
      defaults := .empty }
  have hread : read none "Usage: p [-q] [-n NUM] file" = .ok usage := by decide +kernel
  obtain ⟨-, -, -, -, hfirst, -⟩ :=
    @fit_reports_first_fault usage ["a", "-n", "x"] none _ hread (by decide)
  have hgroups : usage.GroupsKnown ["a", "-n", "x"] :=
    findSome?_groupFault?_eq_none_iff.1 (by decide +kernel)
  have hoptions : usage.OptionsKnown ["a", "-n", "x"] :=
    findSome?_unknownFault?_eq_none_iff.1 (by decide +kernel)
  have hunknown : usage.UnknownGroup "-qz" :=
    ⟨['q', 'z'], by decide, 'z', by decide, by decide +kernel⟩
  exact ⟨usage, hread, ((hfirst hgroups hoptions _).2 (by decide +kernel)).1,
    (@fit_reports_first_fault usage ["a", "-n", "x", "-qz"] none _ hread (by decide)).1.2
      ⟨"-qz", by decide, hunknown⟩⟩

end Usage

end Synopsis
