import Mathlib.Data.List.Forall2
import Synopsis.Proofs.Shorthand

/-!
# The two forms of an option

An option that is declared with a short and a long flag can be given by either. Here two argument
lists are compared that differ only in that some tokens are `a` in the one and `b` in the other,
where `a` and `b` are flags of one option and no shorthands (`Usage.Names`). Matching goes through
the same stages on both: each stage keeps what it is given *respelled*, so both lists end with the
same answer, or with the same failure at the same place, and only the flag that an error names can
differ (`Usage.fit_respelled`).
-/

namespace Synopsis

/-! ## Respelled data -/

/-- The second text is the first one, or it is `b` in the place of `a`. -/
inductive Respelled (a b : String) : String → String → Prop
  | same (text : String) : Respelled a b text text
  | other : Respelled a b a b

/-- Tokens at the same place, where the text may be respelled. -/
inductive Token.Respelled (a b : String) : Token → Token → Prop
  | same (t : Token) : Respelled a b t t
  | other (offset : Nat) : Respelled a b ⟨offset, a⟩ ⟨offset, b⟩

/-- Chunks with the same values, where the leader may be respelled. -/
inductive Chunk.Respelled (a b : String) : Chunk → Chunk → Prop
  | same (c : Chunk) : Respelled a b c c
  | other (offset : Nat) (values : List Token) :
    Respelled a b ⟨⟨offset, a⟩, values⟩ ⟨⟨offset, b⟩, values⟩

/-- The same stand of a resolution, where the flag of the last option may be respelled. -/
inductive Resolution.Respelled (a b : String) : Resolution → Resolution → Prop
  | same (r : Resolution) : Respelled a b r r
  | other (found : Matches) (pending : List Token) :
    Respelled a b ⟨found, pending, some a⟩ ⟨found, pending, some b⟩

/-- The same error, where the option that it names, or hints at, may be respelled. -/
inductive MatchError.Respelled (a b : String) : MatchError → MatchError → Prop
  | same (e : MatchError) : Respelled a b e e
  | argumentsBeforeOption :
    Respelled a b (.argumentsBeforeOption a) (.argumentsBeforeOption b)
  | missingOptionValue : Respelled a b (.missingOptionValue a) (.missingOptionValue b)
  | invalidTypedValue (value : String) (expected : Kind) :
    Respelled a b (.invalidTypedValue value a expected) (.invalidTypedValue value b expected)
  | tooFewArguments (min received : Nat) :
    Respelled a b (.tooFewArguments min received (some a)) (.tooFewArguments min received (some b))

/-- Answers that are alike: two results that `same` relates, or two failures at one offset, where
the error may be respelled. -/
inductive Alike (a b : String) {α : Type} (same : α → α → Prop) :
    Except Failure α → Except Failure α → Prop
  | ok {x y : α} (h : same x y) : Alike a b same (.ok x) (.ok y)
  | error (offset : Nat) {e e' : MatchError} (h : e.Respelled a b e') :
    Alike a b same (.error ⟨offset, e⟩) (.error ⟨offset, e'⟩)

variable {a b : String} {usage : Usage} {o : OptionSpec}

namespace Alike

variable {α β : Type} {same : α → α → Prop}

theorem refl (h : ∀ x, same x x) (answer : Except Failure α) : Alike a b same answer answer := by
  cases answer with
  | ok x => exact .ok (h x)
  | error failure => exact .error failure.offset (.same failure.error)

theorem rfl {answer : Except Failure α} : Alike a b Eq answer answer :=
  refl Eq.refl answer

theorem map {x y : Except Failure α} (h : Alike a b Eq x y) (f : α → β) :
    Alike a b Eq (x.map f) (y.map f) := by
  cases h with
  | ok h => exact .ok (congrArg f h)
  | error offset h => exact .error offset h

end Alike

/-! ## Stages that see no difference -/

/-- The flag is declared for the option, and it is no shorthand. -/
structure Usage.Names (usage : Usage) (flag : String) (o : OptionSpec) : Prop where
  option? : usage.option? flag = some o
  dashed : ¬IsValue flag
  plain : ¬usage.IsShorthand flag

namespace Usage.Names

variable {flag : String}

/-- Only a dash and a digit can be declared and still be a shorthand. -/
theorem of_option? (hi : usage.Indexed) (ho : usage.option? flag = some o)
    (hdigit : ∀ c : Char, c.isDigit = true → flag ≠ Flags.shortToken c) : usage.Names flag o := by
  refine ⟨ho, fun hvalue => hvalue (head?_of_option? hi ho), ?_⟩
  rintro (hgroup | ⟨-, hnumber⟩)
  · simp [groupLetters?_of_option? hi ho] at hgroup
  · obtain ⟨digits, hd⟩ := Option.isSome_iff_exists.1 hnumber
    obtain ⟨c, hc, hflag⟩ := exists_digit_of_number hi ho hd
    exact hdigit c hc hflag

theorem isDashed (h : usage.Names flag o) (offset : Nat) :
    (⟨offset, flag⟩ : Token).isDashed = true := by
  rw [← Bool.not_eq_false, Token.isDashed_eq_false_iff]
  exact h.dashed

theorem groupFault? (h : usage.Names flag o) (offset : Nat) :
    (⟨offset, flag⟩ : Token).groupFault? usage = none := by
  rw [Token.groupFault?_eq_none_iff]
  rintro ⟨letters, hl, -⟩
  exact h.plain (.inl (Option.isSome_of_mem hl))

theorem unknownFault? (h : usage.Names flag o) (offset : Nat) :
    (⟨offset, flag⟩ : Token).unknownFault? usage = none :=
  Token.unknownFault?_of_isSome (Option.isSome_of_mem h.option?) offset

theorem spell (h : usage.Names flag o) (offset : Nat) :
    (⟨offset, flag⟩ : Token).spell usage = [⟨offset, flag⟩] :=
  Token.spell_of_not_isShorthand h.plain

end Usage.Names

namespace Token

variable {ts ts' : List Token}

/-- A search that passes over `a` and `b` finds the same in respelled tokens. -/
theorem findSome?_respelled {f : Token → Option Failure} (ha : ∀ offset, f ⟨offset, a⟩ = none)
    (hb : ∀ offset, f ⟨offset, b⟩ = none) (h : List.Forall₂ (Respelled a b) ts ts') :
    ts.findSome? f = ts'.findSome? f := by
  induction h with
  | nil => rfl
  | cons ht _ ih =>
    rw [List.findSome?_cons, List.findSome?_cons, ih]
    cases ht with
    | same => rfl
    | other offset => rw [ha, hb]

theorem spell_respelled (ha : usage.Names a o) (hb : usage.Names b o) {t t' : Token}
    (h : Respelled a b t t') : List.Forall₂ (Respelled a b) (t.spell usage) (t'.spell usage) := by
  cases h with
  | same => exact List.forall₂_same.2 fun s _ => .same s
  | other offset =>
    rw [ha.spell, hb.spell]
    exact .cons (.other offset) .nil

theorem numberedFrom_respelled {xs ys : List String}
    (h : List.Forall₂ (Synopsis.Respelled a b) xs ys) (offset : Nat) :
    List.Forall₂ (Respelled a b) (numberedFrom offset xs) (numberedFrom offset ys) := by
  induction h generalizing offset with
  | nil => exact .nil
  | cons htext _ ih =>
    refine .cons ?_ (ih (offset + 1))
    cases htext with
    | same => exact .same _
    | other => exact .other offset

end Token

/-- Respelled tokens are cut at the same places. Values are not respelled, since `a` and `b` start
with a dash. -/
theorem Chunk.cut_respelled (ha : usage.Names a o) (hb : usage.Names b o) {ts ts' : List Token}
    (h : List.Forall₂ (Token.Respelled a b) ts ts') :
    (cut ts).1 = (cut ts').1 ∧ List.Forall₂ (Respelled a b) (cut ts).2 (cut ts').2 := by
  induction h with
  | nil => exact ⟨rfl, .nil⟩
  | @cons t _ _ _ ht _ ih =>
    obtain ⟨hvalues, hchunks⟩ := ih
    cases ht with
    | same =>
      cases hdash : t.isDashed with
      | false =>
        rw [cut_cons_value hdash, cut_cons_value hdash, hvalues]
        exact ⟨rfl, hchunks⟩
      | true =>
        rw [cut_cons_dashed hdash, cut_cons_dashed hdash, hvalues]
        exact ⟨rfl, .cons (.same _) hchunks⟩
    | other offset =>
      rw [cut_cons_dashed (ha.isDashed offset), cut_cons_dashed (hb.isDashed offset), hvalues]
      exact ⟨rfl, .cons (.other offset _) hchunks⟩

/-! ## Stages that keep the spelling -/

namespace Resolution

variable {r r' : Resolution}

theorem settle_respelled (ha : usage.Names a o) (hb : usage.Names b o) (found : Matches)
    {c c' : Chunk} (h : c.Respelled a b c') :
    Alike a b (Respelled a b) (settle usage found c) (settle usage found c') := by
  cases h with
  | same => exact .refl .same _
  | other offset values =>
    simp only [settle, ha.option?, hb.option?]
    cases o.kind? with
    | none => exact .ok (.same _)
    | some kind =>
      cases values with
      | nil => exact .error offset .missingOptionValue
      | cons v rest =>
        dsimp only
        cases kind.coerce? v.text with
        | none => exact .error v.offset (.invalidTypedValue v.text kind)
        | some value => exact .ok (.other _ rest)

theorem step_respelled (ha : usage.Names a o) (hb : usage.Names b o)
    (hr : r.Respelled a b r') {c c' : Chunk} (hc : c.Respelled a b c') :
    Alike a b (Respelled a b) (step usage r c) (step usage r' c') := by
  have hsame : r.found = r'.found ∧ r.pending = r'.pending := by
    cases hr <;> exact ⟨rfl, rfl⟩
  rw [step, step, hsame.1, hsame.2]
  cases r'.pending with
  | nil => exact settle_respelled ha hb r'.found hc
  | cons v rest =>
    cases hc with
    | same => exact .error v.offset (.same _)
    | other offset values => exact .error v.offset .argumentsBeforeOption

/-- Respelled chunks resolve alike. -/
theorem run_respelled (ha : usage.Names a o) (hb : usage.Names b o) (hr : r.Respelled a b r')
    {cs cs' : List Chunk} (hcs : List.Forall₂ (Chunk.Respelled a b) cs cs') :
    Alike a b (Respelled a b) (run usage r cs) (run usage r' cs') := by
  induction hcs generalizing r r' with
  | nil => exact .ok hr
  | cons hc _ ih =>
    have hstep := step_respelled ha hb hr hc
    rw [run, run]
    generalize step usage r _ = x, step usage r' _ = y at hstep
    cases hstep with
    | ok hr => exact ih hr
    | error offset he => exact .error offset he

end Resolution

theorem Positional.checkCount_respelled (bound : Bound) {r r' : Resolution}
    (hr : r.Respelled a b r') (stop : Nat) :
    Alike a b Eq (checkCount bound r.pending r.lastValued stop)
      (checkCount bound r'.pending r'.lastValued stop) := by
  cases hr with
  | same => exact .rfl
  | other found pending =>
    have hlower : ∀ lower, Alike a b Eq (checkLower lower pending (some a) stop)
        (checkLower lower pending (some b) stop) := by
      intro lower
      rw [checkLower, checkLower]
      split
      · exact .error stop (.tooFewArguments lower pending.length)
      · exact .ok rfl
    cases bound with
    | atLeast lower => exact hlower lower
    | range lower upper =>
      simp only [checkCount]
      split
      · exact .rfl
      · exact hlower lower

namespace Usage

theorem complete_respelled (ha : usage.Names a o) (hb : usage.Names b o) (leading : List Token)
    {cs cs' : List Chunk} (hcs : List.Forall₂ (Chunk.Respelled a b) cs cs') (stop : Nat) :
    Alike a b Eq (usage.complete leading cs stop) (usage.complete leading cs' stop) := by
  have hrun := Resolution.run_respelled ha hb
    (.same ⟨.ofDefaults usage.defaults, leading, none⟩) hcs
  rw [complete, complete]
  generalize Resolution.run usage _ cs = x, Resolution.run usage _ cs' = y at hrun
  cases hrun with
  | error offset he => exact .error offset he
  | @ok r r' hr =>
    have hcount := Positional.checkCount_respelled usage.bound hr stop
    cases hr with
    | same => exact .rfl
    | other found pending =>
      dsimp only at hcount ⊢
      generalize Positional.checkCount _ _ (some a) _ = x,
        Positional.checkCount _ _ (some b) _ = y at hcount
      cases hcount with
      | error offset he => exact .error offset he
      | ok => exact .rfl

theorem fitTokens_respelled (ha : usage.Names a o) (hb : usage.Names b o) {ts ts' : List Token}
    (h : List.Forall₂ (Token.Respelled a b) ts ts') (stop : Nat) :
    Alike a b Eq (usage.fitTokens ts stop) (usage.fitTokens ts' stop) := by
  have hspelled := List.rel_flatMap h fun _ _ => Token.spell_respelled ha hb
  obtain ⟨hleading, hchunks⟩ := Chunk.cut_respelled ha hb hspelled
  rw [fitTokens, fitTokens, Token.findSome?_respelled ha.groupFault? hb.groupFault? h,
    Token.findSome?_respelled ha.unknownFault? hb.unknownFault? h]
  cases ts'.findSome? (Token.groupFault? usage) with
  | some failure => exact .rfl
  | none =>
    cases ts'.findSome? (Token.unknownFault? usage) with
    | some failure => exact .rfl
    | none =>
      dsimp only
      rw [hleading]
      exact (complete_respelled ha hb _ hchunks stop).map Outcome.complete

theorem mem_respelled {flag : String} (ha : a ≠ flag) (hb : b ≠ flag) {texts texts' : List String}
    (h : List.Forall₂ (Respelled a b) texts texts') : flag ∈ texts ↔ flag ∈ texts' := by
  induction h with
  | nil => rfl
  | cons ht _ ih =>
    rw [List.mem_cons, List.mem_cons, ih]
    cases ht with
    | same => rfl
    | other => rw [or_iff_right ha.symm, or_iff_right hb.symm]

/-- **Flags of one option are interchangeable.** If one flag is replaced by the other one in any
places of an argument list, the answer is the same, but for the flag that an error names. -/
theorem fit_respelled (ha : usage.Names a o) (hb : usage.Names b o) (hshort : a ≠ "-h" ∧ b ≠ "-h")
    (hlong : a ≠ "--help" ∧ b ≠ "--help") {texts texts' : List String}
    (h : List.Forall₂ (Respelled a b) texts texts') :
    Alike a b Eq (usage.fit texts) (usage.fit texts') := by
  have hasks : "-h" ∈ texts ∨ "--help" ∈ texts ↔ "-h" ∈ texts' ∨ "--help" ∈ texts' :=
    or_congr (mem_respelled hshort.1 hshort.2 h) (mem_respelled hlong.1 hlong.2 h)
  rw [fit_eq, fit_eq]
  by_cases hask : "-h" ∈ texts ∨ "--help" ∈ texts
  · rw [if_pos hask, if_pos (hasks.1 hask)]
    exact .ok rfl
  · rw [if_neg hask, if_neg fun hask' => hask (hasks.2 hask'), h.length_eq]
    exact fitTokens_respelled ha hb (Token.numberedFrom_respelled h 0) texts'.length

/-- **Short and long forms are interchangeable.** If an option has both, the long form can stand for
the short one anywhere in an argument list. The answer is the same: the same matches, the same help,
or the same failure at the same offset, where the flag that the error names may be the long form for
the short one. -/
theorem fit_short_eq_long {given : Option String} {source : String}
    (h : read given source = .ok usage) (ho : o ∈ usage.options) {x : Char} {l : String}
    (hx : o.flags.short? = some x) (hl : o.flags.long? = some l) (hh : x ≠ 'h')
    (hdigit : x.isDigit = false) (hhelp : l ≠ "help") (before after : List String) :
    Alike (Flags.shortToken x) (Flags.longToken l) Eq
      (usage.fit (before ++ Flags.shortToken x :: after))
      (usage.fit (before ++ Flags.longToken l :: after)) := by
  have hi := indexed_of_read h
  have hshort : usage.Names (Flags.shortToken x) o := by
    refine .of_option? hi (hi.option?_eq_some_iff.2 ⟨ho, Flags.mem_tokens.2 (.inl ⟨x, hx, rfl⟩)⟩) ?_
    intro c hc hflag
    rw [← Flags.shortToken_inj.1 hflag, hdigit] at hc
    cases hc
  have hlong : usage.Names (Flags.longToken l) o := by
    refine .of_option? hi (hi.option?_eq_some_iff.2 ⟨ho, Flags.mem_tokens.2 (.inr ⟨l, hl, rfl⟩)⟩) ?_
    intro c hc hflag
    refine Flags.shortToken_ne_longToken ?_ l hflag.symm
    rintro rfl
    cases hc
  -- The short form is not `--help`, which is longer; the long one is not `-h`, which has one dash.
  have hletter : Flags.shortToken x ≠ "-h" := fun he => hh (Flags.shortToken_inj.1 he)
  have hname : Flags.longToken l ≠ "--help" := fun he => hhelp (Flags.longToken_inj.1 he)
  have hlength : Flags.shortToken x ≠ "--help" := by
    intro he
    simpa [Flags.shortToken] using congrArg String.toList he
  have hdash : Flags.longToken l ≠ "-h" :=
    fun he => Flags.shortToken_ne_longToken (by decide) l he.symm
  refine fit_respelled hshort hlong ⟨hletter, hdash⟩ ⟨hlength, hname⟩ ?_
  refine List.rel_append (List.forall₂_same.2 fun text _ => .same text) (.cons .other ?_)
  exact List.forall₂_same.2 fun text _ => .same text

/-- The option takes the only value, and the hint names the form that was given. The short flag was
first declared for another option. -/
theorem fit_short_eq_long_hint :
    ∃ usage, read none "Usage: p file\n  -o, --old\n  -o, --out NUM" = .ok usage ∧
      usage.fit ["-o", "3"] = .error ⟨2, .tooFewArguments 1 0 (some "-o")⟩ ∧
      usage.fit ["--out", "3"] = .error ⟨2, .tooFewArguments 1 0 (some "--out")⟩ ∧
      Alike "-o" "--out" Eq (usage.fit ["-o", "3"]) (usage.fit ["--out", "3"]) := by
  let usage : Usage :=
    { program := "p"
      message := "Usage: p file\n  -o, --old\n  -o, --out NUM"
      arguments := [⟨"file", .required⟩]
      options := [⟨"old", .long "old", none⟩, ⟨"out", .both 'o' "out", some "NUM"⟩]
      flagTable := NameMap.empty.insertAll [("--old", 0), ("-o", 1), ("--out", 1)]
      defaults := .empty }
  have hread : read none "Usage: p file\n  -o, --old\n  -o, --out NUM" = .ok usage := by
    decide +kernel
  refine ⟨usage, hread, by decide +kernel, by decide +kernel, ?_⟩
  exact fit_short_eq_long hread (List.mem_cons_of_mem _ (List.mem_singleton.2 rfl)) rfl rfl
    (by decide) (by decide) (by decide) [] ["3"]

end Usage

end Synopsis
