import Synopsis.Proofs.Grammar

/-!
# Usages that are the same grammar

Matching asks a usage for three things only: its positionals, its defaults, and the option that a
flag selects. Two usages with the same answers are the same grammar (`Usage.SameGrammar`), and
match every argument list that does not ask for help in the same way, whatever their messages and
the order of their options.

Reading a text gives such usages if the text has the same usage line and declares the same options.
`Usage.agree_read` settles the rest of reading once: the failures depend on the usage line alone.
-/

namespace Synopsis

/-! ## Matching -/

/-- The same positionals, the same defaults, and the same option for every flag. -/
structure Usage.SameGrammar (u v : Usage) : Prop where
  arguments : u.arguments = v.arguments
  defaults : u.defaults = v.defaults
  options : ∀ flag, u.option? flag = v.option? flag

namespace Usage.SameGrammar

variable {u v : Usage}

theorem numericAllowed_eq (h : u.SameGrammar v) :
    Chunk.numericAllowed u = Chunk.numericAllowed v := by
  rw [Chunk.numericAllowed, Chunk.numericAllowed, h.options]

theorem expandGroup_eq (h : u.SameGrammar v) (c : Chunk) :
    Chunk.expandGroup u c = Chunk.expandGroup v c := by
  simp only [Chunk.expandGroup, h.options]

theorem expandGroups_eq (h : u.SameGrammar v) (chunks : List Chunk) :
    Chunk.expandGroups u chunks = Chunk.expandGroups v chunks := by
  induction chunks with
  | nil => rfl
  | cons c chunks ih => simp only [Chunk.expandGroups, h.expandGroup_eq, ih]

theorem occurrences_eq (h : u.SameGrammar v) (chunks : List Chunk) :
    u.occurrences chunks = v.occurrences chunks := by
  simp only [occurrences, Chunk.expandNumbers, Chunk.unknown?, h.expandGroups_eq,
    h.numericAllowed_eq, h.options]

theorem step_eq (h : u.SameGrammar v) (r : Resolution) (c : Chunk) :
    Resolution.step u r c = Resolution.step v r c := by
  simp only [Resolution.step, Resolution.settle, h.options]

theorem run_eq (h : u.SameGrammar v) (r : Resolution) (chunks : List Chunk) :
    Resolution.run u r chunks = Resolution.run v r chunks := by
  induction chunks generalizing r with
  | nil => rfl
  | cons c chunks ih => simp only [Resolution.run, h.step_eq, ih]

theorem bind_eq (h : u.SameGrammar v) (found : Matches) (values : List Token) :
    Positional.bind u found values = Positional.bind v found values := by
  have hrun : u.hasRepeated = v.hasRepeated := by rw [hasRepeated, hasRepeated, h.arguments]
  have hrequired : u.requiredCount = v.requiredCount := by
    rw [requiredCount, requiredCount, count, count, h.arguments]
  simp only [Positional.bind, hrun, hrequired, h.arguments]

theorem complete_eq (h : u.SameGrammar v) (leading : List Token) (chunks : List Chunk)
    (stop : Nat) : u.complete leading chunks stop = v.complete leading chunks stop := by
  simp only [complete, bound, h.run_eq, h.bind_eq, h.arguments, h.defaults]

/-- **The same grammar matches alike.** -/
theorem fit_eq (h : u.SameGrammar v) {texts : List String}
    (hhelp : ¬("-h" ∈ texts ∨ "--help" ∈ texts)) : u.fit texts = v.fit texts := by
  rw [← Chunk.any_asksHelp_cut] at hhelp
  simp only [fit, if_neg hhelp, h.occurrences_eq, h.complete_eq]

end Usage.SameGrammar

/-! ## Reading -/

namespace Usage

/-- Two answers of reading agree: the same failure, or usages that are related. -/
def Agree (related : Usage → Usage → Prop) :
    Except UsageError Usage → Except UsageError Usage → Prop
  | .ok u, .ok v => related u v
  | .error e, .error f => e = f
  | .ok _, .error _ => False
  | .error _, .ok _ => False

/-- Texts with the same tokens on their usage lines fail alike, and the usages that they give are
put together from the same elements. -/
theorem agree_read {related : Usage → Usage → Prop} {given : Option String} {text text' : String}
    (hline : lineTokens? (Text.lines text.toList) = lineTokens? (Text.lines text'.toList))
    (hrelated : ∀ program elements,
      read given text = .ok (assemble program text.toList elements) →
      read given text' = .ok (assemble program text'.toList elements) →
      related (assemble program text.toList elements) (assemble program text'.toList elements)) :
    Agree related (read given text) (read given text') := by
  cases hcase : lineTokens? (Text.lines text'.toList) with
  | none => simp [read, hline, hcase, Agree]
  | some tokens =>
    cases tokens with
    | nil => simp [read, hline, hcase, Agree]
    | cons token rest =>
      cases hes : UsageLine.elements false (elementTokens rest) with
      | error e => simp [read, hline, hcase, hes, Agree]
      | ok elements =>
        cases ha : UsageLine.isAmbiguous (UsageLine.positionals elements) with
        | true => simp [read, hline, hcase, hes, ha, Agree]
        | false =>
          have hread : ∀ text : String,
              lineTokens? (Text.lines text.toList) = some (token :: rest) →
              read given text =
                .ok (assemble (programName given token) text.toList elements) := by
            intro text htokens
            simp [read, htokens, hes, ha]
          have hleft := hread text (hline.trans hcase)
          have hright := hread text' hcase
          rw [hleft, hright]
          exact hrelated _ elements hleft hright

end Usage

end Synopsis
