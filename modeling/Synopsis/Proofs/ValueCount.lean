import Synopsis.Proofs.Priority

/-!
# Too many and too few values

Once its options resolve, an argument list is judged by the number of values that they leave over.
There are three verdicts, of which exactly one applies (`Usage.Resolves.fit_cases`): too many, too
few, or complete. Where values are missing, the last option may have taken one too many; it is
named as a hint if it takes a value, and what earlier options took plays no part
(`Resolution.lastValued_of_run`).

The bound that the verdicts rest on is put together in declared order, but it depends on the
positionals up to their order only (`Bound.ofArguments_perm`).
-/

namespace Synopsis

/-! ## The bound in any order -/

theorem Bound.ofArguments_perm {l k : List Argument} (h : l.Perm k) :
    ofArguments l = ofArguments k := by
  have htally : ∀ arity : Arity, arity.tally l = arity.tally k := fun arity => h.countP_eq _
  have hrun : anyRepeated l = anyRepeated k := h.any_eq
  rw [ofArguments_eq, ofArguments_eq, hrun, htally, htally, htally]

/-! ## The last option -/

namespace Resolution

variable {usage : Usage} {r r' : Resolution}

/-- After an option its flag is the hint, if the option takes a value, and otherwise there is no
hint. -/
theorem lastValued_of_step {c : Chunk} (h : step usage r c = .ok r') :
    r'.lastValued = (usage.valueKind? c.leader.text).map fun _ => c.leader.text := by
  have hpending := pending_of_step h
  simp only [step, hpending] at h
  obtain ⟨taken, s, -, hselect, -, hlast⟩ := settle_eq_ok_iff.1 h
  rw [hlast, Usage.valueKind?]
  cases taken with
  | none =>
    obtain ⟨o, hopt, hkind, -⟩ := Usage.select?_switch_iff.1 hselect
    rw [hopt, Option.bind_some, hkind]
    rfl
  | some v =>
    obtain ⟨o, kind, value, hopt, hkind, -⟩ := Usage.select?_valued_iff.1 hselect
    rw [hopt, Option.bind_some, hkind]
    rfl

/-- The hint is decided by the last option alone. -/
theorem lastValued_of_run {cs : List Chunk} (h : run usage r cs = .ok r') :
    r'.lastValued =
      match cs.getLast? with
      | none => r.lastValued
      | some c => (usage.valueKind? c.leader.text).map fun _ => c.leader.text := by
  induction cs generalizing r with
  | nil =>
    cases h
    rfl
  | cons c cs ih =>
    obtain ⟨r₁, hstep, hrun⟩ := run_cons_eq_ok_iff.1 h
    rw [ih hrun]
    cases cs with
    | nil => exact lastValued_of_step hstep
    | cons d rest => rw [List.getLast?_cons_cons, List.getLast?_cons]

end Resolution

/-! ## Three verdicts -/

namespace Usage

variable {usage : Usage} {texts : List String} {cs : List Chunk} {r : Resolution}

/-- The options of the argument list all resolve: it asks for no help, its shorthands are written
out as the occurrences `cs`, and taking these in ends in `r`. -/
structure Resolves (usage : Usage) (texts : List String) (cs : List Chunk) (r : Resolution) :
    Prop where
  help : ¬("-h" ∈ texts ∨ "--help" ∈ texts)
  occurrences : usage.occurrences (Chunk.cut (Token.numbered texts)).2 = .ok cs
  run : Resolution.run usage
    ⟨.ofDefaults usage.defaults, (Chunk.cut (Token.numbered texts)).1, none⟩ cs = .ok r

namespace Resolves

/-- The hint is the flag of the last occurrence, if its option takes a value. -/
theorem lastValued_eq_some_iff (h : usage.Resolves texts cs r) {flag : String} :
    r.lastValued = some flag ↔
      ∃ c, cs.getLast? = some c ∧ c.leader.text = flag ∧ (usage.valueKind? flag).isSome := by
  rw [Resolution.lastValued_of_run h.run]
  cases cs.getLast? with
  | none => simp
  | some c =>
    simp only [Option.map_eq_some_iff, Option.some.injEq, exists_eq_left']
    constructor
    · rintro ⟨kind, hkind, rfl⟩
      exact ⟨rfl, Option.isSome_of_mem hkind⟩
    · rintro ⟨rfl, hsome⟩
      obtain ⟨kind, hkind⟩ := Option.isSome_iff_exists.1 hsome
      exact ⟨kind, hkind, rfl⟩

/-- Once the options resolve, the answer is that of counting. -/
theorem fit_eq (h : usage.Resolves texts cs r) (hc : Coherent usage.arguments) :
    usage.fit texts =
      (Positional.checkCount usage.bound r.pending r.lastValued texts.length).map fun _ =>
        .complete (r.found.setAll
          (Positional.bindings (r.pending.map Token.text) usage.arguments)) := by
  have hask : ¬(Chunk.cut (Token.numbered texts)).2.any Chunk.asksHelp = true :=
    fun hany => h.help ((Chunk.any_asksHelp_cut texts).1 hany)
  rw [fit]
  dsimp only
  rw [if_neg hask, h.occurrences]
  dsimp only
  rw [complete, h.run]
  dsimp only
  cases hcount : Positional.checkCount usage.bound r.pending r.lastValued texts.length with
  | error failure => rfl
  | ok =>
    have htakes := (bound_accepts_iff hc _).1 (Positional.checkCount_eq_ok_iff.1 hcount)
    dsimp only
    rw [Positional.bind_eq_ok hc htakes]
    rfl

/-- **There are three verdicts**: too many, too few, or complete. -/
theorem fit_cases (h : usage.Resolves texts cs r) (hc : Coherent usage.arguments) :
    (∃ v, usage.hasRepeated = false ∧
      r.pending[usage.requiredCount + usage.optionalCount]? = some v ∧
      usage.fit texts = .error ⟨v.offset,
        .tooManyArguments usage.requiredCount (usage.requiredCount + usage.optionalCount)⟩) ∨
    (r.pending.length < usage.requiredCount + (if usage.hasRepeated then 1 else 0) ∧
      usage.fit texts = .error ⟨texts.length,
        .tooFewArguments (usage.requiredCount + if usage.hasRepeated then 1 else 0)
          r.pending.length r.lastValued⟩) ∨
    (usage.requiredCount + (if usage.hasRepeated then 1 else 0) ≤ r.pending.length ∧
      (usage.hasRepeated = false →
        r.pending.length ≤ usage.requiredCount + usage.optionalCount) ∧
      ∃ m, usage.fit texts = .ok (.complete m)) := by
  rw [h.fit_eq hc]
  cases hcount : Positional.checkCount usage.bound r.pending r.lastValued texts.length with
  | error failure =>
    rcases Positional.checkCount_error hcount with ⟨lower, upper, v, hbound, hv, rfl⟩ | ⟨hfew, rfl⟩
    · obtain ⟨hrun, rfl, rfl⟩ := of_bound_eq_range hc hbound
      exact .inl ⟨v, hrun, hv, rfl⟩
    · rw [bound_lower hc] at hfew ⊢
      exact .inr (.inl ⟨hfew, rfl⟩)
  | ok =>
    have htakes := (bound_accepts_iff hc _).1 (Positional.checkCount_eq_ok_iff.1 hcount)
    rw [Takes] at htakes
    cases hrun : usage.hasRepeated with
    | true =>
      rw [hrun, if_pos rfl] at htakes
      exact .inr (.inr ⟨htakes, fun hno => absurd hno.symm Bool.false_ne_true, _, rfl⟩)
    | false =>
      rw [hrun, if_neg Bool.false_ne_true] at htakes
      exact .inr (.inr ⟨htakes.1, fun _ => htakes.2, _, rfl⟩)

theorem fit_eq_tooMany_iff (h : usage.Resolves texts cs r) (hc : Coherent usage.arguments)
    {offset min max : Nat} :
    usage.fit texts = .error ⟨offset, .tooManyArguments min max⟩ ↔
      min = usage.requiredCount ∧ max = usage.requiredCount + usage.optionalCount ∧
      usage.hasRepeated = false ∧ max < r.pending.length ∧
      r.pending[max]?.map Token.offset = some offset := by
  constructor
  · intro hfit
    rcases h.fit_cases hc with ⟨v, hrun, hv, hmany⟩ | ⟨-, hfew⟩ | ⟨-, -, m, hok⟩
    · rw [hmany] at hfit
      cases hfit
      exact ⟨rfl, rfl, hrun, (List.getElem?_eq_some_iff.1 hv).1, by rw [hv, Option.map_some]⟩
    · rw [hfew] at hfit
      cases hfit
    · rw [hok] at hfit
      cases hfit
  · rintro ⟨rfl, rfl, hrun, hlt, hoffset⟩
    rcases h.fit_cases hc with ⟨v, -, hv, hmany⟩ | ⟨hfew, -⟩ | ⟨-, hle, -⟩
    · rw [hv, Option.map_some, Option.some.injEq] at hoffset
      rw [hmany, hoffset]
    · rw [hrun, if_neg Bool.false_ne_true] at hfew
      omega
    · have := hle hrun
      omega

theorem fit_eq_tooFew_iff (h : usage.Resolves texts cs r) (hc : Coherent usage.arguments)
    {offset min received : Nat} {hint : Option String} :
    usage.fit texts = .error ⟨offset, .tooFewArguments min received hint⟩ ↔
      min = usage.requiredCount + (if usage.hasRepeated then 1 else 0) ∧
      r.pending.length < min ∧ received = r.pending.length ∧ offset = texts.length ∧
      hint = r.lastValued := by
  constructor
  · intro hfit
    rcases h.fit_cases hc with ⟨v, -, -, hmany⟩ | ⟨hlt, hfew⟩ | ⟨-, -, m, hok⟩
    · rw [hmany] at hfit
      cases hfit
    · rw [hfew] at hfit
      cases hfit
      exact ⟨rfl, hlt, rfl, rfl, rfl⟩
    · rw [hok] at hfit
      cases hfit
  · rintro ⟨rfl, hlt, rfl, rfl, rfl⟩
    rcases h.fit_cases hc with ⟨v, hrun, hv, -⟩ | ⟨-, hfew⟩ | ⟨hle, -⟩
    · -- A value beyond the upper bound is not one too few.
      have hup := (List.getElem?_eq_some_iff.1 hv).1
      rw [hrun, if_neg Bool.false_ne_true] at hlt
      omega
    · exact hfew
    · omega

theorem fit_complete_iff (h : usage.Resolves texts cs r) (hc : Coherent usage.arguments) :
    (∃ m, usage.fit texts = .ok (.complete m)) ↔
      usage.requiredCount + (if usage.hasRepeated then 1 else 0) ≤ r.pending.length ∧
      (usage.hasRepeated = false →
        r.pending.length ≤ usage.requiredCount + usage.optionalCount) := by
  rcases h.fit_cases hc with ⟨v, hrun, hv, hmany⟩ | ⟨hlt, hfew⟩ | ⟨hlow, hhigh, hok⟩
  · have hup := (List.getElem?_eq_some_iff.1 hv).1
    refine iff_of_false ?_ fun hin => absurd (hin.2 hrun) (by omega)
    rintro ⟨m, hm⟩
    rw [hmany] at hm
    cases hm
  · refine iff_of_false ?_ fun hin => absurd hin.1 (by omega)
    rintro ⟨m, hm⟩
    rw [hfew] at hm
    cases hm
  · exact iff_of_true hok ⟨hlow, hhigh⟩

end Resolves

/-- **The number of values decides, once the options resolve.** There are too many exactly if no
positional takes a run and there are more than the required and the optional positionals take; the
first one beyond is at fault. There are too few exactly if there are less than the required
positionals and a run take; the hint is the flag of the last occurrence, if its option takes a
value. Otherwise the argument list is complete. The bounds are the same in every order of the
positionals. -/
theorem fit_counts_values {given : Option String} {source : String}
    (h : read given source = .ok usage) (hr : usage.Resolves texts cs r) :
    (∀ offset min max, usage.fit texts = .error ⟨offset, .tooManyArguments min max⟩ ↔
      min = usage.requiredCount ∧ max = usage.requiredCount + usage.optionalCount ∧
      usage.hasRepeated = false ∧ max < r.pending.length ∧
      r.pending[max]?.map Token.offset = some offset) ∧
    (∀ offset min received hint,
      usage.fit texts = .error ⟨offset, .tooFewArguments min received hint⟩ ↔
      min = usage.requiredCount + (if usage.hasRepeated then 1 else 0) ∧
      r.pending.length < min ∧ received = r.pending.length ∧ offset = texts.length ∧
      ∀ flag, hint = some flag ↔
        ∃ c, cs.getLast? = some c ∧ c.leader.text = flag ∧ (usage.valueKind? flag).isSome) ∧
    ((∃ m, usage.fit texts = .ok (.complete m)) ↔
      usage.requiredCount + (if usage.hasRepeated then 1 else 0) ≤ r.pending.length ∧
      (usage.hasRepeated = false →
        r.pending.length ≤ usage.requiredCount + usage.optionalCount)) ∧
    ∀ order : List Argument, order.Perm usage.arguments →
      Bound.ofArguments order =
        if usage.hasRepeated then .atLeast (usage.requiredCount + 1)
        else .range usage.requiredCount (usage.requiredCount + usage.optionalCount) := by
  have hc := coherent_of_read h
  refine ⟨fun offset min max => hr.fit_eq_tooMany_iff hc, ?_, hr.fit_complete_iff hc,
    fun order hperm => (Bound.ofArguments_perm hperm).trans (bound_eq hc)⟩
  intro offset min received hint
  have hhint : (∀ flag, hint = some flag ↔ ∃ c, cs.getLast? = some c ∧ c.leader.text = flag ∧
      (usage.valueKind? flag).isSome) ↔ hint = r.lastValued := by
    simp only [← hr.lastValued_eq_some_iff]
    constructor
    · intro hsame
      exact Option.ext hsame
    · rintro rfl flag
      rfl
  rw [hhint]
  exact hr.fit_eq_tooFew_iff hc

/-- The last letter of a group takes the value that would have been the second positional. -/
theorem fit_counts_values_after_group :
    ∃ usage cs r, read none "Usage: p [-q] [-n NUM] from to" = .ok usage ∧
      usage.Resolves ["-qn", "3", "a"] cs r ∧ r.pending = [⟨2, "a"⟩] ∧
      usage.fit ["-qn", "3", "a"] = .error ⟨3, .tooFewArguments 2 1 (some "-n")⟩ := by
  let usage : Usage :=
    { program := "p"
      message := "Usage: p [-q] [-n NUM] from to"
      arguments := [⟨"from", .required⟩, ⟨"to", .required⟩]
      options := [⟨"q", .short 'q', none⟩, ⟨"n", .short 'n', some "NUM"⟩]
      flagTable := NameMap.empty.insertAll [("-q", 0), ("-n", 1)]
      defaults := .empty }
  let cs : List Chunk := [⟨⟨0, "-q"⟩, []⟩, ⟨⟨0, "-n"⟩, [⟨1, "3"⟩, ⟨2, "a"⟩]⟩]
  let r : Resolution :=
    ⟨((Matches.ofDefaults .empty).mark "q").mark "n" |>.set "n" (.integer 3), [⟨2, "a"⟩], some "-n"⟩
  have hread : read none "Usage: p [-q] [-n NUM] from to" = .ok usage := by decide +kernel
  have hresolves : usage.Resolves ["-qn", "3", "a"] cs r := ⟨by decide, rfl, rfl⟩
  obtain ⟨-, hfew, -⟩ := fit_counts_values hread hresolves
  exact ⟨usage, cs, r, hread, hresolves, rfl, (hfew 3 2 1 (some "-n")).2
    ⟨rfl, by decide, rfl, rfl, fun flag => hresolves.lastValued_eq_some_iff⟩⟩

end Usage

end Synopsis
