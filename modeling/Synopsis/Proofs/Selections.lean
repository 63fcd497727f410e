import Synopsis.Proofs.Occurrences

/-!
# What resolving options does

Resolving takes in one chunk after the other. A chunk is a use of a flag (`FlagUse`): with the
first of its values, if the option takes one, and the other values are left over. A use either
selects an option (`Usage.select?`) or is at fault, so resolving succeeds exactly if every use
selects an option and no value is left over too early, and what it finds is what the selections
record, one after the other.
-/

namespace Synopsis

/-! ## Uses of flags -/

/-- A flag as it is used, with the text that stands for its value. -/
structure FlagUse where
  flag : String
  raw : Option String
deriving DecidableEq

/-- An option that was selected, and the value that it took. -/
structure Selection where
  option : OptionSpec
  value : Option Value
deriving DecidableEq

/-- What a use of a flag selects. A switch must be used without a value, and any other option with
a value of its kind. -/
def Usage.select? (usage : Usage) (use : FlagUse) : Option Selection :=
  (usage.option? use.flag).bind fun o =>
    match o.kind?, use.raw with
    | none, none => some ⟨o, none⟩
    | some kind, some raw => (kind.coerce? raw).map fun value => ⟨o, some value⟩
    | _, _ => none

theorem Usage.select?_switch_iff {usage : Usage} {flag : String} {s : Selection} :
    usage.select? ⟨flag, none⟩ = some s ↔
      ∃ o, usage.option? flag = some o ∧ o.kind? = none ∧ s = ⟨o, none⟩ := by
  rw [select?, Option.bind_eq_some_iff]
  refine exists_congr fun o => and_congr_right fun _ => ?_
  cases o.kind? <;> simp [eq_comm]

theorem Usage.select?_valued_iff {usage : Usage} {flag raw : String} {s : Selection} :
    usage.select? ⟨flag, some raw⟩ = some s ↔
      ∃ o kind value, usage.option? flag = some o ∧ o.kind? = some kind ∧
        kind.coerce? raw = some value ∧ s = ⟨o, some value⟩ := by
  rw [select?, Option.bind_eq_some_iff]
  constructor
  · intro h
    obtain ⟨o, hopt, hs⟩ := h
    cases hkind : o.kind? with
    | none => simp [hkind] at hs
    | some kind =>
      simp only [hkind] at hs
      obtain ⟨value, hvalue, rfl⟩ := Option.map_eq_some_iff.1 hs
      exact ⟨o, kind, value, hopt, hkind, hvalue, rfl⟩
  · intro h
    obtain ⟨o, kind, value, hopt, hkind, hvalue, rfl⟩ := h
    exact ⟨o, hopt, by simp [hkind, hvalue]⟩

theorem Usage.isSome_option?_of_select {usage : Usage} {use : FlagUse}
    (h : (usage.select? use).isSome) : (usage.option? use.flag).isSome := by
  obtain ⟨s, hs⟩ := Option.isSome_iff_exists.1 h
  obtain ⟨o, hopt, -⟩ := Option.bind_eq_some_iff.1 hs
  exact Option.isSome_of_mem hopt

/-- What uses of flags select, from first to last. -/
def Usage.selections (usage : Usage) (uses : List FlagUse) : List Selection :=
  uses.filterMap usage.select?

/-! ## Recording selections -/

/-- Record a selection: its option was given, and its value is bound to the option's name. -/
def Matches.record (m : Matches) (s : Selection) : Matches :=
  match s.value with
  | none => m.mark s.option.name
  | some value => (m.mark s.option.name).set s.option.name value

/-- Record selections from first to last. -/
def Matches.recordAll (m : Matches) (ss : List Selection) : Matches := ss.foldl record m

/-- The binding that a selection makes, if its option takes a value. -/
def Selection.binding? (s : Selection) : Option (String × Value) :=
  s.value.map fun value => (s.option.name, value)

namespace Matches

theorem includes_record (m : Matches) (s : Selection) (key : String) :
    (m.record s).includes key = (decide (s.option.name = key) || m.includes key) := by
  rw [record]
  cases s.value with
  | none => exact includes_mark m s.option.name key
  | some value => exact includes_mark m s.option.name key

theorem argument?_record (m : Matches) (s : Selection) (key : String) :
    (m.record s).argument? key =
      (NameMap.last? key s.binding?.toList).or (m.argument? key) := by
  rw [record, Selection.binding?]
  cases s.value with
  | none => rfl
  | some value =>
    show (set _ _ _).argument? key = (NameMap.last? key [(s.option.name, value)]).or _
    rw [argument?_set, argument?_mark, NameMap.last?_cons]
    by_cases hk : s.option.name = key <;> simp [hk]

/-- Exactly the options that were selected are given, besides those that were given before. -/
theorem includes_recordAll {m : Matches} {ss : List Selection} {key : String} :
    (m.recordAll ss).includes key = true ↔
      (∃ s ∈ ss, s.option.name = key) ∨ m.includes key = true := by
  induction ss generalizing m with
  | nil => simp [recordAll]
  | cons s ss ih =>
    show ((m.record s).recordAll ss).includes key = true ↔ _
    rw [ih, includes_record, Bool.or_eq_true, decide_eq_true_eq, or_left_comm, ← or_assoc]
    simp only [List.mem_cons, exists_eq_or_imp]

/-- The last selection that takes a value for a name decides its value. -/
theorem argument?_recordAll (m : Matches) (ss : List Selection) (key : String) :
    (m.recordAll ss).argument? key =
      (NameMap.last? key (ss.filterMap Selection.binding?)).or (m.argument? key) := by
  induction ss generalizing m with
  | nil => rfl
  | cons s ss ih =>
    have hsplit : (s :: ss).filterMap Selection.binding? =
        s.binding?.toList ++ ss.filterMap Selection.binding? := by
      rw [List.filterMap_cons]
      cases s.binding? <;> rfl
    show ((m.record s).recordAll ss).argument? key = _
    rw [ih, argument?_record, hsplit, NameMap.last?_append, Option.or_assoc]

end Matches

/-! ## Resolving chunks -/

namespace Resolution

variable {usage : Usage} {r r' : Resolution}

/-- The flag of the last use, if it took a value; `hint` if there is no use at all. -/
def lastValuedOf (hint : Option String) (uses : List FlagUse) : Option String :=
  match uses.getLast? with
  | none => hint
  | some use => use.raw.map fun _ => use.flag

/-- The resolution once the uses have taken effect and these values are left over. -/
def advance (usage : Usage) (r : Resolution) (uses : List FlagUse) (pending : List Token) :
    Resolution :=
  ⟨r.found.recordAll (usage.selections uses), pending, lastValuedOf r.lastValued uses⟩

theorem lastValuedOf_append (hint : Option String) (uses more : List FlagUse) :
    lastValuedOf (lastValuedOf hint uses) more = lastValuedOf hint (uses ++ more) := by
  simp only [lastValuedOf, List.getLast?_append]
  cases more.getLast? <;> rfl

/-- Uses take effect one after the other. -/
@[simp] theorem advance_advance (usage : Usage) (r : Resolution) (uses more : List FlagUse)
    (vs ws : List Token) :
    (r.advance usage uses vs).advance usage more ws = r.advance usage (uses ++ more) ws := by
  simp [advance, Usage.selections, Matches.recordAll, lastValuedOf_append]

theorem advance_singleton {usage : Usage} {use : FlagUse} {s : Selection}
    (hs : usage.select? use = some s) (r : Resolution) (pending : List Token) :
    r.advance usage [use] pending =
      ⟨r.found.record s, pending, use.raw.map fun _ => use.flag⟩ := by
  have hone : usage.selections [use] = [s] := by
    rw [Usage.selections, List.filterMap_cons, hs, List.filterMap_nil]
  rw [advance, hone]
  rfl

/-- A chunk is settled exactly if its flag selects an option, with the first value of the chunk or
with none; the other values are left over. -/
theorem settle_eq_ok_iff {usage : Usage} {found : Matches} {c : Chunk} {r : Resolution} :
    settle usage found c = .ok r ↔
      ∃ (taken : Option Token) (s : Selection), c.values = taken.toList ++ r.pending ∧
        usage.select? ⟨c.leader.text, taken.map Token.text⟩ = some s ∧
        r.found = found.record s ∧ r.lastValued = taken.map fun _ => c.leader.text := by
  constructor
  · intro h
    unfold settle at h
    split at h
    · cases h
    · next o hopt =>
      dsimp only at h
      split at h
      · next hkind =>
        cases h
        exact ⟨none, ⟨o, none⟩, rfl, Usage.select?_switch_iff.2 ⟨o, hopt, hkind, rfl⟩, rfl, rfl⟩
      · next kind hkind =>
        split at h
        · cases h
        · next v rest hvalues =>
          split at h
          · cases h
          · next value hvalue =>
            cases h
            exact ⟨some v, ⟨o, some value⟩, hvalues,
              Usage.select?_valued_iff.2 ⟨o, kind, value, hopt, hkind, hvalue, rfl⟩, rfl, rfl⟩
  · obtain ⟨found', pending, lastValued⟩ := r
    intro h
    obtain ⟨taken, s, hvalues, hs, hfound, hlast⟩ := h
    dsimp only at hvalues hfound hlast
    subst hfound hlast
    cases taken with
    | none =>
      obtain ⟨o, hopt, hkind, rfl⟩ := Usage.select?_switch_iff.1 hs
      rw [Option.toList_none, List.nil_append] at hvalues
      simp [settle, hopt, hkind, hvalues, Matches.record]
    | some v =>
      obtain ⟨o, kind, value, hopt, hkind, hvalue, rfl⟩ := Usage.select?_valued_iff.1 hs
      rw [Option.toList_some, List.singleton_append] at hvalues
      simp [settle, hopt, hkind, hvalues, hvalue, Matches.record]

/-- One more chunk can be taken in exactly if no value is left over and its flag selects an option,
with the first value of the chunk or with none; the other values are left over. -/
theorem step_eq_ok_iff {usage : Usage} {r r' : Resolution} {c : Chunk} (hr : r.pending = []) :
    step usage r c = .ok r' ↔
      ∃ (taken : Option Token) (pending : List Token), c.values = taken.toList ++ pending ∧
        (usage.select? ⟨c.leader.text, taken.map Token.text⟩).isSome ∧
        r' = r.advance usage [⟨c.leader.text, taken.map Token.text⟩] pending := by
  simp only [step, hr]
  rw [settle_eq_ok_iff]
  constructor
  · intro h
    obtain ⟨taken, s, hvalues, hs, hfound, hlast⟩ := h
    refine ⟨taken, r'.pending, hvalues, Option.isSome_of_mem hs, ?_⟩
    rw [advance_singleton hs, Option.map_map, ← hfound]
    exact congrArg (Resolution.mk _ _) hlast
  · intro h
    obtain ⟨taken, pending, hvalues, hsome, rfl⟩ := h
    obtain ⟨s, hs⟩ := Option.isSome_iff_exists.1 hsome
    rw [advance_singleton hs, Option.map_map]
    exact ⟨taken, s, hvalues, hs, rfl, rfl⟩

/-- While a value is left over, no chunk can be taken in. -/
theorem pending_of_step {usage : Usage} {r r' : Resolution} {c : Chunk}
    (h : step usage r c = .ok r') : r.pending = [] := by
  unfold step at h
  split at h
  · cases h
  · next hpending => exact hpending

theorem run_cons_eq_ok_iff {usage : Usage} {r r' : Resolution} {c : Chunk} {cs : List Chunk} :
    run usage r (c :: cs) = .ok r' ↔
      ∃ r₁, step usage r c = .ok r₁ ∧ run usage r₁ cs = .ok r' := by
  rw [run]
  cases step usage r c <;> simp

theorem run_append_eq_ok_iff {usage : Usage} {r r' : Resolution} {cs ds : List Chunk} :
    run usage r (cs ++ ds) = .ok r' ↔
      ∃ r₁, run usage r cs = .ok r₁ ∧ run usage r₁ ds = .ok r' := by
  induction cs generalizing r with
  | nil => simp [run]
  | cons c cs ih =>
    simp only [List.cons_append, run_cons_eq_ok_iff, ih]
    constructor
    · intro h
      obtain ⟨r₁, hstep, r₂, hcs, hds⟩ := h
      exact ⟨r₂, ⟨r₁, hstep, hcs⟩, hds⟩
    · intro h
      obtain ⟨r₂, ⟨r₁, hstep, hcs⟩, hds⟩ := h
      exact ⟨r₁, hstep, r₂, hcs, hds⟩

theorem run_singleton (usage : Usage) (r : Resolution) (c : Chunk) :
    run usage r [c] = step usage r c := by
  rw [run]
  cases step usage r c <;> rfl

/-- Only declared options are resolved. -/
theorem known_of_run {cs : List Chunk} (h : run usage r cs = .ok r') :
    ∀ c ∈ cs, c.Known usage := by
  induction cs generalizing r with
  | nil => simp
  | cons c cs ih =>
    obtain ⟨r₁, hstep, hrun⟩ := run_cons_eq_ok_iff.1 h
    refine List.forall_mem_cons.2 ⟨?_, ih hrun⟩
    obtain ⟨taken, pending, -, hselects, -⟩ := (step_eq_ok_iff (pending_of_step hstep)).1 hstep
    exact Usage.isSome_option?_of_select hselects

end Resolution

end Synopsis
