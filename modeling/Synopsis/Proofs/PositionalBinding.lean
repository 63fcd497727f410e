import Synopsis.Match.Positional
import Synopsis.Proofs.UsageText

/-!
# How many values a usage line takes, and who receives them

The bound of a usage line is put together from its positionals one by one; it depends only on how
many positionals have which arity (`Bound.ofArguments_eq`). A number of values within the bound is
bound without a failure (`Positional.bind_eq_ok`), and `Positional.share` says in closed form what
each positional receives: a required positional before the run is counted from the front and every
other one from the back; the run has what lies between; optional positionals have the values that
the required ones leave over, as far as they go.
-/

namespace Synopsis

/-! ## The bound of a usage line -/

namespace Bound

/-- The number of values is within the bound. -/
def Accepts : Bound → Nat → Prop
  | .range lower upper, n => lower ≤ n ∧ n ≤ upper
  | .atLeast lower, n => lower ≤ n

instance : (bound : Bound) → (n : Nat) → Decidable (bound.Accepts n)
  | .range lower upper, n => inferInstanceAs (Decidable (lower ≤ n ∧ n ≤ upper))
  | .atLeast lower, n => inferInstanceAs (Decidable (lower ≤ n))

theorem foldl_add_atLeast (arguments : List Argument) (i : Nat) :
    arguments.foldl (fun bound a => bound.add (ofArity a.arity)) (atLeast i) =
      atLeast (i + Arity.required.tally arguments + Arity.repeated.tally arguments) := by
  induction arguments generalizing i with
  | nil => rfl
  | cons a arguments ih =>
    obtain ⟨name, arity⟩ := a
    rw [List.foldl_cons]
    cases arity with
    | required => exact (ih (i + 1)).trans (by simp; omega)
    | optional => exact (ih (i + 0)).trans (by simp)
    | repeated => exact (ih (i + 1)).trans (by simp; omega)

theorem foldl_add_range (arguments : List Argument) (i j : Nat) :
    arguments.foldl (fun bound a => bound.add (ofArity a.arity)) (range i j) =
      if anyRepeated arguments then
        atLeast (i + Arity.required.tally arguments + Arity.repeated.tally arguments)
      else
        range (i + Arity.required.tally arguments)
          (j + Arity.required.tally arguments + Arity.optional.tally arguments) := by
  induction arguments generalizing i j with
  | nil => rfl
  | cons a arguments ih =>
    obtain ⟨name, arity⟩ := a
    rw [List.foldl_cons]
    cases arity with
    | required =>
      refine (ih (i + 1) (j + 1)).trans ?_
      simp [Nat.add_assoc, Nat.add_comm, Nat.add_left_comm]
    | optional =>
      refine (ih (i + 0) (j + 1)).trans ?_
      simp [Nat.add_assoc, Nat.add_comm, Nat.add_left_comm]
    | repeated =>
      refine (foldl_add_atLeast arguments (i + 1)).trans ?_
      simp [Nat.add_assoc, Nat.add_comm, Nat.add_left_comm]

/-- The bound of a list of positionals depends on their number by arity only. -/
theorem ofArguments_eq (arguments : List Argument) :
    ofArguments arguments =
      if anyRepeated arguments then
        .atLeast (Arity.required.tally arguments + Arity.repeated.tally arguments)
      else
        .range (Arity.required.tally arguments)
          (Arity.required.tally arguments + Arity.optional.tally arguments) := by
  rw [ofArguments, foldl_add_range]
  simp

end Bound

/-- The usage line takes this number of values. -/
def Usage.Takes (usage : Usage) (n : Nat) : Prop :=
  if usage.hasRepeated then usage.requiredCount + 1 ≤ n
  else usage.requiredCount ≤ n ∧ n ≤ usage.requiredCount + usage.optionalCount

instance (usage : Usage) (n : Nat) : Decidable (usage.Takes n) :=
  inferInstanceAs (Decidable (if usage.hasRepeated then usage.requiredCount + 1 ≤ n
    else usage.requiredCount ≤ n ∧ n ≤ usage.requiredCount + usage.optionalCount))

section

variable {usage : Usage} (h : Coherent usage.arguments)
include h

/-- The bound of a usage line, by how many positionals it has. -/
theorem Usage.bound_eq :
    usage.bound =
      if usage.hasRepeated then .atLeast (usage.requiredCount + 1)
      else .range usage.requiredCount (usage.requiredCount + usage.optionalCount) := by
  have hrep : usage.hasRepeated = anyRepeated usage.arguments := rfl
  have hreq : usage.requiredCount = Arity.required.tally usage.arguments := rfl
  have hopt : usage.optionalCount = Arity.optional.tally usage.arguments := rfl
  rw [bound, Bound.ofArguments_eq, hrep, hreq, hopt]
  split
  · next hr => rw [h.tally_repeated hr]
  · rfl

theorem Usage.bound_accepts_iff (n : Nat) : usage.bound.Accepts n ↔ usage.Takes n := by
  rw [bound_eq h, Takes]
  cases usage.hasRepeated <;> rfl

theorem Usage.bound_lower :
    usage.bound.lower = usage.requiredCount + if usage.hasRepeated then 1 else 0 := by
  rw [bound_eq h]
  cases usage.hasRepeated <;> rfl

theorem Usage.of_bound_eq_range {lower upper : Nat} (hb : usage.bound = .range lower upper) :
    usage.hasRepeated = false ∧ lower = usage.requiredCount ∧
      upper = usage.requiredCount + usage.optionalCount := by
  rw [bound_eq h] at hb
  cases hr : usage.hasRepeated with
  | true =>
    rw [hr] at hb
    cases hb
  | false =>
    rw [hr] at hb
    cases hb
    exact ⟨rfl, rfl, rfl⟩

end

namespace Positional

/-! ## Counting the values -/

theorem checkLower_eq_ok_iff {lower stop : Nat} {values : List Token} {hint : Option String} :
    checkLower lower values hint stop = .ok () ↔ lower ≤ values.length := by
  rw [checkLower]
  split
  · next hlt => simp only [reduceCtorEq, false_iff]; omega
  · next hge => simp only [true_iff]; omega

/-- Counting succeeds exactly within the bound. -/
theorem checkCount_eq_ok_iff {bound : Bound} {stop : Nat} {values : List Token}
    {hint : Option String} :
    checkCount bound values hint stop = .ok () ↔ bound.Accepts values.length := by
  cases bound with
  | atLeast lower => exact checkLower_eq_ok_iff
  | range lower upper =>
    rw [checkCount, Bound.Accepts]
    split
    · next hlt =>
      rw [List.getElem?_eq_getElem hlt]
      simp only [reduceCtorEq, false_iff]
      omega
    · next hge =>
      rw [checkLower_eq_ok_iff]
      omega

/-! ## What each positional receives -/

/-- What a positional of the given arity receives of the values, if `before` and `after` are the
positionals around it. -/
def share (values : List String) (before : List Argument) (arity : Arity)
    (after : List Argument) : Option Value :=
  match arity with
  | .required =>
    if anyRepeated after then values[before.length]?.map .text
    else values[values.length - (Arity.required.tally after + 1)]?.map .text
  | .optional =>
    let spare := values.length - (Arity.required.tally before + Arity.required.tally after)
    if Arity.optional.tally before < spare then
      values[Arity.optional.tally before]?.map .text
    else none
  | .repeated =>
    some (.list ((values.drop before.length).take
      (values.length - (before.length + after.length))))

/-- The names of those positionals that receive something, with what they receive, in declared
order. `before` are the positionals that precede the list. -/
def bindingsAfter (values : List String) (before : List Argument) :
    List Argument → List (String × Value)
  | [] => []
  | a :: after =>
    ((share values before a.arity after).map (a.name, ·)).toList ++
      bindingsAfter values (before ++ [a]) after

/-- What the positionals of a usage line receive. -/
def bindings (values : List String) (arguments : List Argument) : List (String × Value) :=
  bindingsAfter values [] arguments

end Positional

/-- The matches with every binding of the list made, from first to last. -/
def Matches.setAll (m : Matches) (bindings : List (String × Value)) : Matches :=
  { m with arguments := m.arguments.insertAll bindings }

@[simp] theorem Matches.setAll_nil (m : Matches) : m.setAll [] = m := rfl

@[simp] theorem Matches.includes_setAll (m : Matches) (bindings : List (String × Value))
    (key : String) : (m.setAll bindings).includes key = m.includes key := rfl

@[simp] theorem Matches.argument?_setAll (m : Matches) (bindings : List (String × Value))
    (key : String) :
    (m.setAll bindings).argument? key = (NameMap.last? key bindings).or (m.argument? key) := by
  simp [setAll, argument?]

namespace Positional

/-- After the run, or without one, a required positional is counted from the back. -/
theorem share_required_back {values : List Token} {before after : List Argument} {i : Nat}
    (hafter : anyRepeated after = false) (hlt : i < values.length)
    (hi : i + (Arity.required.tally after + 1) = values.length) :
    share (values.map Token.text) before .required after = some (.text values[i].text) := by
  have hplace : values.length - (Arity.required.tally after + 1) = i := by omega
  simp [share, hafter, hplace, hlt]

/-- Before the run a required positional is counted from the front. -/
theorem share_required_front {values : List Token} {before after : List Argument}
    (hafter : anyRepeated after = true) (hlt : before.length < values.length) :
    share (values.map Token.text) before .required after =
      some (.text values[before.length].text) := by
  simp [share, hafter, hlt]

/-- An optional positional receives a value as long as there are spare ones. -/
theorem share_optional {values : List Token} {before after : List Argument} {spare : Nat}
    (hlen : values.length =
      spare + (Arity.required.tally before + Arity.required.tally after)) :
    share (values.map Token.text) before .optional after =
      if Arity.optional.tally before < spare then
        values[Arity.optional.tally before]?.map (.text ·.text)
      else none := by
  have hspare : values.length - (Arity.required.tally before + Arity.required.tally after) =
      spare := by omega
  simp only [share, List.length_map, hspare, List.getElem?_map, Option.map_map]
  rfl

/-- Without a run, the values that are still to be bound are those that the positionals before
have left: of the spare ones for the optional positionals, and of the others for the required. -/
theorem bindSplit_eq_ok {stop : Nat} {values : List Token} {before after : List Argument}
    {found : Matches} (hrun : anyRepeated (before ++ after) = false) {spare : Nat}
    (hlen : values.length = spare + Arity.required.tally (before ++ after))
    (hopt : spare ≤ Arity.optional.tally (before ++ after)) :
    bindSplit stop found ((values.take spare).drop (Arity.optional.tally before))
        (values.drop (spare + Arity.required.tally before)) after =
      .ok (found.setAll (bindingsAfter (values.map Token.text) before after)) := by
  -- The induction moves one positional at a time from `after` to `before`. The values themselves
  -- stay whole, so that `share` speaks of the same list throughout.
  have hnil : ∀ i, spare ≤ i → (values.take spare).drop i = [] := by
    intro i hi
    rw [List.drop_eq_nil_iff, List.length_take]
    omega
  induction after generalizing before found with
  | nil =>
    rw [List.append_nil] at hopt
    rw [hnil _ hopt]
    rfl
  | cons a after ih =>
    obtain ⟨name, arity⟩ := a
    rw [List.append_cons] at hrun hlen hopt
    have ih := fun m => @ih (before ++ [⟨name, arity⟩]) m hrun hlen hopt
    simp only [anyRepeated_append, anyRepeated_cons, Bool.or_eq_false_iff] at hrun
    simp only [Arity.tally_append, Arity.tally_cons, Arity.tally_nil] at hlen ih
    cases arity with
    | required =>
      simp only [reduceCtorEq, if_true, if_false, Nat.zero_add, Nat.add_zero] at hlen ih
      have hk : spare + Arity.required.tally before < values.length := by omega
      rw [List.drop_eq_getElem_cons hk, bindSplit, Nat.add_assoc, ih, bindingsAfter,
        share_required_back hrun.2 hk (by omega)]
      rfl
    | optional =>
      simp only [reduceCtorEq, if_true, if_false, Nat.zero_add, Nat.add_zero] at hlen ih
      rw [bindingsAfter, share_optional hlen]
      by_cases hk : Arity.optional.tally before < spare
      · have hk' : Arity.optional.tally before < values.length := by omega
        have hfirst : (values.take spare).drop (Arity.optional.tally before) =
            values[Arity.optional.tally before] ::
              (values.take spare).drop (Arity.optional.tally before + 1) := by
          rw [List.drop_eq_getElem_cons (by rw [List.length_take]; omega), List.getElem_take]
        rw [hfirst, bindSplit, ih, if_pos hk, List.getElem?_eq_getElem hk']
        rfl
      · rw [hnil (_ + 1) (by omega)] at ih
        rw [hnil _ (by omega), bindSplit, ih, if_neg hk]
        rfl
    | repeated => simp at hrun

/-- After the run, the required positionals that are left take the last values. -/
theorem bindRun_tail_eq_ok {stop : Nat} {values : List Token} {before after : List Argument}
    {found : Matches} (hrun : anyRepeated after = false)
    (hreq : Arity.required.tally after = after.length) (hlen : after.length ≤ values.length) :
    bindRun stop found (values.drop (values.length - after.length)) after.length after =
      .ok (found.setAll (bindingsAfter (values.map Token.text) before after)) := by
  induction after generalizing before found with
  | nil => simp [bindRun, finish, bindingsAfter]
  | cons a after ih =>
    obtain ⟨name, arity⟩ := a
    have hle : Arity.required.tally after ≤ after.length := List.countP_le_length
    rw [Arity.tally_cons, List.length_cons] at hreq
    rw [List.length_cons] at hlen
    cases arity with
    | required =>
      simp only [if_true, Nat.add_right_cancel_iff] at hreq
      have hafter : anyRepeated after = false := by simpa using hrun
      have hk : values.length - (after.length + 1) < values.length := by omega
      have hnext : values.length - (after.length + 1) + 1 = values.length - after.length := by omega
      rw [List.length_cons, List.drop_eq_getElem_cons hk, hnext, bindRun,
        ih hafter hreq (by omega), bindingsAfter, share_required_back hafter hk (by omega)]
      rfl
    | optional => simp only [reduceCtorEq, if_false] at hreq; omega
    | repeated => simp at hrun

/-- Up to the run, each required positional takes the next value; the run takes all but as many
values as there are positionals left. -/
theorem bindRun_eq_ok {stop : Nat} {values : List Token} {before after : List Argument}
    {found : Matches} (hrun : Arity.repeated.tally after = 1)
    (hopt : Arity.optional.tally after = 0)
    (hlen : before.length + after.length ≤ values.length) :
    bindRun stop found (values.drop before.length) after.length after =
      .ok (found.setAll (bindingsAfter (values.map Token.text) before after)) := by
  induction after generalizing before found with
  | nil => simp at hrun
  | cons a after ih =>
    obtain ⟨name, arity⟩ := a
    rw [Arity.tally_cons] at hrun hopt
    rw [List.length_cons] at hlen
    have ih := fun m h => @ih (before ++ [⟨name, arity⟩]) m h (by omega)
      (by rw [List.length_append, List.length_singleton]; omega)
    rw [List.length_append, List.length_singleton] at ih
    cases arity with
    | required =>
      simp only [reduceCtorEq, if_false, Nat.add_zero] at hrun
      have hafter : anyRepeated after = true := by
        rw [← Bool.not_eq_false, anyRepeated_eq_false]
        omega
      have hk : before.length < values.length := by omega
      rw [List.length_cons, List.drop_eq_getElem_cons hk, bindRun, ih _ hrun, bindingsAfter,
        share_required_front hafter hk]
      rfl
    | optional => simp at hopt
    | repeated =>
      -- From here on there are required positionals only, and they take the last values.
      simp only [if_true, Nat.add_eq_right] at hrun
      simp only [reduceCtorEq, if_false, Nat.add_zero] at hopt
      have hsum := Arity.tally_sum after
      have hleft : (values.drop before.length).length = values.length - before.length :=
        List.length_drop
      have hrest : (values.drop before.length).drop
          (values.length - before.length - after.length) =
            values.drop (values.length - after.length) := by
        rw [List.drop_drop]
        congr 1
        omega
      rw [List.length_cons, bindRun, if_pos (by omega), drain?, if_pos (by omega)]
      simp only [hleft, hrest]
      rw [bindRun_tail_eq_ok (anyRepeated_eq_false.2 hrun) (by omega) (by omega), bindingsAfter,
        share, List.length_map, ← List.map_drop, ← List.map_take, Nat.sub_sub]
      rfl

/-- **A number of values that the usage line takes is bound without a failure**, and every
positional receives its share. -/
theorem bind_eq_ok {usage : Usage} (hc : Coherent usage.arguments) {values : List Token}
    (hn : usage.Takes values.length) (found : Matches) :
    bind usage found values =
      .ok (found.setAll (bindings (values.map Token.text) usage.arguments)) := by
  have hreq : usage.requiredCount = Arity.required.tally usage.arguments := rfl
  have hopt : usage.optionalCount = Arity.optional.tally usage.arguments := rfl
  have hsum := Arity.tally_sum usage.arguments
  rw [Usage.Takes, hreq, hopt] at hn
  rw [bind, hreq]
  cases hrun : usage.hasRepeated with
  | true =>
    have hone := hc.tally_repeated hrun
    have hnone := hc.unambiguous hrun
    rw [hrun, if_pos rfl] at hn
    have hlen : ([] : List Argument).length + usage.arguments.length ≤ values.length := by
      rw [List.length_nil]
      omega
    exact bindRun_eq_ok hone hnone hlen
  | false =>
    rw [hrun, if_neg Bool.false_ne_true] at hn
    have hlen : values.length = values.length - Arity.required.tally usage.arguments +
        Arity.required.tally ([] ++ usage.arguments) := by
      rw [List.nil_append]
      omega
    have hspare : values.length - Arity.required.tally usage.arguments ≤
        Arity.optional.tally ([] ++ usage.arguments) := by
      rw [List.nil_append]
      omega
    simp only [if_pos hn.1, if_neg Bool.false_ne_true]
    have hnorun : anyRepeated ([] ++ usage.arguments) = false := hrun
    exact bindSplit_eq_ok hnorun hlen hspare

end Positional

end Synopsis
