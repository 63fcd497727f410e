import Synopsis.Proofs.SharedNames

/-!
# No positional value is lost

Each positional is a *slot*, which receives one value, a run of values, or nothing. The values are
dealt to the slots in closed form. With a run, the slots before it receive the first values, those
after it the last ones, and the run what lies between (`Positional.slotsAfter_run`). Without one,
the required slots receive the last values and the optional slots those before, both in declared
order (`Positional.slotsOf_required`, `Positional.slotsOf_optional`). So the values can be read off
the slots again, and none is lost, doubled or moved (`Usage.bind_keeps_every_value`).

Slots are not names: positionals of one name have a slot each, and only in the matches does the
last of them win.
-/

namespace Synopsis

namespace Positional

/-! ## Slots -/

/-- What each positional receives, in declared order. `before` are the positionals that precede
the list. -/
def slotsAfter (values : List String) (before : List Argument) :
    List Argument → List (Option Value)
  | [] => []
  | a :: after => share values before a.arity after :: slotsAfter values (before ++ [a]) after

/-- Slots that receive one value each. -/
def oneEach (values : List String) : List (Option Value) := values.map fun v => some (.text v)

/-- The values in a slot. -/
def contents : Option Value → List String
  | some (.text v) => [v]
  | some (.list vs) => vs
  | _ => []

/-- The slots of the positionals that have the arity, in declared order. -/
def slotsOf (arity : Arity) (arguments : List Argument) (slots : List (Option Value)) :
    List (Option Value) :=
  (arguments.zip slots).filterMap fun (a, slot) => if a.arity = arity then some slot else none

/-- The bindings that the slots make, in declared order. -/
def filled (arguments : List Argument) (slots : List (Option Value)) : List (String × Value) :=
  (arguments.zip slots).filterMap fun (a, slot) => slot.map (a.name, ·)

@[simp] theorem slotsOf_cons (arity : Arity) (a : Argument) (arguments : List Argument)
    (slot : Option Value) (slots : List (Option Value)) :
    slotsOf arity (a :: arguments) (slot :: slots) =
      if a.arity = arity then slot :: slotsOf arity arguments slots
      else slotsOf arity arguments slots := by
  by_cases h : a.arity = arity <;> simp [slotsOf, h]

@[simp] theorem flatMap_contents_oneEach (values : List String) :
    (oneEach values).flatMap contents = values := by
  induction values with
  | nil => rfl
  | cons v values ih => simpa [oneEach, contents] using ih

theorem flatMap_contents_none (count : Nat) :
    (List.replicate count none).flatMap contents = [] := by
  simp [List.flatMap_replicate, contents]

@[simp] theorem length_slotsAfter (values : List String) (before after : List Argument) :
    (slotsAfter values before after).length = after.length := by
  induction after generalizing before with
  | nil => rfl
  | cons a after ih => simp [slotsAfter, ih]

theorem getElem?_slotsAfter (values : List String) (first before : List Argument) (a : Argument)
    (after : List Argument) :
    (slotsAfter values first (before ++ a :: after))[before.length]? =
      some (share values (first ++ before) a.arity after) := by
  induction before generalizing first with
  | nil =>
    rw [List.append_nil]
    rfl
  | cons b before ih =>
    rw [List.cons_append, slotsAfter, List.length_cons, List.getElem?_cons_succ, ih,
      List.append_assoc]
    rfl

/-- The bindings of the positionals are those that their slots make. -/
theorem filled_slotsAfter (values : List String) (before after : List Argument) :
    filled after (slotsAfter values before after) = bindingsAfter values before after := by
  induction after generalizing before with
  | nil => rfl
  | cons a after ih =>
    have ih := ih (before ++ [a])
    rw [filled] at ih
    rw [filled, slotsAfter, List.zip_cons_cons, List.filterMap_cons, bindingsAfter, ih]
    cases share values before a.arity after <;> rfl

/-- If all positionals have the arity, these are all slots. -/
theorem slotsOf_eq_self {arity : Arity} {arguments : List Argument} {slots : List (Option Value)}
    (h : ∀ a ∈ arguments, a.arity = arity) (hlen : slots.length = arguments.length) :
    slotsOf arity arguments slots = slots := by
  induction arguments generalizing slots with
  | nil => rw [List.length_eq_zero_iff.1 hlen]; rfl
  | cons a arguments ih =>
    obtain ⟨ha, h⟩ := List.forall_mem_cons.1 h
    cases slots with
    | nil => cases hlen
    | cons slot slots => rw [slotsOf_cons, if_pos ha, ih h (Nat.succ.inj hlen)]

/-! ## Dealing the values -/

/-- Where no run is to come, the required slots receive the last values. -/
theorem slotsOf_required {values : List String} (before : List Argument) {after : List Argument}
    (hrun : anyRepeated after = false) (hlen : Arity.required.tally after ≤ values.length) :
    slotsOf .required after (slotsAfter values before after) =
      oneEach (values.drop (values.length - Arity.required.tally after)) := by
  induction after generalizing before with
  | nil => simp [slotsAfter, slotsOf, oneEach]
  | cons a after ih =>
    obtain ⟨name, arity⟩ := a
    rw [anyRepeated_cons, Bool.or_eq_false_iff] at hrun
    obtain ⟨hhead, hafter⟩ := hrun
    rw [slotsAfter, slotsOf_cons]
    cases arity with
    | required =>
      rw [Arity.tally_cons, if_pos rfl] at hlen ⊢
      have hk : values.length - (Arity.required.tally after + 1) < values.length := by omega
      have hnext : values.length - (Arity.required.tally after + 1) + 1 =
          values.length - Arity.required.tally after := by omega
      rw [if_pos rfl, ih _ hafter (by omega), List.drop_eq_getElem_cons hk, hnext]
      simp [share, hafter, oneEach, hk]
    | optional =>
      have hother : Arity.optional ≠ .required := by decide
      rw [Arity.tally_cons, if_neg hother] at hlen ⊢
      rw [if_neg hother, ih _ hafter hlen]
      rfl
    | repeated => cases hhead

/-- The optional slots receive the values that the required ones leave over, and those beyond
them receive nothing. -/
theorem slotsOf_optional {values : List String} {before after : List Argument} {spare : Nat}
    (hspare : values.length =
      spare + (Arity.required.tally before + Arity.required.tally after))
    (hopt : spare ≤ Arity.optional.tally before + Arity.optional.tally after) :
    slotsOf .optional after (slotsAfter values before after) =
      oneEach ((values.take spare).drop (Arity.optional.tally before)) ++
        List.replicate (Arity.optional.tally after - (spare - Arity.optional.tally before))
          none := by
  -- The induction moves one positional at a time from `after` to `before`; how many values are
  -- spare stays the same.
  have hnil : ∀ i, spare ≤ i → (values.take spare).drop i = [] := by
    intro i hi
    rw [List.drop_eq_nil_iff, List.length_take]
    omega
  induction after generalizing before with
  | nil =>
    rw [Arity.tally_nil, Nat.add_zero] at hopt
    rw [hnil _ hopt, Arity.tally_nil, Nat.zero_sub]
    rfl
  | cons a after ih =>
    obtain ⟨name, arity⟩ := a
    have ih := @ih (before ++ [⟨name, arity⟩])
    rw [slotsAfter, slotsOf_cons]
    simp only [Arity.tally_append, Arity.tally_cons, Arity.tally_nil] at hspare hopt ih ⊢
    cases arity with
    | required =>
      simp only [reduceCtorEq, if_true, if_false, Nat.zero_add, Nat.add_zero] at hspare hopt ih ⊢
      exact ih (by omega) hopt
    | repeated =>
      simp only [reduceCtorEq, if_false, Nat.add_zero] at hspare hopt ih ⊢
      exact ih hspare hopt
    | optional =>
      simp only [reduceCtorEq, if_true, if_false, Nat.zero_add, Nat.add_zero] at hspare hopt ih ⊢
      rw [ih hspare (by omega)]
      have hfree : values.length -
          (Arity.required.tally before + Arity.required.tally after) = spare := by omega
      by_cases hk : Arity.optional.tally before < spare
      · have hk' : Arity.optional.tally before < values.length := by omega
        have hleft : Arity.optional.tally after + 1 - (spare - Arity.optional.tally before) =
            Arity.optional.tally after - (spare - (Arity.optional.tally before + 1)) := by omega
        have hfirst : (values.take spare).drop (Arity.optional.tally before) =
            values[Arity.optional.tally before] ::
              (values.take spare).drop (Arity.optional.tally before + 1) := by
          rw [List.drop_eq_getElem_cons (by rw [List.length_take]; omega), List.getElem_take]
        rw [hfirst, hleft]
        simp [share, hfree, hk, hk', oneEach]
      · have hleft : Arity.optional.tally after + 1 - (spare - Arity.optional.tally before) =
            Arity.optional.tally after - (spare - (Arity.optional.tally before + 1)) + 1 := by omega
        rw [hnil _ (by omega), hnil _ (by omega), hleft]
        simp [share, hfree, hk, oneEach, List.replicate_succ]

/-- Required positionals alone receive the last values. -/
theorem slotsAfter_required {values : List String} (before : List Argument) {after : List Argument}
    (h : ∀ a ∈ after, a.arity = .required) (hlen : after.length ≤ values.length) :
    slotsAfter values before after = oneEach (values.drop (values.length - after.length)) := by
  have htally : Arity.required.tally after = after.length := by
    rw [Arity.tally, List.countP_eq_length]
    simpa using h
  have hrun : anyRepeated after = false := by
    rw [anyRepeated_eq_false]
    have hsum := Arity.tally_sum after
    omega
  rw [← slotsOf_eq_self h (length_slotsAfter values before after),
    slotsOf_required before hrun (by omega), htally]

/-- Up to the run the slots receive the first values, and after it the last ones; the run receives
what lies between. -/
theorem slotsAfter_run {values : List String} {name : String} {before firsts lasts : List Argument}
    (hfirsts : ∀ a ∈ firsts, a.arity = .required) (hlasts : ∀ a ∈ lasts, a.arity = .required)
    (hlen : before.length + firsts.length + lasts.length ≤ values.length) :
    slotsAfter values before (firsts ++ ⟨name, .repeated⟩ :: lasts) =
      oneEach ((values.drop before.length).take firsts.length) ++
        some (.list ((values.drop (before.length + firsts.length)).take
          (values.length - (before.length + firsts.length + lasts.length)))) ::
        oneEach (values.drop (values.length - lasts.length)) := by
  induction firsts generalizing before with
  | nil =>
    rw [List.nil_append, slotsAfter, slotsAfter_required _ hlasts (by omega)]
    rfl
  | cons a firsts ih =>
    obtain ⟨ha, hfirsts⟩ := List.forall_mem_cons.1 hfirsts
    rw [List.length_cons] at hlen ⊢
    have ih := @ih (before ++ [a]) hfirsts
      (by rw [List.length_append, List.length_singleton]; omega)
    have hplace : before.length + 1 + firsts.length = before.length + (firsts.length + 1) := by
      omega
    rw [List.length_append, List.length_singleton, hplace] at ih
    have hk : before.length < values.length := by omega
    have hshare : share values before .required (firsts ++ ⟨name, .repeated⟩ :: lasts) =
        some (.text values[before.length]) := by
      simp [share, hk]
    rw [List.cons_append, slotsAfter, ha, hshare, ih, List.drop_eq_getElem_cons hk,
      List.take_succ_cons]
    rfl

/-- The first values, the last ones and those between are all of them. -/
theorem take_append_run_append_drop {values : List String} {first last : Nat}
    (h : first + last ≤ values.length) :
    values.take first ++ ((values.drop first).take (values.length - (first + last)) ++
      values.drop (values.length - last)) = values := by
  have hdrop : values.drop (values.length - last) =
      (values.drop first).drop (values.length - (first + last)) := by
    rw [List.drop_drop]
    congr 1
    omega
  rw [hdrop, List.take_append_drop, List.take_append_drop]

end Positional

namespace Usage

open Positional

variable {usage : Usage}

section

variable {before after : List Argument} {name : String}

/-- Beside a run there are required positionals only. -/
theorem required_of_run (hc : Coherent usage.arguments)
    (h : usage.arguments = before ++ ⟨name, .repeated⟩ :: after) :
    ∀ a ∈ before ++ after, a.arity = .required := by
  have hrun : anyRepeated usage.arguments = true := by simp [h]
  have hone := hc.tally_repeated hrun
  have hnone := hc.unambiguous hrun
  have hall : Arity.required.tally (before ++ after) = (before ++ after).length := by
    have hsum := Arity.tally_sum (before ++ after)
    simp only [h, Arity.tally_append, Arity.tally_cons, reduceCtorEq, if_true, if_false]
      at hone hnone hsum ⊢
    omega
  rw [Arity.tally, List.countP_eq_length] at hall
  simpa using hall

/-- A usage line with a run takes more values than there are other positionals. -/
theorem length_lt_of_run (hc : Coherent usage.arguments)
    (h : usage.arguments = before ++ ⟨name, .repeated⟩ :: after) {n : Nat} (hn : usage.Takes n) :
    before.length + after.length < n := by
  have hrun : usage.hasRepeated = true := by
    show anyRepeated usage.arguments = true
    simp [h]
  have hcount : usage.requiredCount = before.length + after.length := by
    have hall : Arity.required.tally (before ++ after) = (before ++ after).length := by
      rw [Arity.tally, List.countP_eq_length]
      simpa using required_of_run hc h
    show Arity.required.tally usage.arguments = _
    simpa [h] using hall
  rw [Takes, hrun, if_pos rfl, hcount] at hn
  omega

end

/-- **No positional value is lost, doubled or moved.** A number of values within the bound of the
usage is bound without a failure, and a positional whose name no other one has is bound to what its
slot receives. With a run, each positional before it receives one of the first values, each one
after it one of the last, and the run the values between, of which there is at least one. Without a
run, the required positionals receive the last values, and the optional ones those before, as far
as they go. Read off the slots again, with a run in declared order and otherwise the optional ones
first, the values are what they were. -/
theorem bind_keeps_every_value {given : Option String} {text : String}
    (h : read given text = .ok usage) {values : List Token}
    (hn : usage.bound.Accepts values.length) (found : Matches) :
    let texts := values.map Token.text
    ∃ (slots : List (Option Value)) (m : Matches),
      slots.length = usage.arguments.length ∧ Positional.bind usage found values = .ok m ∧
      m = found.setAll (filled usage.arguments slots) ∧
      (∀ before a after, usage.arguments = before ++ a :: after →
        (∀ b ∈ before ++ after, b.name ≠ a.name) →
        m.argument? a.name = slots[before.length]?.join.or (found.argument? a.name)) ∧
      (∀ before name after, usage.arguments = before ++ ⟨name, .repeated⟩ :: after →
        let run := (texts.drop before.length).take (texts.length - (before.length + after.length))
        (∀ a ∈ before ++ after, a.arity = .required) ∧
        slots = oneEach (texts.take before.length) ++
          some (.list run) :: oneEach (texts.drop (texts.length - after.length)) ∧
        run ≠ [] ∧ slots.flatMap contents = texts) ∧
      (usage.hasRepeated = false →
        let spare := texts.length - usage.requiredCount
        slotsOf .required usage.arguments slots = oneEach (texts.drop spare) ∧
        slotsOf .optional usage.arguments slots = oneEach (texts.take spare) ++
          List.replicate (usage.optionalCount - spare) none ∧
        (slotsOf .optional usage.arguments slots ++
          slotsOf .required usage.arguments slots).flatMap contents = texts) := by
  intro texts
  have hc := coherent_of_read h
  have htakes := (bound_accepts_iff hc _).1 hn
  have hlength : values.length = texts.length := (List.length_map ..).symm
  refine ⟨slotsAfter texts [] usage.arguments, _, length_slotsAfter .., bind_eq_ok hc htakes found,
    ?_, ?_, ?_, ?_⟩
  · rw [filled_slotsAfter]
    rfl
  · intro before a after ha hothers
    rw [List.forall_mem_append] at hothers
    rw [Matches.argument?_setAll, bindings, ha,
      last?_bindingsAfter texts [] before hothers.1 hothers.2, getElem?_slotsAfter]
    rfl
  · intro before name after ha run
    have hrequired := required_of_run hc ha
    have hroom := length_lt_of_run hc ha (hlength ▸ htakes)
    obtain ⟨hbefore, hafter⟩ := List.forall_mem_append.1 hrequired
    have hslots := @slotsAfter_run texts name [] before after hbefore hafter
      (by rw [List.length_nil]; omega)
    rw [List.length_nil, Nat.zero_add, List.drop_zero] at hslots
    refine ⟨hrequired, ha ▸ hslots, ?_, ?_⟩
    · refine List.ne_nil_of_length_pos ?_
      rw [List.length_take, List.length_drop]
      omega
    · rw [ha, hslots, List.flatMap_append, List.flatMap_cons, flatMap_contents_oneEach,
        flatMap_contents_oneEach]
      exact take_append_run_append_drop (Nat.le_of_lt hroom)
  · intro hrun spare
    rw [Takes, hrun, if_neg Bool.false_ne_true, hlength] at htakes
    have hspare : texts.length = spare + (0 + usage.requiredCount) := by omega
    have hopt : spare ≤ 0 + usage.optionalCount := by omega
    have hrequired := slotsOf_required [] hrun htakes.1
    have hoptional := @slotsOf_optional texts [] usage.arguments spare hspare hopt
    rw [Arity.tally_nil, List.drop_zero, Nat.sub_zero] at hoptional
    refine ⟨hrequired, hoptional, ?_⟩
    rw [hoptional, hrequired, List.flatMap_append, List.flatMap_append, flatMap_contents_oneEach,
      flatMap_contents_oneEach, flatMap_contents_none, List.append_nil]
    exact List.take_append_drop spare texts

/-- Three values for two required positionals with an optional one before each, and four values for
a run between two required positionals. -/
theorem bind_keeps_every_value_between :
    (∃ usage slots m, read none "Usage: p [mode] host [path] port" = .ok usage ∧
      Positional.bind usage .empty (Token.numbered ["a", "b", "c"]) = .ok m ∧
      m = Matches.empty.setAll (filled usage.arguments slots) ∧
      slotsOf .required usage.arguments slots = [some (.text "b"), some (.text "c")] ∧
      slotsOf .optional usage.arguments slots = [some (.text "a"), none]) ∧
    ∃ usage slots m, read none "Usage: p from files... to" = .ok usage ∧
      Positional.bind usage .empty (Token.numbered ["a", "b", "c", "d"]) = .ok m ∧
      slots = [some (Value.text "a"), some (.list ["b", "c"]), some (.text "d")] ∧
      m.argument? "files" = some (.list ["b", "c"]) := by
  constructor
  · let usage : Usage :=
      { program := "p"
        message := "Usage: p [mode] host [path] port"
        arguments := [⟨"mode", .optional⟩, ⟨"host", .required⟩, ⟨"path", .optional⟩,
          ⟨"port", .required⟩]
        options := []
        flagTable := .empty
        defaults := .empty }
    have hread : read none "Usage: p [mode] host [path] port" = .ok usage := by decide +kernel
    obtain ⟨slots, m, -, hbind, hm, -, -, hsplit⟩ := @bind_keeps_every_value usage none _ hread
      (Token.numbered ["a", "b", "c"]) (by decide) .empty
    obtain ⟨hrequired, hoptional, -⟩ := hsplit rfl
    exact ⟨usage, slots, m, hread, hbind, hm, hrequired, hoptional⟩
  · let usage : Usage :=
      { program := "p"
        message := "Usage: p from files... to"
        arguments := [⟨"from", .required⟩, ⟨"files", .repeated⟩, ⟨"to", .required⟩]
        options := []
        flagTable := .empty
        defaults := .empty }
    have hread : read none "Usage: p from files... to" = .ok usage := by decide +kernel
    obtain ⟨slots, m, -, hbind, -, hname, hrun, -⟩ := @bind_keeps_every_value usage none _ hread
      (Token.numbered ["a", "b", "c", "d"]) (by decide) .empty
    obtain ⟨-, hslots, -⟩ := hrun [⟨"from", .required⟩] "files" [⟨"to", .required⟩] rfl
    have hfiles := hname [⟨"from", .required⟩] ⟨"files", .repeated⟩ [⟨"to", .required⟩] rfl
      (by decide)
    rw [hslots] at hfiles
    exact ⟨usage, slots, m, hread, hbind, hslots, hfiles⟩

end Usage

end Synopsis
