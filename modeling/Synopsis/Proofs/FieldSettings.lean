import Synopsis.Record.Plan

/-!
# The settings of a field

The arguments of a field's attributes are taken in one by one, kept in maps for each attribute, and
the maps are merged attribute by attribute. In the end the settings say no more than the list of
all arguments does (`Settings.Says`): which keys stand alone, and which values are assigned to a
key, in order. How the arguments are split over attributes, and in what order the maps are visited
while they are merged, makes no difference.
-/

namespace Synopsis

/-! ## Maps that are visited in any order -/

theorem NameMap.contains_insertAll {α : Type} {m : NameMap α} {entries : List (String × α)}
    {name : String} :
    (m.insertAll entries).contains name = true ↔
      m.contains name = true ∨ ∃ value, (name, value) ∈ entries := by
  rw [contains, get?_insertAll, Option.isSome_or, Bool.or_eq_true, ← contains, or_comm]
  refine or_congr_right ⟨fun h => ?_, fun ⟨value, h⟩ => isSome_last? h⟩
  obtain ⟨value, hvalue⟩ := Option.isSome_iff_exists.1 h
  exact ⟨value, mem_of_last? hvalue⟩

namespace Record

namespace Visiting

variable {α : Type} (v : Visiting) (number : Nat) (m : NameMap α)

theorem distinct_visit : (v.visit number m).Pairwise fun a b => a.1 ≠ b.1 :=
  (v.perm number m).symm.pairwise m.distinct_entries fun h => Ne.symm h

theorem mem_visit {name : String} {value : α} :
    (name, value) ∈ v.visit number m ↔ m.get? name = some value := by
  rw [(v.perm number m).mem_iff, NameMap.get?_eq_some_iff]

theorem lookup_visit (name : String) : NameMap.lookup name (v.visit number m) = m.get? name := by
  ext value
  rw [NameMap.lookup_eq_some_iff (v.distinct_visit number m), mem_visit]

end Visiting

/-! ## What arguments say -/

namespace Argument

/-- The value that the argument assigns to a key. -/
def valueFor? (key : String) : Argument → Option Expr
  | .assign (.identifier name) value => if name = key then some value else none
  | _ => none

/-- The argument is a plain identifier, or assigns to one. -/
inductive Keyed : Argument → Prop
  | assign (key : String) (value : Expr) : Keyed (.assign (.identifier key) value)
  | lone (key : String) : Keyed (.lone (.identifier key))

/-- The argument is neither, and this is what is wrong with it. -/
inductive Fault : Argument → PlanError → Prop
  | key {key value : Expr} (hkey : ∀ name, key ≠ .identifier name) :
      Fault (.assign key value) .expectedIdentifier
  | path : Fault (.lone .path) .expectedIdentifier
  | expression {expr : Expr} (hname : ∀ name, expr ≠ .identifier name) (hpath : expr ≠ .path) :
      Fault (.lone expr) .expectedArgument

theorem Fault.not_keyed {a : Argument} {e : PlanError} (h : a.Fault e) : ¬ a.Keyed := by
  cases h with
  | key hkey => rintro ⟨⟩; exact hkey _ rfl
  | path => nofun
  | expression hname => rintro ⟨⟩; exact hname _ rfl

/-- The argument that gives a field a name. -/
def naming (name : String) : Argument := .assign (.identifier "name") (.text name)

/-- The values that arguments assign to a key, in order. -/
def values (key : String) (args : List Argument) : List Expr := args.filterMap (valueFor? key)

theorem valueFor?_eq_some_iff {key : String} {a : Argument} {value : Expr} :
    a.valueFor? key = some value ↔ a = .assign (.identifier key) value := by
  cases a with
  | lone expr => simp [valueFor?]
  | assign left right =>
    cases left with
    | identifier name => by_cases hname : name = key <;> simp [valueFor?, hname]
    | path => simp [valueFor?]
    | text s => simp [valueFor?]
    | other => simp [valueFor?]

theorem mem_values {key : String} {args : List Argument} {value : Expr} :
    value ∈ values key args ↔ .assign (.identifier key) value ∈ args := by
  simp only [values, List.mem_filterMap, valueFor?_eq_some_iff]
  exact ⟨fun ⟨a, ha, h⟩ => h ▸ ha, fun h => ⟨_, h, rfl⟩⟩

theorem values_append (key : String) (args more : List Argument) :
    values key (args ++ more) = values key args ++ values key more :=
  List.filterMap_append

theorem values_singleton (key : String) (a : Argument) :
    values key [a] = (a.valueFor? key).toList := by
  rw [values, List.filterMap_cons]
  cases a.valueFor? key <;> rfl

/-- If all arguments assign to one key, its values are all there is to them. -/
theorem eq_of_values {key : String} {args : List Argument} {value : Expr}
    (hargs : ∀ a ∈ args, ∃ right, a = .assign (.identifier key) right)
    (h : values key args = [value]) : args = [.assign (.identifier key) value] := by
  cases args with
  | nil => cases h
  | cons a rest =>
    obtain ⟨right, rfl⟩ := hargs a List.mem_cons_self
    have hsplit := values_append key [.assign (.identifier key) right] rest
    rw [values_singleton, List.singleton_append, h] at hsplit
    simp only [valueFor?, if_true, Option.toList_some, List.singleton_append,
      List.cons.injEq] at hsplit
    obtain ⟨rfl, hnone⟩ := hsplit
    have hrest : rest = [] := by
      refine List.eq_nil_iff_forall_not_mem.2 fun b hb => ?_
      obtain ⟨second, rfl⟩ := hargs b (List.mem_cons_of_mem _ hb)
      have hmem := mem_values.2 hb
      rw [← hnone] at hmem
      cases hmem
    rw [hrest]

end Argument

namespace Settings

/-- The settings say what the arguments say. A key without a value is not kept among the pairs. -/
structure Says (s : Settings) (args : List Argument) : Prop where
  keys : ∀ key, s.keys.contains key = true ↔ .lone (.identifier key) ∈ args
  pairs : ∀ key, s.pairs.get? key =
    if Argument.values key args = [] then none else some (Argument.values key args)

theorem says_empty : empty.Says [] where
  keys := fun key => by simp [empty, NameMap.contains]
  pairs := fun key => rfl

theorem Says.getD_pairs {s : Settings} {args : List Argument} (h : s.Says args) (key : String) :
    (s.pairs.get? key).getD [] = Argument.values key args := by
  rw [h.pairs]
  split
  · next hnone => exact hnone.symm
  · rfl

theorem get?_assign (pairs : NameMap (List Expr)) (name : String) (values : List Expr)
    (key : String) :
    (assign pairs (name, values)).get? key =
      if name = key then some ((pairs.get? key).getD [] ++ values) else pairs.get? key := by
  rw [assign, NameMap.get?_insert]
  by_cases hname : name = key <;> simp [hname]

theorem keyed_of_add {s t : Settings} {a : Argument} (h : s.add a = .ok t) : a.Keyed := by
  rw [Settings.add.eq_def] at h
  split at h
  · exact .assign _ _
  · cases h
  · exact .lone _
  · cases h
  · cases h

theorem fault_of_add {s : Settings} {a : Argument} {e : PlanError} (h : s.add a = .error e) :
    a.Fault e := by
  rw [Settings.add.eq_def] at h
  split at h
  · cases h
  · next hkey => cases h; exact .key fun name hname => hkey name hname
  · cases h
  · cases h; exact .path
  · next hname hpath =>
    cases h
    exact .expression (fun name heq => hname name heq) hpath

/-- One more argument. -/
theorem Says.add {s t : Settings} {args : List Argument} (h : s.Says args) {a : Argument}
    (hadd : s.add a = .ok t) : t.Says (args ++ [a]) := by
  cases keyed_of_add hadd with
  | assign key value =>
    obtain rfl := Except.ok.inj hadd
    refine ⟨fun name => ?_, fun name => ?_⟩
    · simp [h.keys]
    · rw [get?_assign, h.getD_pairs, h.pairs, Argument.values_append, Argument.values_singleton]
      by_cases hkey : key = name <;> simp [Argument.valueFor?, hkey]
  | lone key =>
    obtain rfl := Except.ok.inj hadd
    refine ⟨fun name => ?_, fun name => ?_⟩
    · have hkeys := h.keys name
      by_cases hkey : key = name
      · simp [NameMap.contains, hkey]
      · simpa [NameMap.contains, hkey, Ne.symm hkey] using hkeys
    · rw [h.pairs, Argument.values_append, Argument.values_singleton]
      simp [Argument.valueFor?]

theorem Says.addAll {s t : Settings} {args more : List Argument} (h : s.Says args)
    (hadd : s.addAll more = .ok t) : (∀ a ∈ more, a.Keyed) ∧ t.Says (args ++ more) := by
  induction more generalizing s args with
  | nil =>
    obtain rfl := Except.ok.inj hadd
    simpa using h
  | cons a more ih =>
    rw [Settings.addAll] at hadd
    cases hstep : s.add a with
    | error e => simp [hstep] at hadd
    | ok next =>
      simp only [hstep] at hadd
      obtain ⟨hmore, htold⟩ := ih (h.add hstep) hadd
      exact ⟨List.forall_mem_cons.2 ⟨keyed_of_add hstep, hmore⟩, by simpa using htold⟩

theorem fault_of_addAll {s : Settings} {args : List Argument} {e : PlanError}
    (h : s.addAll args = .error e) : ∃ a ∈ args, a.Fault e := by
  induction args generalizing s with
  | nil => cases h
  | cons a args ih =>
    rw [Settings.addAll] at h
    cases hstep : s.add a with
    | error e' =>
      simp only [hstep] at h
      cases h
      exact ⟨a, by simp, fault_of_add hstep⟩
    | ok next =>
      simp only [hstep] at h
      obtain ⟨b, hb, hfault⟩ := ih h
      exact ⟨b, by simp [hb], hfault⟩

/-! ## Attributes -/

/-- Entries with different names are taken in independently. -/
theorem get?_foldl_assign {entries : List (String × List Expr)}
    (h : entries.Pairwise fun a b => a.1 ≠ b.1) (pairs : NameMap (List Expr)) (key : String) :
    (entries.foldl assign pairs).get? key =
      match NameMap.lookup key entries with
      | some values => some ((pairs.get? key).getD [] ++ values)
      | none => pairs.get? key := by
  induction entries generalizing pairs with
  | nil => rfl
  | cons entry entries ih =>
    obtain ⟨name, values⟩ := entry
    obtain ⟨hname, hentries⟩ := List.pairwise_cons.1 h
    rw [List.foldl_cons, ih hentries, get?_assign, NameMap.lookup]
    by_cases hkey : name = key
    · have hnone : NameMap.lookup key entries = none := by
        rw [Option.eq_none_iff_forall_ne_some]
        intro value hvalue
        exact hname _ ((NameMap.lookup_eq_some_iff hentries).1 hvalue) hkey
      simp [hkey, hnone]
    · simp [hkey]

/-- One more attribute. -/
theorem Says.merge {s t : Settings} {args more : List Argument} (hs : s.Says args)
    (ht : t.Says more) (v : Visiting) (number : Nat) :
    (s.merge v number t).Says (args ++ more) := by
  refine ⟨fun key => ?_, fun key => ?_⟩
  · have hvisit : (∃ value, (key, value) ∈ v.visit number t.keys) ↔
        t.keys.contains key = true := by
      simp only [v.mem_visit, NameMap.contains, Option.isSome_iff_exists]
    rw [Settings.merge, NameMap.contains_insertAll, hvisit, hs.keys, ht.keys, List.mem_append]
  · rw [Settings.merge, get?_foldl_assign (v.distinct_visit number t.pairs), v.lookup_visit,
      ht.pairs, Argument.values_append]
    by_cases hmore : Argument.values key more = []
    · simp [hmore, hs.pairs]
    · simp [hmore, hs.getD_pairs]

end Settings

/-- The arguments of an attribute. -/
def Attribute.arguments (a : Attribute) : List Argument :=
  match a.body with
  | .arguments _ args => args
  | _ => []

/-- The arguments of all attributes that concern the reading of records, in order. -/
def argumentsOf (attributes : List Attribute) : List Argument :=
  (attributes.filter Attribute.isOurs).flatMap Attribute.arguments

/-- The attribute is bare, or has a list that reads as arguments, in brackets of whatever kind. -/
def Attribute.Listed (a : Attribute) : Prop :=
  a.body = .bare ∨ ∃ delimiter args, a.body = .arguments delimiter args

namespace Settings

theorem says_ofAttribute {a : Attribute} {t : Settings} (h : ofAttribute a = .ok t) :
    a.Listed ∧ (∀ b ∈ a.arguments, b.Keyed) ∧ t.Says a.arguments := by
  rw [ofAttribute] at h
  rw [Attribute.Listed, Attribute.arguments]
  cases hbody : a.body with
  | bare =>
    rw [hbody] at h
    obtain rfl := Except.ok.inj h
    exact ⟨.inl rfl, by simp, says_empty⟩
  | value value =>
    rw [hbody] at h
    cases h
  | arguments delimiter args =>
    rw [hbody] at h
    obtain ⟨hkeyed, htold⟩ := says_empty.addAll h
    exact ⟨.inr ⟨delimiter, args, rfl⟩, hkeyed, by simpa using htold⟩
  | unreadable delimiter reason =>
    rw [hbody] at h
    cases h

theorem argumentsOf_cons (a : Attribute) (attributes : List Attribute) :
    argumentsOf (a :: attributes) =
      (if a.isOurs then a.arguments else []) ++ argumentsOf attributes := by
  rw [argumentsOf, List.filter_cons]
  by_cases hours : a.isOurs = true <;> simp [hours, argumentsOf]

/-- What the attributes of a field say together. -/
theorem Says.collect {v : Visiting} {s t : Settings} {args : List Argument} (h : s.Says args)
    {attributes : List Attribute} (hcollect : s.collect v attributes = .ok t) :
    (∀ a ∈ attributes, a.isOurs → a.Listed) ∧ (∀ b ∈ argumentsOf attributes, b.Keyed) ∧
      t.Says (args ++ argumentsOf attributes) := by
  induction attributes generalizing s args with
  | nil =>
    obtain rfl := Except.ok.inj hcollect
    exact ⟨by simp, by simp [argumentsOf], by simpa [argumentsOf] using h⟩
  | cons a attributes ih =>
    rw [Settings.collect] at hcollect
    by_cases hours : a.isOurs = true
    · rw [if_pos hours] at hcollect
      cases hone : ofAttribute a with
      | error e => simp [hone] at hcollect
      | ok one =>
        simp only [hone] at hcollect
        obtain ⟨hlisted, hkeyed, htold⟩ := says_ofAttribute hone
        obtain ⟨hlisted', hkeyed', htold'⟩ := ih (h.merge htold v _) hcollect
        rw [argumentsOf_cons, if_pos hours]
        refine ⟨List.forall_mem_cons.2 ⟨fun _ => hlisted, hlisted'⟩, ?_, by simpa using htold'⟩
        intro b hb
        rcases List.mem_append.1 hb with hb | hb
        · exact hkeyed b hb
        · exact hkeyed' b hb
    · rw [if_neg hours] at hcollect
      obtain ⟨hlisted, hkeyed, htold⟩ := ih h hcollect
      rw [argumentsOf_cons, if_neg hours, List.nil_append]
      exact ⟨List.forall_mem_cons.2 ⟨fun hours' => absurd hours' hours, hlisted⟩, hkeyed, htold⟩

/-- Something is wrong with an attribute or with one of its arguments. -/
inductive Fault (attributes : List Attribute) : PlanError → Prop
  | value {a : Attribute} {value : Expr} (ha : a ∈ attributes) (hours : a.isOurs)
      (hbody : a.body = .value value) : Fault attributes .expectedParentheses
  | unreadable {a : Attribute} {delimiter : Delimiter} {reason : String} (ha : a ∈ attributes)
      (hours : a.isOurs) (hbody : a.body = .unreadable delimiter reason) :
      Fault attributes (.unreadableArguments reason)
  | argument {b : Argument} {e : PlanError} (hb : b ∈ argumentsOf attributes)
      (hfault : b.Fault e) : Fault attributes e

theorem Fault.cons {attributes : List Attribute} {e : PlanError} (h : Fault attributes e)
    (a : Attribute) : Fault (a :: attributes) e := by
  cases h with
  | value hb hours hbody => exact .value (List.mem_cons_of_mem a hb) hours hbody
  | unreadable hb hours hbody => exact .unreadable (List.mem_cons_of_mem a hb) hours hbody
  | argument hb hfault =>
    refine .argument ?_ hfault
    rw [argumentsOf_cons]
    exact List.mem_append_right _ hb

theorem fault_of_ofAttribute {a : Attribute} {e : PlanError} (hours : a.isOurs)
    (h : ofAttribute a = .error e) (attributes : List Attribute) : Fault (a :: attributes) e := by
  rw [ofAttribute] at h
  cases hbody : a.body with
  | bare => simp [hbody] at h
  | value value =>
    simp only [hbody] at h
    obtain rfl := Except.error.inj h
    exact .value List.mem_cons_self hours hbody
  | unreadable delimiter reason =>
    simp only [hbody] at h
    obtain rfl := Except.error.inj h
    exact .unreadable List.mem_cons_self hours hbody
  | arguments delimiter args =>
    simp only [hbody] at h
    obtain ⟨b, hb, hfault⟩ := fault_of_addAll h
    refine .argument ?_ hfault
    rw [argumentsOf_cons, if_pos hours, Attribute.arguments, hbody]
    exact List.mem_append_left _ hb

/-- What is wrong if the attributes of a field cannot be taken in. -/
theorem fault_of_collect {v : Visiting} {s : Settings} {attributes : List Attribute}
    {e : PlanError} (h : s.collect v attributes = .error e) : Fault attributes e := by
  induction attributes generalizing s with
  | nil => cases h
  | cons a attributes ih =>
    rw [Settings.collect] at h
    by_cases hours : a.isOurs = true
    · rw [if_pos hours] at h
      cases hone : ofAttribute a with
      | error e' =>
        simp only [hone] at h
        obtain rfl := Except.error.inj h
        exact fault_of_ofAttribute hours hone attributes
      | ok one =>
        simp only [hone] at h
        exact (ih h).cons a
    · rw [if_neg hours] at h
      exact (ih h).cons a

/-! ## The name that settings give -/

/-- The arguments, each of them keyed, do not settle under which name a field is read. -/
inductive Unsettled (field : String) (args : List Argument) : PlanError → Prop
  | key {key : String} (h : .lone (.identifier key) ∈ args) :
      Unsettled field args (.unknownAttribute key field)
  | pair {key : String} {value : Expr} (h : .assign (.identifier key) value ∈ args)
      (hkey : key ≠ "name") : Unsettled field args (.unknownAttribute key field)
  | notLiteral {value : Expr} (h : Argument.values "name" args = [value])
      (hvalue : ∀ text, value ≠ .text text) : Unsettled field args (.nameNotLiteral field)
  | repeated (h : 1 < (Argument.values "name" args).length) :
      Unsettled field args (.nameRepeated field)

/-- Entries with different names give a name only if there is nothing else. -/
theorem nameIn_eq_ok {field : String} {entries : List (String × List Expr)}
    {before name : Option String} (hdistinct : entries.Pairwise fun a b => a.1 ≠ b.1)
    (h : nameIn field before entries = .ok name) :
    entries = [] ∧ name = before ∨
      ∃ text, entries = [("name", [.text text])] ∧ name = some text := by
  rw [nameIn.eq_def] at h
  split at h
  · obtain rfl := Except.ok.inj h
    exact .inl ⟨rfl, rfl⟩
  · next key values rest =>
    split at h
    · next hkey =>
      subst hkey
      split at h
      · next text =>
        -- No other entry is named like the first, so a second one would be unknown.
        have hrest := (List.pairwise_cons.1 hdistinct).1
        cases rest with
        | nil =>
          obtain rfl := Except.ok.inj h
          exact .inr ⟨text, rfl, rfl⟩
        | cons entry rest =>
          have hother : entry.1 ≠ "name" := (hrest entry List.mem_cons_self).symm
          simp [nameIn, hother] at h
      · cases h
      · cases h
    · cases h

/-- An entry gives a field no name. -/
inductive EntryFault (field : String) : String → List Expr → PlanError → Prop
  | unknown {key : String} {values : List Expr} (hkey : key ≠ "name") :
      EntryFault field key values (.unknownAttribute key field)
  | notLiteral {value : Expr} (hvalue : ∀ text, value ≠ .text text) :
      EntryFault field "name" [value] (.nameNotLiteral field)
  | repeated {values : List Expr} (hvalues : values.length ≠ 1) :
      EntryFault field "name" values (.nameRepeated field)

theorem fault_of_nameIn {field : String} {entries : List (String × List Expr)}
    {before : Option String} {e : PlanError} (h : nameIn field before entries = .error e) :
    ∃ key values, (key, values) ∈ entries ∧ EntryFault field key values e := by
  fun_induction nameIn field before entries with
  | case1 before => cases h
  | case2 before rest text ih =>
    obtain ⟨key, values, hmem, hfault⟩ := ih h
    exact ⟨key, values, List.mem_cons_of_mem _ hmem, hfault⟩
  | case3 before rest value hvalue =>
    obtain rfl := Except.error.inj h
    exact ⟨"name", [value], List.mem_cons_self, .notLiteral fun text heq => hvalue text heq⟩
  | case4 before values rest _ hvalues =>
    obtain rfl := Except.error.inj h
    refine ⟨"name", values, List.mem_cons_self, .repeated fun hone => ?_⟩
    obtain ⟨value, rfl⟩ := List.length_eq_one_iff.1 hone
    exact hvalues value rfl
  | case5 before key values rest hkey =>
    obtain rfl := Except.error.inj h
    exact ⟨key, values, List.mem_cons_self, .unknown hkey⟩

section Lookup

variable {v : Visiting} {field : String} {s : Settings} {args : List Argument}

theorem Says.mem_visit_pairs (h : s.Says args) {number : Nat} {key : String}
    {values : List Expr} :
    (key, values) ∈ v.visit number s.pairs ↔
      Argument.values key args = values ∧ values ≠ [] := by
  rw [v.mem_visit, h.pairs]
  by_cases hnone : Argument.values key args = []
  · simp only [hnone, if_true]
    refine iff_of_false nofun fun ⟨hvalues, hne⟩ => hne hvalues.symm
  · simp only [hnone, if_false, Option.some.injEq]
    exact ⟨fun heq => ⟨heq, heq ▸ hnone⟩, fun heq => heq.1⟩

/-- Settings give a name exactly as the only argument does, and none if there is no argument. -/
theorem Says.of_lookup?_ok (htold : s.Says args) (hkeyed : ∀ a ∈ args, a.Keyed)
    {name : Option String} (h : s.lookup? v field = .ok name) :
    args = [] ∧ name = none ∨ ∃ text, args = [.naming text] ∧ name = some text := by
  rw [lookup?] at h
  split at h
  · cases h
  next hkeys =>
    have hlone : ∀ key, .lone (.identifier key) ∉ args := by
      intro key hmem
      obtain ⟨value, hvalue⟩ := Option.isSome_iff_exists.1 ((htold.keys key).2 hmem)
      rw [← v.mem_visit 0, hkeys] at hvalue
      cases hvalue
    have hassign : ∀ a ∈ args, ∃ key value, a = .assign (.identifier key) value ∧
        (key, Argument.values key args) ∈ v.visit 0 s.pairs := by
      intro a ha
      cases hkeyed a ha with
      | lone key => exact absurd ha (hlone key)
      | assign key value =>
        have hmem := Argument.mem_values.2 ha
        exact ⟨key, value, rfl, htold.mem_visit_pairs.2 ⟨rfl, List.ne_nil_of_mem hmem⟩⟩
    rcases nameIn_eq_ok (v.distinct_visit 0 s.pairs) h with ⟨hnil, rfl⟩ | ⟨text, hone, rfl⟩
    · refine .inl ⟨List.eq_nil_iff_forall_not_mem.2 fun a ha => ?_, rfl⟩
      obtain ⟨key, value, -, hmem⟩ := hassign a ha
      rw [hnil] at hmem
      cases hmem
    · refine .inr ⟨text, Argument.eq_of_values (fun a ha => ?_) ?_, rfl⟩
      · obtain ⟨key, value, rfl, hmem⟩ := hassign a ha
        rw [hone, List.mem_singleton, Prod.mk.injEq] at hmem
        exact ⟨value, by rw [hmem.1]⟩
      · have hmem : ("name", [Expr.text text]) ∈ v.visit 0 s.pairs := by simp [hone]
        exact (htold.mem_visit_pairs.1 hmem).1

theorem Says.of_lookup?_error (htold : s.Says args) {e : PlanError}
    (h : s.lookup? v field = .error e) : Unsettled field args e := by
  rw [lookup?] at h
  split at h
  · next key value rest hkeys =>
    obtain rfl := Except.error.inj h
    have hkey : s.keys.get? key = some value := by simp [← v.mem_visit 0, hkeys]
    exact .key ((htold.keys key).1 (Option.isSome_iff_exists.2 ⟨value, hkey⟩))
  · obtain ⟨key, values, hmem, hfault⟩ := fault_of_nameIn h
    obtain ⟨rfl, hne⟩ := htold.mem_visit_pairs.1 hmem
    generalize hvalues : Argument.values key args = values at hfault hne
    cases hfault with
    | unknown hkey =>
      obtain ⟨value, hvalue⟩ := List.exists_mem_of_ne_nil values hne
      rw [← hvalues, Argument.mem_values] at hvalue
      exact .pair hvalue hkey
    | notLiteral hvalue => exact .notLiteral hvalues hvalue
    | repeated hlength =>
      refine .repeated ?_
      have hpos := List.length_pos_iff.2 hne
      rw [hvalues]
      omega

end Lookup

end Settings

end Record

end Synopsis
