import Synopsis.Proofs.FieldSettings
import Synopsis.Proofs.Outcomes

/-!
# Which records can be read

A declaration is accepted exactly if it is *supported* (`Item.Supported`): it is a struct with
named fields, without type parameters and without an attribute of ours on the item itself, and the
arguments of each field's attributes are at most one assignment of a string to `name`. The plan
then has an entry for each field (`FieldPlan.Follows`).

Neither depends on how arguments are split over attributes, on the order of arguments, on the
brackets around them, or on the order in which maps are visited. Which error is reported may depend
on the latter, but it is always one of the first field that is at fault (`Item.Refused`).
-/

namespace Synopsis.Record

theorem Attribute.isOurs_iff {a : Attribute} :
    a.isOurs = true ↔ a.path = .identifier "byexample" := by
  rw [isOurs, attributePath, decide_eq_true_iff]

/-! ## Fields -/

/-- `plain` is the identifier `name` without the mark of a raw identifier. -/
def IsPlain (name plain : String) : Prop :=
  name = "r#" ++ plain ∨ name = plain ∧ ∀ rest, name ≠ "r#" ++ rest

theorem plainName_raw (rest : String) : plainName ("r#" ++ rest) = rest := by
  have hchars : ("r#" ++ rest).toList = 'r' :: '#' :: rest.toList := String.toList_append
  rw [plainName, hchars]
  exact String.ofList_toList

theorem plainName_of_ne {name : String} (h : ∀ rest, name ≠ "r#" ++ rest) :
    plainName name = name := by
  rw [plainName]
  split
  · next rest hchars =>
    refine absurd ?_ (h (String.ofList rest))
    have hraw : ("r#" ++ String.ofList rest).toList = 'r' :: '#' :: rest := by simp
    rw [← String.toList_inj, hchars, hraw]
  · rfl

theorem isPlain_iff {name plain : String} : IsPlain name plain ↔ plain = plainName name := by
  by_cases hraw : ∃ rest, name = "r#" ++ rest
  · obtain ⟨rest, rfl⟩ := hraw
    rw [plainName_raw, IsPlain]
    constructor
    · rintro (heq | ⟨-, hne⟩)
      · simpa [eq_comm] using heq
      · exact absurd rfl (hne rest)
    · rintro rfl
      exact .inl rfl
  · have hne : ∀ rest, name ≠ "r#" ++ rest := fun rest heq => hraw ⟨rest, heq⟩
    rw [plainName_of_ne hne, IsPlain]
    constructor
    · rintro (heq | ⟨heq, -⟩)
      · exact absurd heq (hne plain)
      · exact heq.symm
    · rintro rfl
      exact .inr ⟨rfl, hne⟩

namespace Field

/-- The arguments of all attributes of the field that concern the reading of records, in order. -/
def arguments (f : Field) : List Argument := argumentsOf f.attributes

/-- The field can be read: its attributes have lists of arguments, and these give it at most one
name. -/
structure Supported (f : Field) : Prop where
  listed : ∀ a ∈ f.attributes, a.path = .identifier "byexample" → a.Listed
  named : f.arguments = [] ∨ ∃ name, f.arguments = [Argument.naming name]

/-- Something is wrong with the attributes of the field, or with the name that they give. -/
inductive Fault (f : Field) : PlanError → Prop
  | attributes {e : PlanError} (h : Settings.Fault f.attributes e) : Fault f e
  | name {e : PlanError} (h : Settings.Unsettled f.name f.arguments e) : Fault f e

theorem keyed_naming (name : String) : (Argument.naming name).Keyed := .assign _ _

theorem Fault.not_supported {f : Field} {e : PlanError} (h : f.Fault e) : ¬ f.Supported := by
  rintro ⟨hlisted, hnamed⟩
  cases h with
  | attributes h =>
    cases h with
    | value ha hours hbody =>
      simpa [Attribute.Listed, hbody] using hlisted _ ha (Attribute.isOurs_iff.1 hours)
    | unreadable ha hours hbody =>
      simpa [Attribute.Listed, hbody] using hlisted _ ha (Attribute.isOurs_iff.1 hours)
    | argument hb hfault =>
      change _ ∈ f.arguments at hb
      rcases hnamed with hnone | ⟨name, hone⟩
      · rw [hnone] at hb
        cases hb
      · rw [hone, List.mem_singleton] at hb
        subst hb
        exact hfault.not_keyed (keyed_naming name)
  | name h =>
    rcases hnamed with hnone | ⟨name, hone⟩
    · rw [hnone] at h
      cases h with
      | key h => cases h
      | pair h => cases h
      | notLiteral h => cases h
      | repeated h => cases h
    · rw [hone] at h
      cases h with
      | key h => simp [Argument.naming] at h
      | pair h hkey => simp [Argument.naming, hkey] at h
      | notLiteral h hvalue =>
        simp [Argument.naming, Argument.values, Argument.valueFor?] at h
        exact hvalue name h.symm
      | repeated h => simp [Argument.naming, Argument.values, Argument.valueFor?] at h

end Field

namespace FieldPlan

/-- The plan is the one for the field: it is read under the name that is given, or else under its
own, and in the way that the last segment of its type asks for. -/
structure Follows (p : FieldPlan) (f : Field) : Prop where
  field : p.field = f.name
  lookup : f.arguments = [] ∧ IsPlain f.name p.lookup ∨ f.arguments = [.naming p.lookup]
  switch : p.reading = .switch ↔ f.type = .path "bool"
  optional : p.reading = .optional ↔ f.type = .path "Option"
  collection : p.reading = .collection ↔ f.type = .path "Vec"

theorem eq_ofType_iff {reading : Reading} {type : FieldType} :
    reading = Reading.ofType type ↔
      (reading = .switch ↔ type = .path "bool") ∧ (reading = .optional ↔ type = .path "Option") ∧
        (reading = .collection ↔ type = .path "Vec") := by
  cases type with
  | other => cases reading <;> simp [Reading.ofType]
  | path last =>
    simp only [Reading.ofType, FieldType.path.injEq]
    by_cases hbool : last = "bool"
    · subst hbool; cases reading <;> simp
    · by_cases hoption : last = "Option"
      · subst hoption; cases reading <;> simp
      · by_cases hvec : last = "Vec"
        · subst hvec; cases reading <;> simp
        · cases reading <;> simp [hbool, hoption, hvec]

/-- A field has one plan. -/
theorem Follows.unique {p q : FieldPlan} {f : Field} (hp : p.Follows f) (hq : q.Follows f) :
    p = q := by
  have hlookup : p.lookup = q.lookup := by
    rcases hp.lookup with ⟨hnone, hown⟩ | hgiven
    · rcases hq.lookup with ⟨-, hown'⟩ | hgiven'
      · rw [isPlain_iff.1 hown, isPlain_iff.1 hown']
      · simp [hnone] at hgiven'
    · rcases hq.lookup with ⟨hnone, -⟩ | hgiven'
      · simp [hnone] at hgiven
      · rw [hgiven] at hgiven'
        simpa [Argument.naming] using hgiven'
  have hreading : p.reading = q.reading := by
    rw [eq_ofType_iff.2 ⟨hp.switch, hp.optional, hp.collection⟩,
      eq_ofType_iff.2 ⟨hq.switch, hq.optional, hq.collection⟩]
  obtain ⟨field, lookup, reading⟩ := p
  obtain ⟨field', lookup', reading'⟩ := q
  obtain rfl : field = field' := hp.field.trans hq.field.symm
  obtain rfl : lookup = lookup' := hlookup
  obtain rfl : reading = reading' := hreading
  rfl

variable {v : Visiting} {f : Field} {p : FieldPlan} {e : PlanError}

theorem of_ofField_ok (h : ofField v f = .ok p) : f.Supported ∧ p.Follows f := by
  rw [ofField] at h
  cases hcollect : Settings.empty.collect v f.attributes with
  | error e => simp [hcollect] at h
  | ok s =>
    simp only [hcollect] at h
    obtain ⟨hlisted, hkeyed, htold⟩ := Settings.says_empty.collect hcollect
    rw [List.nil_append] at htold
    cases hlookup : s.lookup? v f.name with
    | error e => simp [hlookup] at h
    | ok name =>
      simp only [hlookup] at h
      obtain rfl := Except.ok.inj h
      obtain ⟨hswitch, hoptional, hcollection⟩ := eq_ofType_iff.1 (Eq.refl (Reading.ofType f.type))
      have hlisted' : ∀ a ∈ f.attributes, a.path = .identifier "byexample" → a.Listed :=
        fun a ha hpath => hlisted a ha (Attribute.isOurs_iff.2 hpath)
      rcases htold.of_lookup?_ok hkeyed hlookup with ⟨hnone, rfl⟩ | ⟨text, hone, rfl⟩
      · exact ⟨⟨hlisted', .inl hnone⟩,
          ⟨rfl, .inl ⟨hnone, isPlain_iff.2 rfl⟩, hswitch, hoptional, hcollection⟩⟩
      · exact ⟨⟨hlisted', .inr ⟨text, hone⟩⟩, ⟨rfl, .inr hone, hswitch, hoptional, hcollection⟩⟩

theorem of_ofField_error (h : ofField v f = .error e) : f.Fault e := by
  rw [ofField] at h
  cases hcollect : Settings.empty.collect v f.attributes with
  | error e' =>
    simp only [hcollect] at h
    obtain rfl := Except.error.inj h
    exact .attributes (Settings.fault_of_collect hcollect)
  | ok s =>
    simp only [hcollect] at h
    obtain ⟨-, -, htold⟩ := Settings.says_empty.collect hcollect
    rw [List.nil_append] at htold
    cases hlookup : s.lookup? v f.name with
    | error e' =>
      simp only [hlookup] at h
      obtain rfl := Except.error.inj h
      exact .name (htold.of_lookup?_error hlookup)
    | ok name => simp [hlookup] at h

/-- A field is accepted exactly if it is supported, with the plan that follows from it. -/
theorem ofField_eq_ok_iff : ofField v f = .ok p ↔ f.Supported ∧ p.Follows f := by
  refine ⟨of_ofField_ok, fun ⟨hsupported, hfollows⟩ => ?_⟩
  cases hcase : ofField v f with
  | error e => exact absurd hsupported (of_ofField_error hcase).not_supported
  | ok q => rw [hfollows.unique (of_ofField_ok hcase).2]

theorem ofFields_eq_ok_iff {visiting : Nat → Visiting} {fields : List Field}
    {plans : List FieldPlan} :
    ofFields visiting fields = .ok plans ↔
      List.Forall₂ (fun f p => f.Supported ∧ p.Follows f) fields plans := by
  induction fields generalizing plans with
  | nil => simp [ofFields, eq_comm]
  | cons f fields ih =>
    rw [ofFields, List.forall₂_cons_left_iff]
    simp only [← ih]
    simp only [← ofField_eq_ok_iff (v := visiting fields.length)]
    cases ofField (visiting fields.length) f with
    | error e => simp
    | ok p => simp [map_eq_ok_iff]

/-- The error is one of the first field that is at fault. -/
theorem of_ofFields_error {visiting : Nat → Visiting} {fields : List Field}
    (h : ofFields visiting fields = .error e) :
    ∃ before f after, fields = before ++ f :: after ∧ (∀ g ∈ before, g.Supported) ∧
      f.Fault e := by
  induction fields with
  | nil => cases h
  | cons f fields ih =>
    rw [ofFields] at h
    cases hf : ofField (visiting fields.length) f with
    | error e' =>
      simp only [hf] at h
      obtain rfl := Except.error.inj h
      exact ⟨[], f, fields, rfl, by simp, of_ofField_error hf⟩
    | ok p =>
      simp only [hf] at h
      obtain ⟨before, g, after, rfl, hbefore, hfault⟩ := ih (map_eq_error_iff.1 h)
      have hall := List.forall_mem_cons.2 ⟨(of_ofField_ok hf).1, hbefore⟩
      exact ⟨f :: before, g, after, rfl, hall, hfault⟩

theorem exists_ofFields (visiting : Nat → Visiting) {fields : List Field}
    (h : ∀ f ∈ fields, f.Supported) : ∃ plans, ofFields visiting fields = .ok plans := by
  cases hcase : ofFields visiting fields with
  | ok plans => exact ⟨plans, rfl⟩
  | error e =>
    obtain ⟨before, f, after, rfl, -, hfault⟩ := of_ofFields_error hcase
    exact absurd (h f (by simp)) hfault.not_supported

end FieldPlan

/-! ## Items -/

namespace Item

/-- The item can be read. -/
structure Supported (item : Item) : Prop where
  unmarked : ∀ a ∈ item.attributes, a.path ≠ .identifier "byexample"
  plain : item.generics = []
  fields : ∃ fields, item.body = .named fields ∧ ∀ f ∈ fields, f.Supported

/-- Why an item is refused: each reason counts only if those before it do not apply. -/
inductive Refused (item : Item) : PlanError → Prop
  | marked {a : Attribute} (ha : a ∈ item.attributes) (hpath : a.path = .identifier "byexample") :
      Refused item .attributeOnItem
  | generic (hunmarked : ∀ a ∈ item.attributes, a.path ≠ .identifier "byexample")
      (hgenerics : item.generics ≠ []) : Refused item .genericItem
  | unnamed (hunmarked : ∀ a ∈ item.attributes, a.path ≠ .identifier "byexample")
      (hgenerics : item.generics = []) (hbody : item.body = .tuple ∨ item.body = .unit) :
      Refused item .unnamedFields
  | notStruct (hunmarked : ∀ a ∈ item.attributes, a.path ≠ .identifier "byexample")
      (hgenerics : item.generics = [])
      (hbody : item.body = .enumeration ∨ item.body = .union) : Refused item .notStruct
  | field {before after : List Field} {f : Field} {e : PlanError}
      (hunmarked : ∀ a ∈ item.attributes, a.path ≠ .identifier "byexample")
      (hgenerics : item.generics = []) (hbody : item.body = .named (before ++ f :: after))
      (hbefore : ∀ g ∈ before, g.Supported) (hunsupported : ¬ f.Supported) (hfault : f.Fault e) :
      Refused item e

end Item

/-- The fields differ only in how arguments are split over attributes, ordered and bracketed, and
in attributes of others. -/
structure Field.Rearranged (f g : Field) : Prop where
  name : f.name = g.name
  type : f.type = g.type
  listed : (∀ a ∈ f.attributes, a.path = .identifier "byexample" → a.Listed) ↔
    ∀ a ∈ g.attributes, a.path = .identifier "byexample" → a.Listed
  arguments : f.arguments.Perm g.arguments

/-- The items differ only in how the arguments of fields are split over attributes, ordered and
bracketed, and in attributes of others. -/
structure Item.Rearranged (item item' : Item) : Prop where
  name : item.name = item'.name
  generics : item.generics = item'.generics
  attributes : item.attributes = item'.attributes
  body : item.body = item'.body ∨ ∃ fields fields', item.body = .named fields ∧
    item'.body = .named fields' ∧ List.Forall₂ Field.Rearranged fields fields'

namespace Field.Rearranged

variable {f g : Field}

theorem symm (h : f.Rearranged g) : g.Rearranged f :=
  ⟨h.name.symm, h.type.symm, h.listed.symm, h.arguments.symm⟩

theorem arguments_eq_nil (h : f.Rearranged g) (hnone : f.arguments = []) : g.arguments = [] := by
  have hperm := h.arguments
  rw [hnone] at hperm
  exact hperm.nil_eq.symm

theorem arguments_eq_singleton (h : f.Rearranged g) {a : Argument} (hone : f.arguments = [a]) :
    g.arguments = [a] := by
  have hperm := h.arguments
  rw [hone] at hperm
  exact hperm.singleton_eq.symm

theorem supported (h : f.Rearranged g) (hf : f.Supported) : g.Supported := by
  refine ⟨h.listed.1 hf.listed, ?_⟩
  rcases hf.named with hnone | ⟨name, hone⟩
  · exact .inl (h.arguments_eq_nil hnone)
  · exact .inr ⟨name, h.arguments_eq_singleton hone⟩

theorem follows (h : f.Rearranged g) {p : FieldPlan} (hp : p.Follows f) : p.Follows g := by
  refine ⟨hp.field.trans h.name, ?_, ?_, ?_, ?_⟩
  · rcases hp.lookup with ⟨hnone, hplain⟩ | hone
    · exact .inl ⟨h.arguments_eq_nil hnone, h.name ▸ hplain⟩
    · exact .inr (h.arguments_eq_singleton hone)
  · rw [← h.type]
    exact hp.switch
  · rw [← h.type]
    exact hp.optional
  · rw [← h.type]
    exact hp.collection

/-- Rearranged fields have the same plans. -/
theorem forall₂ {fields fields' : List Field} (h : List.Forall₂ Rearranged fields fields')
    {plans : List FieldPlan}
    (hplans : List.Forall₂ (fun f p => f.Supported ∧ p.Follows f) fields plans) :
    List.Forall₂ (fun f p => f.Supported ∧ p.Follows f) fields' plans := by
  induction h generalizing plans with
  | nil => exact hplans
  | cons hfg _ ih =>
    cases hplans with
    | cons hp hrest => exact .cons ⟨hfg.supported hp.1, hfg.follows hp.2⟩ (ih hrest)

end Field.Rearranged

theorem Item.Rearranged.symm {item item' : Item} (h : item.Rearranged item') :
    item'.Rearranged item := by
  refine ⟨h.name.symm, h.generics.symm, h.attributes.symm, ?_⟩
  rcases h.body with heq | ⟨fields, fields', hbody, hbody', hfields⟩
  · exact .inl heq.symm
  · refine .inr ⟨fields', fields, hbody', hbody, hfields.flip.imp ?_⟩
    exact fun f g hgf => hgf.symm

namespace Plan

variable {visiting : Nat → Visiting} {item : Item}

theorem any_isOurs_eq_false_iff :
    ¬ item.attributes.any Attribute.isOurs ↔
      ∀ a ∈ item.attributes, a.path ≠ .identifier "byexample" := by
  simp [Attribute.isOurs_iff]

theorem derive_eq_ok_iff {plan : Plan} :
    derive visiting item = .ok plan ↔
      (∀ a ∈ item.attributes, a.path ≠ .identifier "byexample") ∧ item.generics = [] ∧
        plan.name = item.name ∧ ∃ fields, item.body = .named fields ∧
          List.Forall₂ (fun f p => f.Supported ∧ p.Follows f) fields plan.fields := by
  rw [derive, ← any_isOurs_eq_false_iff]
  by_cases hmarked : item.attributes.any Attribute.isOurs = true
  · simp [hmarked]
  by_cases hgenerics : item.generics = []
  · simp only [hmarked, hgenerics]
    cases hbody : item.body with
    | named fields =>
      have hplans : List.Forall₂ (fun f p => f.Supported ∧ p.Follows f) fields plan.fields ↔
          FieldPlan.ofFields visiting fields = .ok plan.fields :=
        FieldPlan.ofFields_eq_ok_iff.symm
      simp only [Body.named.injEq, exists_eq_left', hplans]
      obtain ⟨name, plans⟩ := plan
      simp [map_eq_ok_iff, and_comm]
    | tuple => simp
    | unit => simp
    | enumeration => simp
    | union => simp
  · simp [hmarked, hgenerics]

theorem refused_of_derive {e : PlanError} (h : derive visiting item = .error e) :
    item.Refused e := by
  rw [derive] at h
  by_cases hmarked : item.attributes.any Attribute.isOurs = true
  · rw [if_pos hmarked] at h
    obtain rfl := Except.error.inj h
    obtain ⟨a, ha, hours⟩ := List.any_eq_true.1 hmarked
    exact .marked ha (Attribute.isOurs_iff.1 hours)
  rw [if_neg hmarked] at h
  rw [any_isOurs_eq_false_iff] at hmarked
  by_cases hgenerics : item.generics = []
  · rw [if_neg (not_not_intro hgenerics)] at h
    cases hbody : item.body with
    | named fields =>
      simp only [hbody] at h
      obtain ⟨before, f, after, rfl, hbefore, hfault⟩ :=
        FieldPlan.of_ofFields_error (map_eq_error_iff.1 h)
      exact .field hmarked hgenerics hbody hbefore hfault.not_supported hfault
    | tuple =>
      rw [hbody] at h
      obtain rfl := Except.error.inj h
      exact .unnamed hmarked hgenerics (.inl hbody)
    | unit =>
      rw [hbody] at h
      obtain rfl := Except.error.inj h
      exact .unnamed hmarked hgenerics (.inr hbody)
    | enumeration =>
      rw [hbody] at h
      obtain rfl := Except.error.inj h
      exact .notStruct hmarked hgenerics (.inl hbody)
    | union =>
      rw [hbody] at h
      obtain rfl := Except.error.inj h
      exact .notStruct hmarked hgenerics (.inr hbody)
  · rw [if_pos hgenerics] at h
    obtain rfl := Except.error.inj h
    exact .generic hmarked hgenerics

theorem exists_derive_iff : (∃ plan, derive visiting item = .ok plan) ↔ item.Supported := by
  constructor
  · rintro ⟨plan, hplan⟩
    obtain ⟨hunmarked, hgenerics, -, fields, hbody, hfields⟩ := derive_eq_ok_iff.1 hplan
    exact ⟨hunmarked, hgenerics, fields, hbody, ((List.forall₂_and_left fields _).1 hfields).1⟩
  · rintro ⟨hunmarked, hgenerics, fields, hbody, hfields⟩
    obtain ⟨plans, hplans⟩ := FieldPlan.exists_ofFields visiting hfields
    have hfollow := FieldPlan.ofFields_eq_ok_iff.1 hplans
    exact ⟨⟨item.name, plans⟩,
      derive_eq_ok_iff.2 ⟨hunmarked, hgenerics, rfl, fields, hbody, hfollow⟩⟩

theorem derive_rearranged {visiting' : Nat → Visiting} {item' : Item} {plan : Plan}
    (h : item.Rearranged item') (hplan : derive visiting item = .ok plan) :
    derive visiting' item' = .ok plan := by
  obtain ⟨hunmarked, hgenerics, hname, fields, hbody, hfields⟩ := derive_eq_ok_iff.1 hplan
  rw [h.attributes] at hunmarked
  rw [h.generics] at hgenerics
  rw [h.name] at hname
  rcases h.body with heq | ⟨fields₁, fields', hbody₁, hbody', hrearranged⟩
  · exact derive_eq_ok_iff.2 ⟨hunmarked, hgenerics, hname, fields, heq ▸ hbody, hfields⟩
  · rw [hbody₁, Body.named.injEq] at hbody
    subst hbody
    have hfields' := Field.Rearranged.forall₂ hrearranged hfields
    exact derive_eq_ok_iff.2 ⟨hunmarked, hgenerics, hname, fields', hbody', hfields'⟩

/-- **Exactly the supported items are accepted.** The plan has an entry for each field in declared
order: under the name that is given, or else the field's own, and read as its type asks for. Items
with the same arguments, however split over attributes, ordered and bracketed, and in whatever order
maps are visited, are accepted alike and with the same plan. A refusal reports an attribute on the
item before type parameters, these before the kind of item, and that before the first field at
fault. -/
theorem accepts_supported_items (visiting : Nat → Visiting) (item : Item) :
    ((∃ plan, derive visiting item = .ok plan) ↔ item.Supported) ∧
    (∀ plan, derive visiting item = .ok plan → plan.name = item.name ∧
      ∃ fields, item.body = .named fields ∧
        List.Forall₂ (fun f p => p.Follows f) fields plan.fields) ∧
    (∀ visiting' item', item.Rearranged item' →
      (derive visiting item).toOption = (derive visiting' item').toOption) ∧
    ∀ e, derive visiting item = .error e → item.Refused e := by
  refine ⟨exists_derive_iff, fun plan hplan => ?_, fun visiting' item' h => ?_,
    fun e => refused_of_derive⟩
  · obtain ⟨-, -, hname, fields, hbody, hfields⟩ := derive_eq_ok_iff.1 hplan
    exact ⟨hname, fields, hbody, ((List.forall₂_and_left fields _).1 hfields).2⟩
  · have hiff : ∀ plan, derive visiting item = .ok plan ↔ derive visiting' item' = .ok plan :=
      fun plan => ⟨derive_rearranged h, derive_rearranged h.symm⟩
    cases hleft : derive visiting item with
    | ok plan => rw [(hiff plan).1 hleft]
    | error e =>
      cases hright : derive visiting' item' with
      | ok plan => rw [(hiff plan).2 hright] at hleft; cases hleft
      | error e' => rfl

/-- A name beside a bare attribute and one of others, or by itself in square brackets, gives the
same plan in either order of visiting. Of a generic enumeration it is reported that it is generic,
and of a list that cannot be read what is wrong with it. -/
theorem accepts_supported_items_split :
    (∃ item item', item ≠ item' ∧ item.Rearranged item' ∧
      (derive (fun _ => .ascending) item).toOption =
        some ⟨"Copy", [⟨"r#in", "sources", .collection⟩, ⟨"r#type", "type", .scalar⟩]⟩ ∧
      (derive (fun _ => ⟨fun _ m => m.entries.reverse, fun _ _ => List.reverse_perm _⟩)
        item').toOption =
        some ⟨"Copy", [⟨"r#in", "sources", .collection⟩, ⟨"r#type", "type", .scalar⟩]⟩) ∧
    Item.Refused ⟨"Either", ["T"], [], .enumeration⟩ .genericItem ∧
    Item.Refused ⟨"Target", [], [], .named [⟨"host", .path "String",
      [⟨.identifier "byexample", .unreadable .parenthesis "expected `,`"⟩]⟩]⟩
      (.unreadableArguments "expected `,`") := by
  let ours : Expr := .identifier "byexample"
  let type : Field := ⟨"r#type", .path "u8", []⟩
  let sources : List Attribute → Field := fun attributes => ⟨"r#in", .path "Vec", attributes⟩
  let several : List Attribute := [⟨ours, .bare⟩, ⟨.identifier "doc", .value (.text "All.")⟩,
    ⟨ours, .arguments .parenthesis [.naming "sources"]⟩]
  let single : List Attribute := [⟨ours, .arguments .bracket [.naming "sources"]⟩]
  let split : Item := ⟨"Copy", [], [], .named [sources several, type]⟩
  let joined : Item := ⟨"Copy", [], [], .named [sources single, type]⟩
  have hsources : Field.Rearranged (sources several) (sources single) :=
    ⟨rfl, rfl, by simp [sources, several, single, ours, Attribute.Listed], by decide⟩
  have hrearranged : split.Rearranged joined :=
    ⟨rfl, rfl, rfl, .inr ⟨_, _, rfl, rfl, .cons hsources (.cons ⟨rfl, rfl, .rfl, .refl _⟩ .nil)⟩⟩
  have hplan : (derive (fun _ => .ascending) split).toOption =
      some ⟨"Copy", [⟨"r#in", "sources", .collection⟩, ⟨"r#type", "type", .scalar⟩]⟩ := by
    decide +kernel
  obtain ⟨-, -, hsame, -⟩ := accepts_supported_items (fun _ => .ascending) split
  have hrefused (item : Item) := (accepts_supported_items (fun _ => .ascending) item).2.2.2
  refine ⟨⟨split, joined, by decide, hrearranged, hplan, ?_⟩, hrefused _ _ rfl, hrefused _ _ rfl⟩
  exact (hsame _ joined hrearranged).symm.trans hplan

/-- A list need not be in parentheses: an attribute with a name in square brackets is accepted,
though it is neither bare nor a list in parentheses. -/
theorem bracketed_list_accepted :
    (derive (fun _ => .ascending) ⟨"Target", [], [], .named [⟨"host", .path "String",
      [⟨.identifier "byexample", .arguments .bracket [.naming "h"]⟩]⟩]⟩).toOption =
        some ⟨"Target", [⟨"host", "h", .scalar⟩]⟩ ∧
    ∀ args, AttributeBody.arguments .bracket [.naming "h"] ∉
      [.bare, .arguments .parenthesis args] := by
  constructor
  · decide +kernel
  · simp

end Plan

end Synopsis.Record
