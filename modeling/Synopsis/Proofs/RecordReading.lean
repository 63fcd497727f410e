import Synopsis.Proofs.Outcomes
import Synopsis.Proofs.RecordPlans
import Synopsis.Record.Layout

/-!
# Reading records from matches

A record is read by the layout of an accepted declaration: its plan with a reader for each field.
All fields are read, or the first one that fails decides the error; what a single field holds
follows from its declared type and from what is bound to its name (`Slot.Holds`).

Reading asks the matches for no more than the presence of each switch and the value of each other
field, so matches which agree on these give the same record (`Slot.AgreeOn`).
-/

namespace Synopsis

/-! ## Texts and values -/

namespace Matches

variable {α : Type} {m : Matches} {reader : Reader α} {name : String}

theorem convert_eq_ok_iff {text : String} {value : α} :
    convert reader name text = .ok value ↔ reader.read? text = some value := by
  rw [convert]
  cases reader.read? text <;> simp

theorem convert_eq_error_iff {text : String} {e : ExtractError} :
    convert reader name text = .error e ↔
      reader.read? text = none ∧ e = .invalidConversion name text reader.typeName := by
  rw [convert]
  cases reader.read? text <;> simp [eq_comm]

theorem convertAll_eq_mapM (texts : List String) :
    convertAll reader name texts = texts.mapM (convert reader name) := by
  induction texts with
  | nil => rfl
  | cons text texts ih =>
    rw [convertAll, List.mapM_cons, ih]
    cases convert reader name text with
    | error e => rfl
    | ok value => cases texts.mapM (convert reader name) <;> rfl

/-- The texts that are bound to a name: the items of a list, a single value as one text, and none
where nothing is bound. -/
def texts (m : Matches) (name : String) : List String :=
  match m.argument? name with
  | some (.list items) => items
  | some value => [value.render]
  | none => []

theorem extractAll_eq_mapM :
    m.extractAll reader name = (m.texts name).mapM (convert reader name) := by
  -- Both sides tell a list from a single value.
  have hsingle : ∀ value : Value, (convert reader name value.render).map (fun a => [a]) =
      convertAll reader name [value.render] := fun value => by
    simp only [convertAll]
    cases convert reader name value.render <;> rfl
  rw [extractAll, texts, ← convertAll_eq_mapM]
  cases m.argument? name with
  | none => rfl
  | some value =>
    cases value with
    | list items => rfl
    | text s => exact hsingle (.text s)
    | integer n => exact hsingle (.integer n)
    | date d => exact hsingle (.date d)
    | time t => exact hsingle (.time t)

theorem extractAll_eq_ok_iff {values : List α} :
    m.extractAll reader name = .ok values ↔
      List.Forall₂ (fun text value => reader.read? text = some value) (m.texts name) values := by
  rw [extractAll_eq_mapM, mapM_eq_ok_iff]
  simp only [convert_eq_ok_iff]

/-- The leftmost text that cannot be read is reported. -/
theorem extractAll_eq_error_iff {e : ExtractError} :
    m.extractAll reader name = .error e ↔
      ∃ before text after, m.texts name = before ++ text :: after ∧
        (∀ t ∈ before, ∃ value, reader.read? t = some value) ∧ reader.read? text = none ∧
        e = .invalidConversion name text reader.typeName := by
  rw [extractAll_eq_mapM, mapM_eq_error_iff]
  simp only [convert_eq_ok_iff, convert_eq_error_iff]

theorem extract_eq_error_iff {e : ExtractError} :
    m.extract reader name = .error e ↔
      ∃ value, m.argument? name = some value ∧ reader.read? value.render = none ∧
        e = .invalidConversion name value.render reader.typeName := by
  rw [extract]
  cases m.argument? name with
  | none => simp
  | some value => simp [map_eq_error_iff, convert_eq_error_iff]

theorem require_eq_missing_iff {key : String} :
    m.require reader name = .error (.missing key) ↔ m.argument? name = none ∧ key = name := by
  rw [require]
  cases hcase : m.extract reader name with
  | error e =>
    obtain ⟨value, hvalue, -, rfl⟩ := extract_eq_error_iff.1 hcase
    simp [hvalue]
  | ok value? =>
    rw [extract] at hcase
    cases hargument : m.argument? name with
    | none =>
      rw [hargument] at hcase
      obtain rfl := Except.ok.inj hcase
      simp [eq_comm]
    | some value =>
      rw [hargument] at hcase
      cases hconvert : convert reader name value.render with
      | error e => simp [hconvert, Except.map] at hcase
      | ok a =>
        simp only [hconvert] at hcase
        obtain rfl := Except.ok.inj hcase
        simp

end Matches

namespace Record

/-! ## Fields -/

variable {α : Type}

namespace Slot

/-- What a field of the declared type holds, or why it cannot be read. -/
structure Holds (s : Slot α) (type : FieldType) (m : Matches) : Prop where
  switch : type = .path "bool" → s.read m = .ok (.switch (m.includes s.lookup))
  optional : type = .path "Option" →
    s.read m = (m.extract s.reader s.lookup).map .optional ∧
      ∀ name, s.read m ≠ .error (.missing name)
  collection : type = .path "Vec" →
    s.read m = (m.extractAll s.reader s.lookup).map .collection ∧
      (∀ name, s.read m ≠ .error (.missing name)) ∧
      (∀ content, s.read m = .ok content ↔ ∃ values, content = .collection values ∧
        List.Forall₂ (fun text value => s.reader.read? text = some value)
          (m.texts s.lookup) values) ∧
      ∀ e, s.read m = .error e ↔ ∃ before text after, m.texts s.lookup = before ++ text :: after ∧
        (∀ t ∈ before, ∃ value, s.reader.read? t = some value) ∧ s.reader.read? text = none ∧
        e = .invalidConversion s.lookup text s.reader.typeName
  scalar : type ≠ .path "bool" → type ≠ .path "Option" → type ≠ .path "Vec" →
    s.read m = (m.require s.reader s.lookup).map .scalar ∧
      ∀ name, s.read m = .error (.missing name) ↔
        name = s.lookup ∧ m.argument? s.lookup = none

variable {s : Slot α} {m m' : Matches}

theorem holds_of_follows {f : Field} (h : s.toFieldPlan.Follows f) (m : Matches) :
    s.Holds f.type m := by
  constructor
  case switch =>
    intro htype
    rw [read, h.switch.2 htype]
  case optional =>
    intro htype
    have hread : s.read m = (m.extract s.reader s.lookup).map .optional := by
      rw [read, h.optional.2 htype]
    refine ⟨hread, fun name => ?_⟩
    rw [hread, Ne, map_eq_error_iff, Matches.extract_eq_error_iff]
    rintro ⟨value, -, -, heq⟩
    cases heq
  case collection =>
    intro htype
    have hread : s.read m = (m.extractAll s.reader s.lookup).map .collection := by
      rw [read, h.collection.2 htype]
    refine ⟨hread, fun name => ?_, fun content => ?_, fun e => ?_⟩
    · rw [hread, Ne, map_eq_error_iff, Matches.extractAll_eq_error_iff]
      rintro ⟨before, text, after, -, -, -, heq⟩
      cases heq
    · rw [hread, map_eq_ok_iff]
      simp only [Matches.extractAll_eq_ok_iff, and_comm]
    · rw [hread, map_eq_error_iff, Matches.extractAll_eq_error_iff]
  case scalar =>
    -- The plan has no other way left to read the field.
    intro hbool hoption hvec
    have hread : s.read m = (m.require s.reader s.lookup).map .scalar := by
      rw [read]
      cases hreading : s.reading with
      | switch => exact absurd (h.switch.1 hreading) hbool
      | optional => exact absurd (h.optional.1 hreading) hoption
      | collection => exact absurd (h.collection.1 hreading) hvec
      | scalar => rfl
    refine ⟨hread, fun name => ?_⟩
    rw [hread, map_eq_error_iff, Matches.require_eq_missing_iff, and_comm]

/-- The matches agree on what the field asks for: the presence of a switch, or else a value. Whether
a name of a value was given, and what is bound to the name of a switch, is left open. -/
def AgreeOn (s : Slot α) (m m' : Matches) : Prop :=
  (s.reading = .switch → m.includes s.lookup = m'.includes s.lookup) ∧
    (s.reading ≠ .switch → m.argument? s.lookup = m'.argument? s.lookup)

theorem read_congr (h : s.AgreeOn m m') : s.read m = s.read m' := by
  rw [read, read]
  cases hreading : s.reading with
  | switch => simp only [h.1 hreading]
  | optional =>
    have hvalue := h.2 (by simp [hreading])
    simp only [Matches.extract, hvalue]
  | collection =>
    have hvalue := h.2 (by simp [hreading])
    simp only [Matches.extractAll, hvalue]
  | scalar =>
    have hvalue := h.2 (by simp [hreading])
    simp only [Matches.require, Matches.extract, hvalue]

end Slot

/-! ## Records -/

theorem readSlots_eq_mapM (m : Matches) (slots : List (Slot α)) :
    readSlots m slots = slots.mapM fun s => (s.read m).map (Prod.mk s.field) := by
  induction slots with
  | nil => rfl
  | cons s slots ih =>
    rw [readSlots, List.mapM_cons, ih]
    cases s.read m with
    | error e => rfl
    | ok content => cases slots.mapM fun s => (s.read m).map (Prod.mk s.field) <;> rfl

theorem readSlots_congr {m m' : Matches} {slots : List (Slot α)}
    (h : ∀ s ∈ slots, s.AgreeOn m m') : readSlots m slots = readSlots m' slots := by
  induction slots with
  | nil => rfl
  | cons s slots ih =>
    obtain ⟨hs, hslots⟩ := List.forall_mem_cons.1 h
    rw [readSlots, readSlots, Slot.read_congr hs, ih hslots]

namespace LayoutOf

variable {l : LayoutOf α} {m : Matches}

theorem read_eq_ok_iff {r : InstanceOf α} :
    l.read m = .ok r ↔ r.name = l.name ∧
      List.Forall₂ (fun s c => c.1 = s.field ∧ s.read m = .ok c.2) l.slots r.fields := by
  have hfield : ∀ (s : Slot α) (c : String × ContentOf α),
      (s.read m).map (Prod.mk s.field) = .ok c ↔ c.1 = s.field ∧ s.read m = .ok c.2 := by
    rintro s ⟨field, content⟩
    rw [map_eq_ok_iff]
    simp [and_comm, eq_comm]
  obtain ⟨name, fields⟩ := r
  rw [read, map_eq_ok_iff, readSlots_eq_mapM]
  simp only [mapM_eq_ok_iff, hfield, InstanceOf.mk.injEq]
  constructor
  · rintro ⟨_, hfields, rfl, rfl⟩
    exact ⟨rfl, hfields⟩
  · rintro ⟨rfl, hfields⟩
    exact ⟨_, hfields, rfl, rfl⟩

theorem exists_read_iff :
    (∃ r, l.read m = .ok r) ↔ ∀ s ∈ l.slots, ∃ content, s.read m = .ok content := by
  simp only [read, exists_map_eq_ok_iff, readSlots_eq_mapM, exists_mapM_eq_ok_iff]

theorem read_eq_error_iff {e : ExtractError} :
    l.read m = .error e ↔ ∃ before s after, l.slots = before ++ s :: after ∧
      (∀ t ∈ before, ∃ content, t.read m = .ok content) ∧ s.read m = .error e := by
  rw [read, map_eq_error_iff, readSlots_eq_mapM, mapM_eq_error_iff]
  simp only [exists_map_eq_ok_iff, map_eq_error_iff]

/-- **A record of an accepted type is read field by field.** It can be read exactly if every field
can, and then holds what is read for each; otherwise the first field that cannot be read decides
the error. What a field holds follows from its declared type. Nothing else in the matches counts
than the presence of the switches and the values of the other fields. -/
theorem reads_accepted_record {visiting : Nat → Visiting} {item : Item} {l : LayoutOf α}
    (hplan : Plan.derive visiting item = .ok l.plan) (m : Matches) :
    ((∃ r, l.read m = .ok r) ↔ ∀ s ∈ l.slots, ∃ content, s.read m = .ok content) ∧
    (∀ r, l.read m = .ok r ↔ r.name = item.name ∧
      List.Forall₂ (fun s c => c.1 = s.field ∧ s.read m = .ok c.2) l.slots r.fields) ∧
    (∀ e, l.read m = .error e ↔ ∃ before s after, l.slots = before ++ s :: after ∧
      (∀ t ∈ before, ∃ content, t.read m = .ok content) ∧ s.read m = .error e) ∧
    (∃ fields, item.body = .named fields ∧
      List.Forall₂ (fun f s => s.toFieldPlan.Follows f ∧ s.Holds f.type m) fields l.slots) ∧
    ∀ m', (∀ s ∈ l.slots, s.AgreeOn m m') → l.read m = l.read m' := by
  obtain ⟨-, -, hname, fields, hbody, hfields⟩ := Plan.derive_eq_ok_iff.1 hplan
  change l.name = item.name at hname
  refine ⟨exists_read_iff, fun r => ?_, fun e => read_eq_error_iff, ⟨fields, hbody, ?_⟩,
    fun m' h => ?_⟩
  · rw [read_eq_ok_iff, hname]
  · rw [plan, List.forall₂_map_right_iff] at hfields
    exact hfields.imp fun f s h => ⟨h.2, s.holds_of_follows h.2 m⟩
  · rw [read, read, readSlots_congr h]

/-- Of the ports that are listed, the first that is no number is reported. The mark on a value and
the value of a switch do not count. -/
theorem reads_accepted_record_ports :
    ∃ (item : Item) (l : Layout) (m m' : Matches),
      Plan.derive (fun _ => .ascending) item = .ok l.plan ∧ m ≠ m' ∧
      m.argument? "port" = some (.list ["80", "http", "?"]) ∧
      l.read m' = .error (.invalidConversion "port" "http" "u16") := by
  let ours : Expr := .identifier "byexample"
  let unsigned16 : ScalarType := .integer ⟨false, .bits16⟩
  let item : Item := ⟨"Serve", [], [], .named [⟨"verbose", .path "bool", []⟩,
    ⟨"wait", .path "Option", []⟩,
    ⟨"ports", .path "Vec", [⟨ours, .arguments .brace [.naming "port"]⟩]⟩,
    ⟨"r#type", .path "String", []⟩]⟩
  let ports : Slot Scalar := ⟨⟨"ports", "port", .collection⟩, unsigned16.reader⟩
  let l : Layout := ⟨"Serve", [⟨⟨"verbose", "verbose", .switch⟩, ScalarType.boolean.reader⟩,
    ⟨⟨"wait", "wait", .optional⟩, unsigned16.reader⟩, ports,
    ⟨⟨"r#type", "type", .scalar⟩, ScalarType.string.reader⟩]⟩
  let m : Matches := Matches.empty.set "port" (.list ["80", "http", "?"])
  let m' : Matches := (m.mark "port").set "verbose" (.integer 1)
  have hplan : Plan.derive (fun _ => .ascending) item = .ok l.plan := by decide +kernel
  have hports : ports.read m = .error (.invalidConversion "port" "http" "u16") := by decide +kernel
  obtain ⟨-, -, herror, -, hsame⟩ := reads_accepted_record hplan m
  refine ⟨item, l, m, m', hplan, by decide +kernel, by decide +kernel, ?_⟩
  rw [← hsame m' (by simp [l, ports, m, m', Slot.AgreeOn])]
  have hwait : m.argument? "wait" = none := by decide +kernel
  exact (herror _).2 ⟨[_, _], ports, [_], rfl,
    by simp [Slot.read, Matches.extract, Except.map, hwait], hports⟩

end LayoutOf

end Record

end Synopsis
