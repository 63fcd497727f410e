import Synopsis.NameMap
import Synopsis.Record.Item

/-!
# Plans for reading records

A *plan* says how each field of a record is read from matches: under which name, and whether the
field takes the presence of an option, a value if there is one, all values, or a value that must
be there. The plan follows from the declaration: a field is read under its own name unless an
attribute gives another, and its type decides how.

A declaration that cannot be read is refused. Attributes on the item are reported first, then type
parameters, then the kind of item, and then the first field with a fault. Which brackets stand
around the arguments of an attribute makes no difference. The settings of a field are kept in maps,
and where several of them are at fault, the order in which the maps are visited decides which one
is reported. That order is a parameter here (`Visiting`).
-/

namespace Synopsis.Record

/-- How a field is read. Models `ParameterType`. -/
inductive Reading where
  /-- Whether the option is given. -/
  | switch
  /-- The value, if there is one. -/
  | optional
  /-- All values. -/
  | collection
  /-- The value, which must be there. -/
  | scalar
deriving DecidableEq, Repr

/-- How a field of a record is read. Models `DeriveField`. -/
structure FieldPlan where
  field : String
  /-- The canonical name that the field is read under. -/
  lookup : String
  reading : Reading
deriving DecidableEq, Repr

/-- How a record is read, field by field in declared order. Models `DeriveExtraction`. -/
structure Plan where
  name : String
  fields : List FieldPlan
deriving DecidableEq, Repr

/-- Why a record declaration is refused. -/
inductive PlanError where
  | attributeOnItem
  | genericItem
  /-- The item is a struct, but its fields have no names. -/
  | unnamedFields
  /-- The item is no struct. -/
  | notStruct
  /-- An attribute has a value instead of arguments. -/
  | expectedParentheses
  /-- The arguments of an attribute cannot be read. What is wrong with them is in the words of the
  parser that was given them. -/
  | unreadableArguments (reason : String)
  /-- A key is not a plain identifier. -/
  | expectedIdentifier
  /-- An argument is neither an assignment nor a key. -/
  | expectedArgument
  | unknownAttribute (key field : String)
  | nameNotLiteral (field : String)
  | nameRepeated (field : String)
deriving DecidableEq, Repr

namespace PlanError

/-- What is wrong, as it is told to the programmer. Models `invalid`. -/
def reason (detail : String) : String := "Invalid - " ++ detail ++ "."

/-- The error in words. -/
def message : PlanError → String
  | .attributeOnItem => reason "#[byexample(..)] is only supported on fields"
  | .genericItem => reason "FromMatches cannot be derived for a generic struct"
  | .unnamedFields => reason "FromMatches requires a struct with named fields"
  | .notStruct => reason "FromMatches can only be derived for a struct"
  | .expectedParentheses => "expected parentheses: #[byexample(...)]"
  | .unreadableArguments reason => reason
  | .expectedIdentifier => reason "expected a plain identifier"
  | .expectedArgument => reason "expected `key = value` or `key` in #[byexample(..)]"
  | .unknownAttribute key field =>
    reason ("unknown attribute `" ++ key ++ "` on field '" ++ field ++ "'")
  | .nameNotLiteral field =>
    reason ("`name` on field '" ++ field ++ "' must be a string literal")
  | .nameRepeated field =>
    reason ("`name` on field '" ++ field ++ "' may only be given once")

end PlanError

/-- The path of the attributes that concern the reading of records. -/
def attributePath : Expr := .identifier "byexample"

/-- Whether an attribute concerns the reading of records. -/
def Attribute.isOurs (a : Attribute) : Bool := a.path = attributePath

/-- An order in which the entries of maps are visited. The maps that belong to a field are told
apart by a number. -/
structure Visiting where
  visit {α : Type} (number : Nat) (m : NameMap α) : List (String × α)
  perm {α : Type} (number : Nat) (m : NameMap α) : (visit number m).Perm m.entries

/-- All maps are visited in ascending order of names. -/
def Visiting.ascending : Visiting := ⟨fun _ m => m.entries, fun _ _ => .refl _⟩

/-- What the attributes of a field say: keys alone, and keys with the values that are assigned to
them. Models `IntermediateAttributes`, with its `singletons` and `pairs`. -/
structure Settings where
  keys : NameMap Unit
  pairs : NameMap (List Expr)
deriving DecidableEq

namespace Settings

/-- No settings. -/
def empty : Settings := ⟨.empty, .empty⟩

/-- Put values after those that a key has already. -/
def assign (pairs : NameMap (List Expr)) (entry : String × List Expr) : NameMap (List Expr) :=
  pairs.insert entry.1 ((pairs.get? entry.1).getD [] ++ entry.2)

/-- Take in what an argument says. Only a plain identifier is a key. Models the body of the loop in
`IntermediateAttributes::try_from`, with `single_ident`. -/
def add (s : Settings) : Argument → Except PlanError Settings
  | .assign (.identifier key) value => .ok { s with pairs := assign s.pairs (key, [value]) }
  | .assign _ _ => .error .expectedIdentifier
  | .lone (.identifier key) => .ok { s with keys := s.keys.insert key () }
  | .lone .path => .error .expectedIdentifier
  | .lone _ => .error .expectedArgument

/-- Take in what a list of arguments says; the first fault counts. -/
def addAll (s : Settings) : List Argument → Except PlanError Settings
  | [] => .ok s
  | a :: rest =>
    match s.add a with
    | .error e => .error e
    | .ok t => addAll t rest

/-- What one attribute says. Of a list, only what stands between the brackets counts. Models
`IntermediateAttributes::try_from`. -/
def ofAttribute (a : Attribute) : Except PlanError Settings :=
  match a.body with
  | .bare => .ok empty
  | .value _ => .error .expectedParentheses
  | .arguments _ args => empty.addAll args
  | .unreadable _ reason => .error (.unreadableArguments reason)

/-- Take in the settings of one more attribute, entry by entry. -/
def merge (v : Visiting) (number : Nat) (s t : Settings) : Settings :=
  ⟨s.keys.insertAll (v.visit number t.keys), (v.visit number t.pairs).foldl assign s.pairs⟩

/-- Take in what the attributes of a field say, those of others left out. The maps of an attribute
have the number of attributes from it to the last one. Models the loop over attributes in
`DeriveField::try_from`. -/
def collect (v : Visiting) (s : Settings) : List Attribute → Except PlanError Settings
  | [] => .ok s
  | a :: rest =>
    if a.isOurs then
      match ofAttribute a with
      | .error e => .error e
      | .ok t => collect v (s.merge v (rest.length + 1) t) rest
    else collect v s rest

/-- The name that entries give to a field, or else the one that it has so far. -/
def nameIn (field : String) :
    Option String → List (String × List Expr) → Except PlanError (Option String)
  | name, [] => .ok name
  | _, (key, values) :: rest =>
    if key = "name" then
      match values with
      | [.text value] => nameIn field (some value) rest
      | [_] => .error (.nameNotLiteral field)
      | _ => .error (.nameRepeated field)
    else .error (.unknownAttribute key field)

/-- The name that the settings give to a field, if they give one. Their maps have the number
zero. -/
def lookup? (v : Visiting) (field : String) (s : Settings) : Except PlanError (Option String) :=
  match v.visit 0 s.keys with
  | (key, _) :: _ => .error (.unknownAttribute key field)
  | [] => nameIn field none (v.visit 0 s.pairs)

end Settings

/-- An identifier without the mark of a raw one (`unraw`). -/
def plainName (name : String) : String :=
  match name.toList with
  | 'r' :: '#' :: rest => String.ofList rest
  | _ => name

/-- How fields of a type are read. -/
def Reading.ofType : FieldType → Reading
  | .path last =>
    if last = "bool" then .switch
    else if last = "Option" then .optional
    else if last = "Vec" then .collection
    else .scalar
  | .other => .scalar

/-- How a declared field is read. Models `DeriveField::try_from`. -/
def FieldPlan.ofField (v : Visiting) (f : Field) : Except PlanError FieldPlan :=
  match Settings.empty.collect v f.attributes with
  | .error e => .error e
  | .ok settings =>
    match settings.lookup? v f.name with
    | .error e => .error e
    | .ok lookup => .ok ⟨f.name, lookup.getD (plainName f.name), Reading.ofType f.type⟩

/-- How a list of declared fields is read; the first fault counts. Each field has its own order of
visiting, by the number of fields that follow it. -/
def FieldPlan.ofFields (visiting : Nat → Visiting) :
    List Field → Except PlanError (List FieldPlan)
  | [] => .ok []
  | f :: rest =>
    match ofField (visiting rest.length) f with
    | .error e => .error e
    | .ok plan => (ofFields visiting rest).map (plan :: ·)

/-- The plan for a declared record, with the maps of its fields visited in given orders. Models
`DeriveExtraction::try_from`. -/
def Plan.derive (visiting : Nat → Visiting) (item : Item) : Except PlanError Plan :=
  if item.attributes.any Attribute.isOurs then .error .attributeOnItem
  else if item.generics ≠ [] then .error .genericItem
  else
    match item.body with
    | .named fields => (FieldPlan.ofFields visiting fields).map (Plan.mk item.name)
    | .tuple => .error .unnamedFields
    | .unit => .error .unnamedFields
    | .enumeration => .error .notStruct
    | .union => .error .notStruct

/-- The plan for a declared record. -/
def Plan.ofItem (item : Item) : Except PlanError Plan :=
  Plan.derive (fun _ => .ascending) item

end Synopsis.Record
