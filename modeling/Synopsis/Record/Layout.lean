import Synopsis.Extract
import Synopsis.Record.Plan

/-!
# Reading records

A *layout* is a plan together with a reader for each field, which knows the type of the field's
values. Reading a record by its layout reads the fields in declared order, and the first field
that fails decides the error.

The values of all fields are of one type `α` here, which stands for the types of the fields taken
together. It is that of scalars in `Layout`, `Content` and `Instance`.
-/

namespace Synopsis.Record

/-- A field's plan, and how the values it holds are read. A switch holds none. -/
structure Slot (α : Type) extends FieldPlan where
  reader : Reader α

/-- A record type that can be read, with fields that hold values of type `α`. -/
structure LayoutOf (α : Type) where
  name : String
  slots : List (Slot α)

/-- The content of a field that holds values of type `α`. -/
inductive ContentOf (α : Type) where
  | switch (given : Bool)
  | optional (value : Option α)
  | collection (values : List α)
  | scalar (value : α)
deriving DecidableEq

/-- A record: the contents of its fields, by name. -/
structure InstanceOf (α : Type) where
  name : String
  fields : List (String × ContentOf α)
deriving DecidableEq

variable {α : Type}

/-- The plan that the layout follows. -/
def LayoutOf.plan (l : LayoutOf α) : Plan := ⟨l.name, l.slots.map Slot.toFieldPlan⟩

/-- Read a field. -/
def Slot.read (s : Slot α) (m : Matches) : Except ExtractError (ContentOf α) :=
  match s.reading with
  | .switch => .ok (.switch (m.includes s.lookup))
  | .optional => (m.extract s.reader s.lookup).map .optional
  | .collection => (m.extractAll s.reader s.lookup).map .collection
  | .scalar => (m.require s.reader s.lookup).map .scalar

/-- Read fields from left to right, up to the first that fails. -/
def readSlots (m : Matches) :
    List (Slot α) → Except ExtractError (List (String × ContentOf α))
  | [] => .ok []
  | s :: rest =>
    match s.read m with
    | .error e => .error e
    | .ok content => (readSlots m rest).map ((s.field, content) :: ·)

/-- Read a record. Models `from_matches`, as it is generated. -/
def LayoutOf.read (l : LayoutOf α) (m : Matches) : Except ExtractError (InstanceOf α) :=
  (readSlots m l.slots).map (InstanceOf.mk l.name)

/-- A record type with fields that hold scalars. -/
abbrev Layout := LayoutOf Scalar

/-- The content of a field that holds scalars. -/
abbrev Content := ContentOf Scalar

/-- A record of scalars. -/
abbrev Instance := InstanceOf Scalar

end Synopsis.Record
