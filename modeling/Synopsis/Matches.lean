import Synopsis.NameMap
import Synopsis.Value

/-!
# What an argument list says

`Matches` records which options were given and which values are bound to which names. Both are
kept by canonical name, so parameters of one name share one place.
-/

namespace Synopsis

/-- The options that were given and the values that are bound, by canonical name. -/
structure Matches where
  given : NameMap Unit
  arguments : NameMap Value
deriving DecidableEq

namespace Matches

/-- Nothing given and nothing bound. -/
def empty : Matches := ⟨.empty, .empty⟩

/-- Nothing given, and every default bound as text. Models `Matches::seeded`. -/
def ofDefaults (defaults : NameMap String) : Matches := ⟨.empty, defaults.map .text⟩

/-- Record that the option was given. -/
def mark (m : Matches) (name : String) : Matches := { m with given := m.given.insert name () }

/-- Bind a value to the name, in place of any other. Models `Matches::bind`. -/
def set (m : Matches) (name : String) (value : Value) : Matches :=
  { m with arguments := m.arguments.insert name value }

/-- Whether the option was given. Models `Matches::include`. -/
def includes (m : Matches) (name : String) : Bool := m.given.contains name

/-- The value bound to the name. -/
def argument? (m : Matches) (name : String) : Option Value := m.arguments.get? name

/-- The value bound to the name, if it is a text. -/
def text? (m : Matches) (name : String) : Option String :=
  match m.argument? name with
  | some (.text s) => some s
  | _ => none

/-- The value bound to the name, if it is an integer. -/
def integer? (m : Matches) (name : String) : Option Int :=
  match m.argument? name with
  | some (.integer n) => some n
  | _ => none

/-- The value bound to the name, if it is a date. -/
def date? (m : Matches) (name : String) : Option Date :=
  match m.argument? name with
  | some (.date d) => some d
  | _ => none

/-- The value bound to the name, if it is a time. -/
def time? (m : Matches) (name : String) : Option Time :=
  match m.argument? name with
  | some (.time t) => some t
  | _ => none

/-- The value bound to the name, if it is a list. -/
def list? (m : Matches) (name : String) : Option (List String) :=
  match m.argument? name with
  | some (.list items) => some items
  | _ => none

@[simp] theorem includes_mark (m : Matches) (name key : String) :
    (m.mark name).includes key = (decide (name = key) || m.includes key) := by
  by_cases h : name = key <;> simp [mark, includes, NameMap.contains, h]

@[simp] theorem includes_set (m : Matches) (name key : String) (value : Value) :
    (m.set name value).includes key = m.includes key := rfl

@[simp] theorem argument?_mark (m : Matches) (name key : String) :
    (m.mark name).argument? key = m.argument? key := rfl

@[simp] theorem argument?_set (m : Matches) (name key : String) (value : Value) :
    (m.set name value).argument? key = if name = key then some value else m.argument? key := by
  simp [set, argument?]

@[simp] theorem includes_ofDefaults (defaults : NameMap String) (key : String) :
    (ofDefaults defaults).includes key = false := rfl

@[simp] theorem argument?_ofDefaults (defaults : NameMap String) (key : String) :
    (ofDefaults defaults).argument? key = (defaults.get? key).map .text := by
  simp [ofDefaults, argument?]

end Matches

end Synopsis
