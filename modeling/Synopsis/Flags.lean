import Synopsis.Text.Blank

/-!
# Flags of an option

An option is selected by a short flag, by a long flag or by either of two. There is always at
least one, so every option has a canonical name.
-/

namespace Synopsis

/-- The flags that select an option, without their dashes. -/
inductive Flags where
  | short (letter : Char)
  | long (name : String)
  | both (letter : Char) (name : String)
deriving DecidableEq, Repr

namespace Flags

/-- The letter of the short flag. -/
def short? : Flags → Option Char
  | .short c => some c
  | .long _ => none
  | .both c _ => some c

/-- The name of the long flag. -/
def long? : Flags → Option String
  | .short _ => none
  | .long l => some l
  | .both _ l => some l

/-- The flags with the given short and long forms, if there is one at all. -/
def ofForms? : Option Char → Option String → Option Flags
  | none, none => none
  | some c, none => some (.short c)
  | none, some l => some (.long l)
  | some c, some l => some (.both c l)

/-- The token of a short flag. -/
def shortToken (c : Char) : String := String.ofList ['-', c]

/-- The token of a long flag. -/
def longToken (l : String) : String := "--" ++ l

/-- The tokens that select the option, the short one first. Models `OptionConfig::flags`. -/
def tokens : Flags → List String
  | .short c => [shortToken c]
  | .long l => [longToken l]
  | .both c l => [shortToken c, longToken l]

/-- The canonical name, from the long flag if there is one. Models the name in `OptionConfig::new`.
-/
def canonicalName : Flags → String
  | .short c => String.ofList (Text.canonical [c])
  | .long l => String.ofList (Text.canonical l.toList)
  | .both _ l => String.ofList (Text.canonical l.toList)

/-- A form that the other side does not have as well. -/
def keep {α : Type} [DecidableEq α] (mine other : Option α) : Option α :=
  if mine = other then none else mine

/-- What is left of the flags once `other` has taken those that it declares too. Models
`OptionConfig::release`. -/
def without (flags other : Flags) : Option Flags :=
  ofForms? (keep flags.short? other.short?) (keep flags.long? other.long?)

@[simp] theorem ofForms?_self (f : Flags) : ofForms? f.short? f.long? = some f := by
  cases f <;> rfl

end Flags

end Synopsis
