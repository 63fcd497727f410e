/-!
# Positionals and how many values they take

The usage line declares positionals; each takes one value, at most one value, or a run of one or
more values. A `Bound` says how many values a whole usage line takes, and is put together from
the bounds of its positionals.
-/

namespace Synopsis

/-- How many values a positional takes. -/
inductive Arity where
  /-- Exactly one value. -/
  | required
  /-- At most one value. -/
  | optional
  /-- A run of values, at least one. -/
  | repeated
deriving DecidableEq, Repr

/-- A positional of the usage line, under its canonical name. Models `ArgumentConfig`. -/
structure Argument where
  name : String
  arity : Arity
deriving DecidableEq, Repr

/-- How many values are acceptable. -/
inductive Bound where
  /-- At least `lower` and at most `upper` values. -/
  | range (lower upper : Nat)
  /-- At least `lower` values. -/
  | atLeast (lower : Nat)
deriving DecidableEq, Repr

namespace Bound

/-- The bound of a single positional. Models `Bound::from`. -/
def ofArity : Arity → Bound
  | .required => .range 1 1
  | .optional => .range 0 1
  | .repeated => .atLeast 1

/-- The least acceptable number of values. -/
def lower : Bound → Nat
  | .range lo _ => lo
  | .atLeast lo => lo

/-- The bound of two groups of positionals together. Models `Bound::combine`. -/
def add : Bound → Bound → Bound
  | .range i j, .range k l => .range (i + k) (j + l)
  | .range i _, .atLeast k => .atLeast (i + k)
  | .atLeast i, .range k _ => .atLeast (i + k)
  | .atLeast i, .atLeast k => .atLeast (i + k)

/-- The bound of a list of positionals. -/
def ofArguments (arguments : List Argument) : Bound :=
  arguments.foldl (fun bound a => bound.add (ofArity a.arity)) (.range 0 0)

end Bound

end Synopsis
