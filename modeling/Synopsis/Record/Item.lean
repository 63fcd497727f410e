/-!
# Record declarations

An *item* is the declaration of a type whose values may be read from matches. Only a struct with
named fields can be; the other shapes are told apart to report them. Fields and items carry
attributes, and the arguments of an attribute are expressions. A list of arguments may stand in any
kind of brackets.
-/

namespace Synopsis.Record

/-- An expression, as far as attributes tell expressions apart. -/
inductive Expr where
  /-- A single identifier. -/
  | identifier (name : String)
  /-- A path that is more than an identifier. -/
  | path
  /-- A string literal, by its value. -/
  | text (value : String)
  /-- Anything else. -/
  | other
deriving DecidableEq, Repr

/-- An argument of an attribute. -/
inductive Argument where
  /-- An assignment `key = value`. -/
  | assign (key value : Expr)
  /-- An expression that is no assignment. -/
  | lone (expr : Expr)
deriving DecidableEq, Repr

/-- The brackets around a list. -/
inductive Delimiter where
  | parenthesis
  | bracket
  | brace
deriving DecidableEq, Repr

/-- What follows the path of an attribute. -/
inductive AttributeBody where
  /-- Nothing. -/
  | bare
  /-- A value after an equals sign. -/
  | value (value : Expr)
  /-- A list of arguments. -/
  | arguments (delimiter : Delimiter) (args : List Argument)
  /-- A list that does not read as expressions with commas between them, and what is wrong with
  it. -/
  | unreadable (delimiter : Delimiter) (reason : String)
deriving DecidableEq, Repr

/-- An attribute of a field or an item. -/
structure Attribute where
  path : Expr
  body : AttributeBody
deriving DecidableEq, Repr

/-- The type of a field, as far as reading a field depends on it. -/
inductive FieldType where
  /-- A path, by the identifier of its last segment. -/
  | path (last : String)
  /-- Anything else. -/
  | other
deriving DecidableEq, Repr

/-- A named field. -/
structure Field where
  /-- The name as it is written, with the mark of a raw identifier if it has one. -/
  name : String
  type : FieldType
  attributes : List Attribute
deriving DecidableEq, Repr

/-- What kind of type an item declares. -/
inductive Body where
  | named (fields : List Field)
  | tuple
  | unit
  | enumeration
  | union
deriving DecidableEq, Repr

/-- The declaration of a type. -/
structure Item where
  name : String
  /-- The type's parameters, as they are written. -/
  generics : List String
  attributes : List Attribute
  body : Body
deriving DecidableEq, Repr

end Synopsis.Record
