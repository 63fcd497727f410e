/-!
# The name of a program

A program is called by the last part of the path it was started with. Empty parts and parts that
are a single dot do not count, and a path that ends by going up names no program.
-/

namespace Synopsis.Program

/-- The parts of a path between slashes. -/
def parts : List Char → List (List Char)
  | [] => [[]]
  | '/' :: s => [] :: parts s
  | c :: s =>
    match parts s with
    | [] => [[c]]
    | part :: rest => (c :: part) :: rest

/-- The name of the program at a path, if the path names one. Models `executable_name`. -/
def nameOfPath? (path : String) : Option String :=
  match ((parts path.toList).filter fun p => p ≠ [] ∧ p ≠ ['.']).getLast? with
  | none => none
  | some part => if part = ['.', '.'] then none else some (String.ofList part)

end Synopsis.Program
