/-!
# Searching a text

Finding a piece of text and what follows it. Every function returns the remaining text, so a
reader goes on with what is left and never handles positions.
-/

namespace Synopsis.Text

/-- What follows `lead`, when the text starts with it. -/
def after? : (lead text : List Char) → Option (List Char)
  | [], s => some s
  | _ :: _, [] => none
  | c :: lead, d :: s => if c = d then after? lead s else none

/-- What follows the first occurrence of `needle`. -/
def afterFirst? (needle : List Char) : List Char → Option (List Char)
  | [] => after? needle []
  | c :: s => (after? needle (c :: s)).or (afterFirst? needle s)

/-- What follows the last occurrence of `needle`. -/
def afterLast? (needle : List Char) : List Char → Option (List Char)
  | [] => after? needle []
  | c :: s => (afterLast? needle s).or (after? needle (c :: s))

/-- What precedes `tail`, when the text ends with it. -/
def before? (tail text : List Char) : Option (List Char) :=
  (after? tail.reverse text.reverse).map List.reverse

/-- The text starts with `lead` exactly if it is `lead` and then the remainder. -/
theorem after?_eq_some_iff {lead s rest : List Char} :
    after? lead s = some rest ↔ s = lead ++ rest := by
  induction lead generalizing s with
  | nil => simp [after?]
  | cons c lead ih =>
    cases s with
    | nil => simp [after?]
    | cons d s =>
      by_cases h : c = d
      · simp [after?, h, ih]
      · simp [after?, h, Ne.symm h]

/-- The text ends with `tail` exactly if it is the remainder and then `tail`. -/
theorem before?_eq_some_iff {tail s rest : List Char} :
    before? tail s = some rest ↔ s = rest ++ tail := by
  rw [before?, Option.map_eq_some_iff]
  constructor
  · rintro ⟨t, ht, rfl⟩
    rw [after?_eq_some_iff] at ht
    simpa using congrArg List.reverse ht
  · rintro rfl
    exact ⟨rest.reverse, after?_eq_some_iff.2 (by simp), by simp⟩

end Synopsis.Text
