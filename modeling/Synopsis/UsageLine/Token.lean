import Synopsis.Text.Blank

/-!
# Tokens of the usage line

What follows the marker `Usage:` is cut into tokens. A token is a group from an opening bracket
to the first closing one, blanks included, or else a word up to the next blank. A bracket that is
never closed starts a word like any other character.
-/

namespace Synopsis.UsageLine

/-- Cut off the token that starts with the character `c`: the rest of it, and what follows. -/
def cut (c : Char) (s : List Char) : List Char × List Char :=
  if c = '[' ∧ ']' ∈ s then
    (s.takeWhile (· != ']') ++ [']'], (s.dropWhile (· != ']')).drop 1)
  else
    (s.takeWhile fun d => !Text.isBlank d, s.dropWhile fun d => !Text.isBlank d)

theorem length_cut_le (c : Char) (s : List Char) : (cut c s).2.length ≤ s.length := by
  have h₁ := (List.dropWhile_sublist (l := s) (· != ']')).length_le
  have h₂ := (List.dropWhile_sublist (l := s) fun d => !Text.isBlank d).length_le
  rw [cut]
  split
  · simp only [List.length_drop]; omega
  · exact h₂

/-- What follows a token is shorter than what it was cut from. -/
theorem length_cut_lt {line s : List Char} {c : Char} (h : Text.trimStart line = c :: s) :
    (cut c s).2.length < line.length := by
  have h₁ := Text.length_trimStart_le line
  have h₂ := length_cut_le c s
  rw [h, List.length_cons] at h₁
  omega

/-- The tokens of a line, in order. Models `usage_tokens`. -/
def tokens (line : List Char) : List (List Char) :=
  match h : Text.trimStart line with
  | [] => []
  | c :: s =>
    have := length_cut_lt h
    (c :: (cut c s).1) :: tokens (cut c s).2
termination_by line.length

end Synopsis.UsageLine
