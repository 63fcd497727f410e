/-!
# Lines of a text

A line ends at a line feed or at the end of the text. One carriage return directly before the
line feed belongs to the line end; any other carriage return belongs to the line. A line feed
at the very end of the text opens no further line.
-/

namespace Synopsis.Text

/-- The lines of a text, without their line ends. -/
def lines : List Char → List (List Char)
  | [] => []
  | '\n' :: s => [] :: lines s
  | '\r' :: '\n' :: s => [] :: lines s
  | c :: s =>
    match lines s with
    | [] => [[c]]
    | line :: rest => (c :: line) :: rest

/-- Lines put together with a line feed between each two of them. -/
def joinLines : List (List Char) → List Char
  | [] => []
  | [line] => line
  | line :: rest => line ++ '\n' :: joinLines rest

end Synopsis.Text
