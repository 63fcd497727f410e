/-!
# Characters of a usage text

Two character classes decide how a usage text is cut up. A *blank* is a character with the
Unicode property `White_Space`; a *word character* is an ASCII letter, an ASCII digit or an
underscore. Trimming removes blanks from one end and nothing else.
-/

namespace Synopsis.Text

/-- Blanks are the characters with the Unicode property `White_Space`. -/
def isBlank (c : Char) : Bool :=
  let n := c.toNat
  (0x09 ≤ n && n ≤ 0x0D) || n == 0x20 || n == 0x85 || n == 0xA0 || n == 0x1680 ||
    (0x2000 ≤ n && n ≤ 0x200A) || n == 0x2028 || n == 0x2029 || n == 0x202F ||
    n == 0x205F || n == 0x3000

/-- Word characters are the ASCII letters, the ASCII digits and the underscore. Models
`is_word_char`. -/
def isWordChar (c : Char) : Bool := c.isAlphanum || c == '_'

/-- Name characters are the word characters and the dash. -/
def isNameChar (c : Char) : Bool := isWordChar c || c == '-'

/-- A name starts with a word character and goes on with word characters and dashes. Models
`is_name`. -/
def isName : List Char → Bool
  | [] => false
  | c :: s => isWordChar c && s.all isNameChar

/-- The canonical spelling of a name: letters in lower case, digits as they are, and an underscore
for everything else. Models `sanitize`. -/
def canonical (s : List Char) : List Char :=
  s.map fun c => if c.isAlphanum then c.toLower else '_'

/-- The text without its leading blanks. -/
def trimStart (s : List Char) : List Char := s.dropWhile isBlank

/-- The text without its trailing blanks. -/
def trimEnd (s : List Char) : List Char := (s.reverse.dropWhile isBlank).reverse

/-- Whether the text consists of blanks only. -/
def allBlank (s : List Char) : Bool := s.all isBlank

theorem length_trimStart_le (s : List Char) : (trimStart s).length ≤ s.length :=
  (List.dropWhile_sublist isBlank).length_le

/-- Trimming stops at the first character that is not blank. -/
theorem isBlank_head_trimStart {s t : List Char} {c : Char} (h : trimStart s = c :: t) :
    isBlank c = false := by
  induction s with
  | nil => simp [trimStart] at h
  | cons d s ih =>
    rw [trimStart, List.dropWhile_cons] at h
    split at h
    · exact ih h
    · next hd => cases h; simpa using hd

end Synopsis.Text
