import Synopsis.Text.Printable

/-!
# Quoted text

A text in quotes, as programmers expect to see it: the quote and the backslash are escaped, line
ends and tabs have their letters, and a character that cannot be shown is given by its number.
The other kind of quote is left alone.
-/

namespace Synopsis.Text

/-- The quote of texts. -/
def doubleQuote : Char := '"'

/-- The quote of single characters. -/
def singleQuote : Char := Char.ofNat 39

/-- A character by its number, in hexadecimal digits. -/
def byNumber (c : Char) : List Char :=
  ['\\', 'u', '\x7b'] ++ Nat.toDigits 16 c.toNat ++ ['\x7d']

/-- A character as it stands between quotes. -/
def escape (quote c : Char) : List Char :=
  if c = '\x00' then ['\\', '0']
  else if c = '\t' then ['\\', 't']
  else if c = '\r' then ['\\', 'r']
  else if c = '\n' then ['\\', 'n']
  else if c = '\\' ∨ c = quote then ['\\', c]
  else if isShown c then [c]
  else byNumber c

/-- A text in double quotes. -/
def quoted (s : List Char) : List Char :=
  doubleQuote :: s.flatMap (escape doubleQuote) ++ [doubleQuote]

/-- A character in single quotes. -/
def quotedChar (c : Char) : List Char :=
  singleQuote :: escape singleQuote c ++ [singleQuote]

end Synopsis.Text
