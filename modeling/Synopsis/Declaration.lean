import Synopsis.Flags
import Synopsis.Text.Search

/-!
# Option declarations

A declaration introduces an option: its flags, the placeholder of its value and its default. It
stands on a line of its own or in brackets on the usage line.

* A short flag is a dash and one word character, followed by a blank, a comma or the end.
* A long flag is two dashes and a name.
* A placeholder is a word that follows its flag after exactly one space. A wider gap separates
  the flag from its description.
* A default is the word in the last `(default WORD)` or `(default: WORD)` of the description.
-/

namespace Synopsis

/-- An option as it is declared. -/
structure Declaration where
  flags : Flags
  placeholder : Option String
  defaultValue : Option String
deriving DecidableEq, Repr

namespace Declaration

/-- The placeholder at the start of a text, and what follows it. Models `flag_placeholder`. -/
def placeholder? : List Char → Option String × List Char
  | ' ' :: s =>
    match s.takeWhile Text.isWordChar with
    | [] => (none, ' ' :: s)
    | word => (some (String.ofList word), s.dropWhile Text.isWordChar)
  | s => (none, s)

/-- Whether a short flag can end before this text. -/
def endsFlag : List Char → Bool
  | [] => true
  | c :: _ => Text.isBlank c || c == ','

/-- A short flag and its placeholder at the start of a text, and what follows them. Models
`short_flag`. -/
def shortFlag? : List Char → Option (Char × Option String × List Char)
  | '-' :: c :: s =>
    if Text.isWordChar c && endsFlag s then some (c, placeholder? s) else none
  | _ => none

/-- A long flag and its placeholder at the start of a text, and what follows them. -/
def longFlag? : List Char → Option (String × Option String × List Char)
  | '-' :: '-' :: c :: s =>
    if Text.isWordChar c then
      some (String.ofList (c :: s.takeWhile Text.isNameChar),
        placeholder? (s.dropWhile Text.isNameChar))
    else none
  | _ => none

/-- The text without a colon at its start. -/
def skipColon : List Char → List Char
  | ':' :: s => s
  | s => s

/-- The text without a comma at its start, which blanks may precede. -/
def skipComma (s : List Char) : List Char :=
  match Text.trimStart s with
  | ',' :: t => t
  | _ => s

/-- The mark that opens a default. -/
def defaultMark : List Char := "(default".toList

/-- The word of a default annotation, given what follows its mark. -/
def annotated? (s : List Char) : Option String :=
  let inside := skipColon s
  if inside.head?.any Text.isBlank then
    let s := Text.trimStart inside
    let isValueChar := fun c => !(Text.isBlank c || c == ')')
    match s.takeWhile isValueChar, s.dropWhile isValueChar with
    | [], _ => none
    | word, ')' :: _ => some (String.ofList word)
    | _, _ => none
  else none

/-- The default in a description. Only the last annotation counts. Models `default_annotation`. -/
def default? (s : List Char) : Option String :=
  (Text.afterLast? defaultMark s).bind annotated?

/-- The short flag that may follow a long one after a comma, and what follows it. -/
def shortAfterLong? : List Char → Option (Char × Option String × List Char)
  | ',' :: s => shortFlag? (Text.trimStart s)
  | _ => none

/-- Read a declaration. Nothing is declared unless the text starts with a flag. If both flags have a
placeholder, the one of the flag listed last counts. Models `declaration`. -/
def read? (text : List Char) : Option Declaration :=
  let s := Text.trimStart text
  match longFlag? s with
  | some (name, word, rest) =>
    match shortAfterLong? rest with
    | some (letter, word', rest) => some ⟨.both letter name, word'.or word, default? rest⟩
    | none => some ⟨.long name, word, default? rest⟩
  | none =>
    match shortFlag? s with
    | some (letter, word, rest) =>
      let rest := Text.trimStart (skipComma rest)
      match longFlag? rest with
      | some (name, word', rest) => some ⟨.both letter name, word'.or word, default? rest⟩
      | none => some ⟨.short letter, word, default? rest⟩
    | none => none

/-- Whether a line looks like a declaration: one or two dashes and then a word character. Models
`is_declaration_line`. -/
def startsWithFlag (line : List Char) : Bool :=
  match Text.trimStart line with
  | '-' :: '-' :: s => s.head?.any Text.isWordChar
  | '-' :: s => s.head?.any Text.isWordChar
  | _ => false

end Declaration

end Synopsis
