import Synopsis.Match.Error
import Synopsis.Usage

/-!
# Chunks of an argument list

An argument list is cut into chunks: a token that starts with a dash leads a chunk, and the tokens
up to the next such token are its values. The values before the first chunk are the *leading*
values. Cutting loses nothing: the leading values, then each leader with its values, are the
tokens in their order.

Two shorthands are then written out. A *group* such as `-svt` stands for one chunk per letter,
and the values follow the last. A *number* such as `-15` stands for `-n 15`, if `-n` takes a
value. What a shorthand stands for keeps the offset of the token it came from.
-/

namespace Synopsis

/-- A token of an argument list, with its place in the list. Models `OffsetValue`. -/
structure Token where
  offset : Nat
  text : String
deriving DecidableEq, Repr

namespace Token

/-- The tokens from `offset` on. -/
def numberedFrom (offset : Nat) : List String → List Token
  | [] => []
  | text :: rest => ⟨offset, text⟩ :: numberedFrom (offset + 1) rest

/-- The tokens of an argument list. -/
def numbered (texts : List String) : List Token := numberedFrom 0 texts

/-- Whether the token starts with a dash, and so is no value. -/
def isDashed (t : Token) : Bool := t.text.toList.head? = some '-'

end Token

/-- A token that starts with a dash, and the values that follow it. -/
structure Chunk where
  leader : Token
  values : List Token
deriving DecidableEq, Repr

namespace Chunk

/-- The leading values and the chunks of a list of tokens. Models `partition`. -/
def cut : List Token → List Token × List Chunk
  | [] => ([], [])
  | t :: rest =>
    let (values, chunks) := cut rest
    if t.isDashed then ([], ⟨t, values⟩ :: chunks) else (t :: values, chunks)

/-- The tokens of a chunk, in order. -/
def toTokens (c : Chunk) : List Token := c.leader :: c.values

/-- Cutting a list of tokens into chunks keeps every token in its place. -/
theorem cut_toTokens (ts : List Token) :
    (cut ts).1 ++ (cut ts).2.flatMap toTokens = ts := by
  induction ts with
  | nil => rfl
  | cons t ts ih =>
    simp only [cut]
    split <;> simpa [toTokens] using ih

/-- Whether the chunk asks for help. -/
def asksHelp (c : Chunk) : Bool := c.leader.text = "-h" || c.leader.text = "--help"

/-- The letters of a group of short flags: a dash and two or more ASCII letters. -/
def groupLetters? (flag : String) : Option (List Char) :=
  match flag.toList with
  | '-' :: letters =>
    if 2 ≤ letters.length ∧ letters.all Char.isAlpha then some letters else none
  | _ => none

/-- One chunk per letter of a group, with the values at the last. -/
def spread (offset : Nat) (values : List Token) : List Char → List Chunk
  | [] => []
  | [c] => [⟨⟨offset, Flags.shortToken c⟩, values⟩]
  | c :: rest => ⟨⟨offset, Flags.shortToken c⟩, []⟩ :: spread offset values rest

/-- The chunks that a chunk stands for, with groups written out. -/
def expandGroup (usage : Usage) (c : Chunk) : Except Failure (List Chunk) :=
  match groupLetters? c.leader.text with
  | none => .ok [c]
  | some letters =>
    match letters.find? fun letter => (usage.option? (Flags.shortToken letter)).isNone with
    | some letter =>
      let long := "-" ++ c.leader.text
      .error ⟨c.leader.offset, .unknownShorthand letter c.leader.text
        ((usage.option? long).map fun _ => long)⟩
    | none => .ok (spread c.leader.offset c.values letters)

/-- The chunks with groups written out; the first group with an unknown letter is an error. Models
`expand_combined_shorthand`. -/
def expandGroups (usage : Usage) : List Chunk → Except Failure (List Chunk)
  | [] => .ok []
  | c :: rest =>
    match expandGroup usage c with
    | .error failure => .error failure
    | .ok chunks => (expandGroups usage rest).map (chunks ++ ·)

/-- The option that a number stands for. Models `NUMERIC_SHORTHAND`. -/
def numericFlag : String := "-n"

/-- Whether numbers can be written for the option `-n` with a value. -/
def numericAllowed (usage : Usage) : Bool :=
  (usage.option? numericFlag).any fun o => o.placeholder.isSome

/-- The digits of a number: a dash and one or more digits. -/
def numberDigits? (flag : String) : Option (List Char) :=
  match flag.toList with
  | '-' :: digits => if digits ≠ [] ∧ digits.all Char.isDigit then some digits else none
  | _ => none

/-- The chunk with a number written out. -/
def expandNumber (c : Chunk) : Chunk :=
  match numberDigits? c.leader.text with
  | some digits =>
    ⟨⟨c.leader.offset, numericFlag⟩, ⟨c.leader.offset, String.ofList digits⟩ :: c.values⟩
  | none => c

/-- The chunks with numbers written out, if the usage allows them. Models
`expand_numeric_shorthand`. -/
def expandNumbers (usage : Usage) (chunks : List Chunk) : List Chunk :=
  if numericAllowed usage then chunks.map expandNumber else chunks

/-- The first chunk whose leader no option has. Models `reject_unknown_options`. -/
def unknown? (usage : Usage) (chunks : List Chunk) : Option Chunk :=
  chunks.find? fun c => (usage.option? c.leader.text).isNone

end Chunk

end Synopsis
