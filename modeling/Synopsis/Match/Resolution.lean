import Synopsis.Match.Chunk
import Synopsis.Matches

/-!
# Resolving options

Each chunk marks its option as given; an option that takes a value takes the first value of its
chunk. Values that a chunk leaves over are positional values, which only the last chunk may have.
-/

namespace Synopsis

/-- Where the resolution of options stands. -/
structure Resolution where
  found : Matches
  /-- The values that no option has taken. -/
  pending : List Token
  /-- The flag of the last option, if it took a value. -/
  lastValued : Option String

namespace Resolution

/-- Mark the option of a chunk and bind its value. -/
def settle (usage : Usage) (found : Matches) (c : Chunk) : Except Failure Resolution :=
  match usage.option? c.leader.text with
  | none =>
    .error ⟨c.leader.offset,
      .internalInconsistency ("undeclared option '" ++ c.leader.text ++ "'")⟩
  | some spec =>
    let found := found.mark spec.name
    match spec.kind? with
    | none => .ok ⟨found, c.values, none⟩
    | some kind =>
      match c.values with
      | [] => .error ⟨c.leader.offset, .missingOptionValue c.leader.text⟩
      | v :: rest =>
        match kind.coerce? v.text with
        | none => .error ⟨v.offset, .invalidTypedValue v.text c.leader.text kind⟩
        | some value => .ok ⟨found.set spec.name value, rest, some c.leader.text⟩

/-- Take in one more chunk. No value may be left over from before. Models the body of the loop in
`resolve_options`. -/
def step (usage : Usage) (r : Resolution) (c : Chunk) : Except Failure Resolution :=
  match r.pending with
  | v :: _ => .error ⟨v.offset, .argumentsBeforeOption c.leader.text⟩
  | [] => settle usage r.found c

/-- Take in chunks from left to right; the first failure ends it. Models `resolve_options`. -/
def run (usage : Usage) (r : Resolution) : List Chunk → Except Failure Resolution
  | [] => .ok r
  | c :: rest =>
    match step usage r c with
    | .error failure => .error failure
    | .ok r => run usage r rest

end Resolution

end Synopsis
