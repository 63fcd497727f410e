import Synopsis.Match.Positional
import Synopsis.Match.Resolution

/-!
# Matching an argument list

`Usage.fit` fits an argument list to a usage. A request for help wins over everything;
then the first failure of the stages wins, in this order: groups with an unknown letter, unknown
options, options from left to right, the number of positional values.
-/

namespace Synopsis

/-- What an argument list asks for. Models `Action`. -/
inductive Outcome where
  /-- Everything fits. -/
  | complete (found : Matches)
  /-- Show the help message and stop. -/
  | showUsage (message : String)
deriving DecidableEq

/-- Whether two answers of matching are the same. -/
instance Outcome.decidableEqAnswer : DecidableEq (Except Failure Outcome)
  | .ok x, .ok y =>
    if h : x = y then isTrue (h ▸ rfl) else isFalse fun e => h (Except.ok.inj e)
  | .error x, .error y =>
    if h : x = y then isTrue (h ▸ rfl) else isFalse fun e => h (Except.error.inj e)
  | .ok _, .error _ => isFalse nofun
  | .error _, .ok _ => isFalse nofun

namespace Usage

/-- The chunks of an argument list with shorthands written out, all of them led by declared options.
Models `expand_combined_shorthand`, `expand_numeric_shorthand` and `reject_unknown_options` in this
order. -/
def occurrences (usage : Usage) (chunks : List Chunk) : Except Failure (List Chunk) :=
  match Chunk.expandGroups usage chunks with
  | .error failure => .error failure
  | .ok chunks =>
    let chunks := Chunk.expandNumbers usage chunks
    match Chunk.unknown? usage chunks with
    | some c => .error ⟨c.leader.offset, .unknownOption c.leader.text⟩
    | none => .ok chunks

/-- Resolve the options, count the positional values and bind them. Models `resolve_options`,
`validate_arity` and `bind_positionals` in this order. -/
def complete (usage : Usage) (leading : List Token) (chunks : List Chunk) (stop : Nat) :
    Except Failure Matches :=
  match Resolution.run usage ⟨.ofDefaults usage.defaults, leading, none⟩ chunks with
  | .error failure => .error failure
  | .ok r =>
    match Positional.checkCount usage.bound r.pending r.lastValued stop with
    | .error failure => .error failure
    | .ok () => Positional.bind usage r.found r.pending

/-- Fit an argument list, without the program's name, to the usage. Models `match_tokens`. -/
def fit (usage : Usage) (texts : List String) : Except Failure Outcome :=
  let (leading, chunks) := Chunk.cut (Token.numbered texts)
  if chunks.any Chunk.asksHelp then .ok (.showUsage usage.message)
  else
    match usage.occurrences chunks with
    | .error failure => .error failure
    | .ok chunks => (usage.complete leading chunks texts.length).map .complete

end Usage

end Synopsis
