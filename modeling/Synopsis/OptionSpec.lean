import Synopsis.Declaration
import Synopsis.NameMap
import Synopsis.Value

/-!
# Options of a usage

Declarations are taken in one after the other. A flag that is declared again belongs to its latest
declaration only, and an option that is left without a flag is gone. The flag table says at which
place of the finished list the option of a flag stands.
-/

namespace Synopsis

/-- An option of the command line. It keeps its canonical name when it loses a flag. Models
`OptionConfig`. -/
structure OptionSpec where
  name : String
  flags : Flags
  placeholder : Option String
deriving DecidableEq, Repr

namespace OptionSpec

/-- The option that a declaration introduces. Models `OptionConfig::new`. -/
def ofDeclaration (d : Declaration) : OptionSpec :=
  ⟨d.flags.canonicalName, d.flags, d.placeholder⟩

/-- The kind of value that the option takes; none if it is a mere switch. -/
def kind? (o : OptionSpec) : Option Kind := o.placeholder.map Kind.ofPlaceholder

/-- The option once the flags that `other` declares are taken away, if a flag is left. -/
def withoutFlags (other : Flags) (o : OptionSpec) : Option OptionSpec :=
  (o.flags.without other).map fun flags => { o with flags }

/-- The options after one more declaration. Models the body of the loop over declarations in
`parse_inner`. -/
def declare (specs : List OptionSpec) (d : Declaration) : List OptionSpec :=
  specs.filterMap (withoutFlags d.flags) ++ [ofDeclaration d]

/-- The options that a list of declarations introduces. -/
def ofDeclarations (ds : List Declaration) : List OptionSpec := ds.foldl declare []

/-- Every flag token of a list of options, with the place of its option in the list. -/
def flagPlaces (specs : List OptionSpec) : List (String × Nat) :=
  specs.zipIdx.flatMap fun (o, place) => o.flags.tokens.map fun flag => (flag, place)

/-- The place of the option that each flag token selects. -/
def flagTable (specs : List OptionSpec) : NameMap Nat := NameMap.empty.insertAll (flagPlaces specs)

end OptionSpec

end Synopsis
