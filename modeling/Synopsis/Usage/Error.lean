/-!
# Errors of a usage text
-/

namespace Synopsis

/-- Why a usage text cannot be used. -/
inductive UsageError where
  /-- No line has the marker `Usage:`. -/
  | missingUsageLine
  /-- Nothing follows the marker. -/
  | missingProgramName
  /-- A token of the usage line is neither an option nor a positional. -/
  | invalidToken (token : String)
  /-- More than one positional takes a run of values. -/
  | multipleRepeated
  /-- There are optional positionals beside one that takes a run of values, so nobody can tell
  which of them a value is for. -/
  | ambiguousArity
  /-- The text could not be obtained at all. -/
  | unreadable (cause : String)
deriving DecidableEq, Repr

/-- The error in words. -/
def UsageError.message : UsageError → String
  | .missingUsageLine => "Expected usage string, got none"
  | .missingProgramName => "Expected program name after 'Usage:', got none"
  | .invalidToken token => "Found invalid usage token '" ++ token ++ "'"
  | .multipleRepeated => "Found more than one dotted arguments"
  | .ambiguousArity => "Found both optional and dotted arguments, cannot tell them apart"
  | .unreadable cause => "Cannot read usage text: " ++ cause

end Synopsis
