import PathGlob.Flags

/-!
# Refused command lines
-/

namespace PathGlob

/-- Why a command line is refused. -/
inductive Refusal where
  /-- There is no verb. -/
  | noVerb
  /-- A word is no verb. -/
  | unknownVerb (word : String)
  /-- A word has no place: an option that is none, or one operand too many. -/
  | unknownArgument (word : String)
  /-- A switch has a value. -/
  | unneededValue (name : String)
  /-- An option is given twice. -/
  | repeated (name : String)
  /-- Two switches exclude each other. -/
  | exclusive (name other : String)
  /-- `--flags` has no value. -/
  | missingValue
  /-- The value of `--flags` is no set of flags. -/
  | badFlags (e : FlagError)
  /-- There is no glob. -/
  | noGlob
  deriving DecidableEq, Repr

/-- The text of the refusal. -/
def Refusal.message : Refusal → String
  | noVerb => "a subcommand is required"
  | unknownVerb w => "unrecognized subcommand '" ++ w ++ "'"
  | unknownArgument w => "unexpected argument '" ++ w ++ "'"
  | unneededValue n => "unexpected value for '--" ++ n ++ "'"
  | repeated n => "'--" ++ n ++ "' cannot be used multiple times"
  | exclusive n m => "'--" ++ n ++ "' cannot be used with '--" ++ m ++ "'"
  | missingValue => "a value is required for '--flags'"
  | badFlags e => "invalid value for '--flags': " ++ e.message
  | noGlob => "a glob is required"

end PathGlob
