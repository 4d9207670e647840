/-!
# Errors of regex texts
-/

namespace PathGlob

/-- Why a text is no regular expression. -/
inductive RegexError where
  /-- A group is not closed. -/
  | unclosedGroup
  /-- A `)` closes nothing. -/
  | unopenedGroup
  /-- A group begins in a way that has no meaning. -/
  | unknownGroup
  /-- Groups are nested too deep. -/
  | tooDeep
  /-- The syntax tree of a part that is decided in one go nests too deep. -/
  | treeTooDeep
  /-- A bracket class is not closed. -/
  | unclosedClass
  /-- The ends of a range in a bracket class are in the wrong order, or one is no character. -/
  | badRange
  /-- A backslash stands before a letter or digit without meaning, or at the end. -/
  | badEscape
  /-- There is nothing to repeat before a quantifier. -/
  | nothingToRepeat
  /-- The bounds of a repetition are in the wrong order. -/
  | badCount
  deriving DecidableEq, Repr

end PathGlob
