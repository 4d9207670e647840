import PathGlob.Separator

/-!
# Groups of the extended syntax

An `Operator` written directly before `(` opens a group whose number of occurrences it governs;
inside such a group a bare `(` groups too. `Group.opening` and `Group.closing` are the regex texts
at the two ends of a group.
-/

namespace PathGlob

/-- A character that opens a group when `(` follows it. -/
inductive Operator where
  /-- `?(..)`: at most one occurrence. -/
  | atMostOne
  /-- `*(..)`: any number of occurrences. -/
  | anyNumber
  /-- `+(..)`: at least one occurrence. -/
  | atLeastOne
  /-- `@(..)`: exactly one occurrence. -/
  | exactlyOne
  /-- `!(..)`: no alternative may begin here. -/
  | negated
  deriving DecidableEq, Repr

/-- An open group. -/
inductive Group where
  /-- A group opened by an operator. -/
  | marked (op : Operator)
  /-- A bare `(` inside another group. -/
  | bare
  deriving DecidableEq, Repr

namespace Group

/-- The regex text that opens a group. -/
def opening : Group → List Char
  | marked .negated => ['(', '?', '!']
  | _ => ['(']

/-- The regex text that closes a group. A negated group consumes nothing, so the run of segment
characters that it stands for follows it. -/
def closing (s : Separator) : Group → List Char
  | marked .atMostOne => [')', '?']
  | marked .anyNumber => [')', '*']
  | marked .atLeastOne => [')', '+']
  | marked .exactlyOne => [')', '\x7b', '1', '\x7d']
  | marked .negated => [')', '('] ++ s.nonSeparatorRun ++ [')']
  | bare => [')']

end Group

end PathGlob
