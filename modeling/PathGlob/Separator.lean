/-!
# Path separators

A `Separator` is a convention for writing paths: `/` alone, or `\` with `/` accepted beside it.
The regex texts for one separator, for a run of other characters and for any number of whole path
segments are all built from the escaped separator character `Separator.escaped`.
-/

namespace PathGlob

/-- A path separator convention. -/
inductive Separator where
  /-- `/` separates segments. -/
  | posix
  /-- `\` separates segments, and a `/` in a glob is read as `\`. -/
  | windows
  deriving DecidableEq, Repr, Inhabited

namespace Separator

/-- The convention of the host. -/
def host : Separator := posix

/-- The convention chosen by a switch for `windows`. -/
def ofWindows (on : Bool) : Separator := if on then windows else posix

/-- The name of the convention. -/
def name : Separator → String
  | posix => "posix"
  | windows => "windows"

/-- The separator character of a glob. -/
def char : Separator → Char
  | posix => '/'
  | windows => '\\'

/-- The regex for the separator character. -/
def escaped (s : Separator) : List Char := ['\\', s.char]

/-- The regex for one separator of a path; under `windows` a run of `\` counts as one. -/
def token : Separator → List Char
  | posix => posix.escaped
  | windows => windows.escaped ++ ['+']

/-- The regex for any run of characters within one segment. -/
def nonSeparatorRun (s : Separator) : List Char := ['[', '^'] ++ s.escaped ++ [']', '*']

/-- The regex for any number of whole segments, each with the separator after it. -/
def globstar (s : Separator) : List Char :=
  ['(', '(', '?', ':'] ++ s.nonSeparatorRun ++ ['(', '?', ':'] ++ s.escaped ++
    ['|', '$', ')', ')', '*', ')']

/-- Whether a path splits at `c`. -/
def splits : Separator → Char → Bool
  | posix, c => c == '/'
  | windows, c => c == '\\' || c == '/'

/-- A glob with its separators written as `Separator.char`. -/
def normalize : Separator → List Char → List Char
  | posix, cs => cs
  | windows, cs => cs.map fun c => if c = '/' then '\\' else c

end Separator

end PathGlob
