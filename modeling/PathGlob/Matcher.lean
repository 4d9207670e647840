import PathGlob.Regex.Reader
import PathGlob.Regex.Nesting

/-!
# Matchers

A `Matcher` is a regex read from a text under a set of flags. A text matches if the regex matches
some part of it; a search that gives up is an error in `Matcher.verdict` and no match in
`Matcher.accepts`.
-/

namespace PathGlob

/-- What can go wrong with a regex. -/
inductive MatcherError where
  /-- `pattern` is no regex. -/
  | invalid (pattern : String) (reason : RegexError)
  /-- A search for `pattern` gave up. -/
  | gaveUp (pattern : String)
  deriving DecidableEq, Repr

namespace MatcherError

/-- The regex at fault. -/
def pattern : MatcherError → String
  | invalid p _ => p
  | gaveUp p => p

/-- The text of the error. A placeholder stands for the reason. -/
def message : MatcherError → String
  | invalid p _ => "invalid regular expression `" ++ p ++ "`: <engine>"
  | gaveUp p => "matching `" ++ p ++ "` failed: <engine>"

end MatcherError

/-- A regex with its text and its flags. -/
structure Matcher where
  source : String
  flags : Flags
  regex : Regex
  deriving DecidableEq, Repr

namespace Matcher

/-- The matcher with a given text and flags. The flags are set by a group at the head. The text must
be a regex that does not nest too deep. The engine also limits the compiled size of a regex; that
limit is not modelled. -/
def compile (source : String) (flags : Flags) : Except MatcherError Matcher :=
  match Regex.read (flags.inlineGroup ++ source.toList) with
  | .ok regex =>
    if regex.fits then .ok { source, flags, regex } else .error (.invalid source .treeTooDeep)
  | .error reason => .error (.invalid source reason)

/-- Two matchers are alike if they have the same text and the same flags. -/
def alike (a b : Matcher) : Bool := a.source == b.source && a.flags == b.flags

/-- The matcher in literal notation. -/
def toString (m : Matcher) : String := "/" ++ m.source ++ "/" ++ m.flags.toString

/-- The verdict on a text. -/
def verdict (m : Matcher) (t : List Char) : Except MatcherError Bool :=
  if m.regex.givesUp t then .error (.gaveUp m.source) else .ok (m.regex.matchesIn t)

/-- The text matches. -/
def accepts (m : Matcher) (t : List Char) : Bool := !m.regex.givesUp t && m.regex.matchesIn t

theorem accepts_eq_verdict (m : Matcher) (t : List Char) :
    m.accepts t = (match m.verdict t with | .ok b => b | .error _ => false) := by
  unfold accepts verdict
  cases m.regex.givesUp t <;> rfl

end Matcher

end PathGlob
