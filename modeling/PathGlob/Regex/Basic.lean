import PathGlob.Regex.CharSet

/-!
# Regular expressions

`Regex` is the syntax tree of a regular expression whose flags have been resolved: letters have
become sets of characters, and `^` and `$` have become one of four `Edge`s.
-/

namespace PathGlob

/-- A position in a text that an anchor asks for. -/
inductive Edge where
  | textStart
  | textEnd
  | lineStart
  | lineEnd
  deriving DecidableEq, Repr

/-- A regular expression. -/
inductive Regex where
  /-- Matches the empty text. -/
  | empty
  /-- Matches one character of a set. -/
  | set (s : CharSet)
  /-- Matches the empty text at an edge. -/
  | edge (e : Edge)
  /-- Matches what a parenthesised regex matches. -/
  | group (r : Regex)
  | seq (a b : Regex)
  | alt (a b : Regex)
  /-- Between `lo` and `hi` times in a row, without upper bound if `hi` is `none`. Of several ways
  to match, a `greedy` repetition tries the longer ones first. -/
  | times (lo : Nat) (hi : Option Nat) (greedy : Bool) (r : Regex)
  /-- Matches the empty text where `r` does not match. -/
  | notAhead (r : Regex)
  deriving DecidableEq, Repr

namespace Regex

/-- The regexes of a list, one after the other. -/
def seqs : List Regex → Regex
  | [] => empty
  | [r] => r
  | r :: rs => seq r (seqs rs)

/-- One of the regexes of a list; the empty list counts as one empty regex. -/
def alts : List Regex → Regex
  | [] => empty
  | [r] => r
  | r :: rs => alt r (alts rs)

/-- The regex is a row of two or more parts. -/
def isRow : Regex → Bool
  | seq _ _ => true
  | _ => false

/-- The regex is a choice between two or more branches. -/
def isChoice : Regex → Bool
  | alt _ _ => true
  | _ => false

/-- Some part is a negative lookahead. -/
def looksAhead : Regex → Bool
  | empty | set _ | edge _ => false
  | group r => r.looksAhead
  | seq a b => a.looksAhead || b.looksAhead
  | alt a b => a.looksAhead || b.looksAhead
  | .times _ _ _ r => r.looksAhead
  | notAhead _ => true

/-- The number of characters that every match has, if that is plain from the syntax. -/
def width? : Regex → Option Nat
  | empty | edge _ => some 0
  | set _ => some 1
  | group r => r.width?
  | seq a b => do return (← a.width?) + (← b.width?)
  | alt a b => do
    let m ← a.width?
    let n ← b.width?
    if m = n then some m else none
  | .times lo hi _ r => do
    let m ← r.width?
    if hi = some lo then some (m * lo) else none
  | notAhead _ => some 0

end Regex

end PathGlob
