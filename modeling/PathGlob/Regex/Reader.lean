import PathGlob.Regex.Token

/-!
# Reading a regular expression

`Regex.ofTokens` builds a regex from tokens with a stack of open groups, and `Regex.read` reads a
regex from text. A text may set its flags by a group such as `(?im)` at its head.

Groups may be nested up to `Regex.maxDepth` deep. A quantifier repeats the set or the group right
before it, and nothing else: no anchor, no lookahead and no repetition.
-/

namespace PathGlob

namespace Regex

/-- How deep groups may be nested. -/
def maxDepth : Nat := 63

/-- A group that is open, or the whole regex. -/
structure Frame where
  /-- The group is a negative lookahead. -/
  negated : Bool := false
  /-- The branches that are complete, last one first. -/
  branches : List Regex := []
  /-- The parts of the current branch, last one first. -/
  parts : List Regex := []
  deriving DecidableEq, Repr

namespace Frame

/-- The current branch. -/
def branch (k : Frame) : Regex := seqs k.parts.reverse

/-- What the branches make together. -/
def body (k : Frame) : Regex := alts (k.branch :: k.branches).reverse

/-- The group as a part of the group around it. -/
def close (k : Frame) : Regex := if k.negated then notAhead k.body else group k.body

/-- Adds a part to the current branch. -/
def add (k : Frame) (r : Regex) : Frame := { k with parts := r :: k.parts }

/-- Begins a new branch. -/
def split (k : Frame) : Frame := { k with branches := k.branch :: k.branches, parts := [] }

/-- Repeats the last part of the current branch. -/
def repeatLast (k : Frame) (lo : Nat) (hi : Option Nat) (greedy : Bool) :
    Except RegexError Frame :=
  match k.parts with
  | r :: rs =>
    match r with
    | set _ | group _ => .ok { k with parts := .times lo hi greedy r :: rs }
    | _ => .error .nothingToRepeat
  | [] => .error .nothingToRepeat

end Frame

/-- The groups that are open, innermost first, and the regex around them. -/
structure Frames where
  inner : Frame := {}
  outer : List Frame := []
  deriving DecidableEq, Repr

namespace Frames

/-- Changes the innermost group. -/
def modify (s : Frames) (g : Frame → Frame) : Frames := { s with inner := g s.inner }

/-- Opens a group. -/
def openGroup (s : Frames) (negated : Bool) : Except RegexError Frames :=
  if s.outer.length < maxDepth then .ok { inner := { negated }, outer := s.inner :: s.outer }
  else .error .tooDeep

/-- Closes the innermost group. -/
def close (s : Frames) : Except RegexError Frames :=
  match s.outer with
  | [] => .error .unopenedGroup
  | k :: ks => .ok { inner := k.add s.inner.close, outer := ks }

/-- Takes in a token. -/
def step (s : Frames) : Token → Except RegexError Frames
  | .set a => .ok (s.modify (·.add (set a)))
  | .edge e => .ok (s.modify (·.add (edge e)))
  | .openGroup => s.openGroup false
  | .openNotAhead => s.openGroup true
  | .close => s.close
  | .bar => .ok (s.modify Frame.split)
  | .count lo hi greedy =>
    if hi.any (· < lo) then .error .badCount
    else (s.inner.repeatLast lo hi greedy).map fun k => { s with inner := k }

/-- Takes in tokens one after the other. -/
def steps (s : Frames) : List Token → Except RegexError Frames
  | [] => .ok s
  | t :: ts => (s.step t).bind (steps · ts)

/-- The regex at the end of the tokens. -/
def finish (s : Frames) : Except RegexError Regex :=
  match s.outer with
  | [] => .ok s.inner.body
  | _ :: _ => .error .unclosedGroup

end Frames

/-- The regex with given tokens. -/
def ofTokens (ts : List Token) : Except RegexError Regex :=
  (Frames.steps {} ts).bind Frames.finish

/-- Splits the group that sets flags off the front of a regex text. -/
def readFlags (cs : List Char) : Flags × List Char :=
  match cs with
  | '(' :: '?' :: rest =>
    let letters := rest.takeWhile fun c => c == 'i' || c == 'm' || c == 's'
    match letters, rest.drop letters.length, Flags.ofLetters letters with
    | _ :: _, ')' :: rest, .ok f => (f, rest)
    | _, _, _ => ({}, cs)
  | _ => ({}, cs)

/-- The regex that a text denotes. -/
def read (cs : List Char) : Except RegexError Regex :=
  let (f, rest) := readFlags cs
  (Token.read f rest).bind ofTokens

end Regex

end PathGlob
