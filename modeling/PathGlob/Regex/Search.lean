import PathGlob.Regex.Basic
import PathGlob.Regex.Positions

/-!
# Searching a text

Whether a regex matches somewhere in a text is decided with sets of positions, from the right to
the left: `Probe.starts r k` is the set of all positions from which `r` matches up to some position
in `k`. Each operator of a regex is an operation on such sets, so the work grows with the product
of the sizes of the regex and the text, and backtracking never occurs.

* `Regex.probe` places a regex in a text: a `Probe` is a regex whose character sets and edges have
  become the sets of positions where they hold;
* `Regex.matchesIn` decides whether a regex matches some part of a text.
-/

namespace PathGlob

/-- A regex placed in a text. -/
inductive Probe where
  /-- Matches the empty text at some positions. -/
  | stay (places : Positions)
  /-- Matches the one character after some positions. -/
  | advance (places : Positions)
  | seq (a b : Probe)
  | alt (a b : Probe)
  | times (lo : Nat) (hi : Option Nat) (r : Probe)
  | notAhead (r : Probe)
  deriving DecidableEq, Repr

namespace Probe

/-- The positions from which a probe in a text of length `n` matches up to a position in `k`. -/
def starts (n : Nat) : Probe → Positions → Positions
  | stay m, k => m &&& k
  | advance m, k => m &&& (k >>> 1)
  | seq a b, k => a.starts n (b.starts n k)
  | alt a b, k => a.starts n k ||| b.starts n k
  | .times lo none r, k => Positions.after (r.starts n) lo (Positions.closure (r.starts n) n k)
  | .times lo (some hi) r, k =>
    Positions.after (r.starts n) lo (Positions.within (r.starts n) (hi - lo) k)
  | notAhead r, k => Positions.diff k (r.starts n (Positions.upTo n))

end Probe

/-- The positions of a text that are edges of a given kind. -/
def Edge.positions (t : List Char) : Edge → Positions
  | textStart => Positions.single 0
  | textEnd => Positions.single t.length
  | lineStart => Positions.single 0 ||| (Positions.ofChars (· == '\n') t <<< 1)
  | lineEnd => Positions.ofChars (· == '\n') t ||| Positions.single t.length

namespace Regex

/-- The regex placed in a text. -/
def probe (t : List Char) : Regex → Probe
  | empty => .stay (Positions.upTo t.length)
  | set s => .advance (Positions.ofChars s.contains t)
  | edge e => .stay (e.positions t)
  | group r => r.probe t
  | seq a b => .seq (a.probe t) (b.probe t)
  | alt a b => .alt (a.probe t) (b.probe t)
  | .times lo hi _ r => .times lo hi (r.probe t)
  | notAhead r => .notAhead (r.probe t)

/-- The positions of a text from which the regex matches. -/
def starts (t : List Char) (r : Regex) : Positions :=
  (r.probe t).starts t.length (Positions.upTo t.length)

/-- The regex matches some part of a text. -/
def matchesIn (t : List Char) (r : Regex) : Bool := r.starts t != 0

end Regex

end PathGlob
