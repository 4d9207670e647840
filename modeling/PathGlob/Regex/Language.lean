import PathGlob.Regex.Basic

/-!
# What a regular expression matches

`Regex.Spans t r p q` says that `r` matches the part of the text `t` from position `p` to
position `q`. Positions count the characters before them. An anchor or a lookahead may look at the
text around the part, which is why the whole text is there. `Regex.MatchesIn t r` says that `r`
matches some part of `t`.
-/

namespace PathGlob

/-- The position `p` of `t` is an edge of the given kind. -/
def Edge.At (t : List Char) (p : Nat) : Edge → Prop
  | textStart => p = 0
  | textEnd => p = t.length
  | lineStart => p = 0 ∨ ∃ q, p = q + 1 ∧ t[q]? = some '\n'
  | lineEnd => p = t.length ∨ t[p]? = some '\n'

/-- `R` holds between `p` and `q` by `n` steps. -/
def Steps (R : Nat → Nat → Prop) : Nat → Nat → Nat → Prop
  | 0, p, q => p = q
  | n + 1, p, q => ∃ m, R p m ∧ Steps R n m q

namespace Regex

/-- `r` matches the part of `t` between two positions. -/
def Spans (t : List Char) : Regex → Nat → Nat → Prop
  | empty, p, q => p = q
  | set s, p, q => q = p + 1 ∧ ∃ c, t[p]? = some c ∧ s.contains c = true
  | edge e, p, q => p = q ∧ e.At t p
  | group r, p, q => r.Spans t p q
  | seq a b, p, q => ∃ m, a.Spans t p m ∧ b.Spans t m q
  | alt a b, p, q => a.Spans t p q ∨ b.Spans t p q
  | .times lo hi _ r, p, q => ∃ n, lo ≤ n ∧ (∀ h, hi = some h → n ≤ h) ∧ Steps (r.Spans t) n p q
  | notAhead r, p, q => p = q ∧ ¬ ∃ m, r.Spans t p m

/-- `r` matches some part of `t`. -/
def MatchesIn (t : List Char) (r : Regex) : Prop := ∃ p q, p ≤ t.length ∧ r.Spans t p q

end Regex

end PathGlob
