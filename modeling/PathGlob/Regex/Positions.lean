/-!
# Sets of positions

A set of positions in a text is a bit mask: position `p` is in `k` when `k.testBit p`. The
positions of a text of length `n` are `0`, ..., `n`.
-/

namespace PathGlob

/-- A set of positions in a text. -/
abbrev Positions := Nat

namespace Positions

/-- One position. -/
def single (p : Nat) : Positions := 1 <<< p

/-- All positions of a text of length `n`. -/
def upTo (n : Nat) : Positions := 1 <<< (n + 1) - 1

/-- `k` without the positions of `l`. -/
def diff (k l : Positions) : Positions := k ^^^ (k &&& l)

/-- The positions of the characters with a given property. -/
def ofChars (p : Char → Bool) : List Char → Positions
  | [] => 0
  | c :: cs => 2 * ofChars p cs + (p c).toNat

@[simp] theorem testBit_single (q p : Nat) : (single q).testBit p = decide (q = p) := by
  rw [single, Nat.one_shiftLeft, Nat.testBit_two_pow]

@[simp] theorem testBit_upTo (n p : Nat) : (upTo n).testBit p = decide (p ≤ n) := by
  rw [upTo, Nat.one_shiftLeft, Nat.testBit_two_pow_sub_one]
  exact decide_eq_decide.2 Nat.lt_succ_iff

@[simp] theorem testBit_diff (k l : Positions) (p : Nat) :
    (diff k l).testBit p = (k.testBit p && !l.testBit p) := by
  rw [diff, Nat.testBit_xor, Nat.testBit_and]
  cases k.testBit p <;> cases l.testBit p <;> rfl

theorem testBit_ofChars (f : Char → Bool) (cs : List Char) (p : Nat) :
    (ofChars f cs).testBit p = cs[p]?.any f := by
  induction cs generalizing p with
  | nil => simp [ofChars]
  | cons c cs ih =>
    cases p with
    | zero => cases h : f c <;> simp [ofChars, h]
    | succ p =>
      rw [ofChars, Nat.testBit_succ, List.getElem?_cons_succ, ← ih p]
      congr 1
      cases f c
      · simp
      · simp; omega

/-! ### Closure -/

/-- Adds to `seen` all that `step` reaches from it, if `step` has been taken already from all of
`seen` but the `fresh` part, and if no more than `fuel` rounds bring something new. -/
def closureFrom (step : Positions → Positions) : Nat → Positions → Positions → Positions
  | 0, seen, _ => seen
  | fuel + 1, seen, fresh =>
    let new := diff (step fresh) seen
    if new = 0 then seen else closureFrom step fuel (seen ||| new) new

/-- All that `step` reaches from `k` among the positions of a text of length `n`, in any number
of rounds. -/
def closure (step : Positions → Positions) (n : Nat) (k : Positions) : Positions :=
  closureFrom step (n + 1) k k

/-- All that `step` reaches from `k` in at most `m` rounds. -/
def within (step : Positions → Positions) : Nat → Positions → Positions
  | 0, k => k
  | m + 1, k => k ||| step (within step m k)

/-- What `step` reaches from `k` in exactly `m` rounds. -/
def after (step : Positions → Positions) : Nat → Positions → Positions
  | 0, k => k
  | m + 1, k => step (after step m k)

end Positions

end PathGlob
