import PathGlob.Regex.Search

/-!
# Giving up

A regex with a lookahead is matched by backtracking around the lookahead, with a limit on the
number of times that a choice is taken back. A search that passes the limit gives up. This module
says when that happens; what a search that does not give up answers is the business of
`Regex.matchesIn`.

A part without lookahead is decided in one go if nothing has to be tried after it: because it has
a fixed width, or because the search ends with it. A `Plan` says which parts of a regex in a text
are decided so (`Plan.jump`, `Plan.rest`) and how the others are tried in turn.
-/

namespace PathGlob

/-- How a regex is tried in a text. -/
inductive Plan where
  /-- Matches from some positions, with a fixed width. -/
  | jump (places : Positions) (width : Nat)
  /-- Matches from some positions, and the search ends here. -/
  | rest (places : Positions)
  | seq (a b : Plan)
  | alt (a b : Plan)
  | times (lo : Nat) (hi : Option Nat) (greedy : Bool) (r : Plan)
  | notAhead (r : Plan)
  deriving DecidableEq, Repr

/-- What a search by backtracking comes to, with the number of choices that it could still take
back. -/
inductive Trial where
  | found (left : Nat)
  | failed (left : Nat)
  | gaveUp
  deriving DecidableEq, Repr

namespace Trial

/-- After a failure, takes a choice back and tries the other way. -/
def orElse (o : Trial) (other : Nat → Trial) : Trial :=
  match o with
  | failed 0 => gaveUp
  | failed (left + 1) => other left
  | o => o

/-- The trial of a part that must not match. -/
def negate (o : Trial) (next : Nat → Trial) : Trial :=
  match o with
  | found left => failed left
  | failed 0 => gaveUp
  | failed (left + 1) => next left
  | gaveUp => gaveUp

end Trial

namespace Plan

/-- Tries `body` again and again, at least `lo` and at most `hi` times, after `done` times up to
the position `p`. An unbounded repetition does not go on after a match of the empty text. The fuel
bounds the number of further times. -/
def loop (body : (Nat → Nat → Trial) → Nat → Nat → Trial) (lo : Nat) (hi : Option Nat)
    (greedy : Bool) (next : Nat → Nat → Trial) : Nat → Nat → Nat → Nat → Trial
  | 0, _, p, left => next p left
  | fuel + 1, done, p, left =>
    let more := body (fun q left =>
      if hi = none ∧ lo ≤ done ∧ q = p then .failed left
      else loop body lo hi greedy next fuel (done + 1) q left) p
    if hi = some done then next p left
    else if done < lo then more left
    else if greedy then (more left).orElse (next p)
    else (next p left).orElse more

/-- Tries a plan in a text of length `n` from the position `p`, with `left` choices that may be
taken back, and goes on with `next`. -/
def run (n : Nat) : Plan → (Nat → Nat → Trial) → Nat → Nat → Trial
  | jump m width, next, p, left => if m.testBit p then next (p + width) left else .failed left
  | rest m, _, p, left => if m.testBit p then .found left else .failed left
  | seq a b, next, p, left => a.run n (b.run n next) p left
  | alt a b, next, p, left => (a.run n next p left).orElse (b.run n next p)
  | .times lo hi greedy r, next, p, left =>
    loop (r.run n) lo hi greedy next (hi.getD (lo + n + 1)) 0 p left
  | notAhead r, next, p, left => (r.run n (fun _ left => .found left) p left).negate (next p)

/-- Tries a plan in a text of length `n` from each of the last `m + 1` positions in turn. -/
def search (n : Nat) (r : Plan) : Nat → Nat → Trial
  | 0, left => r.run n (fun _ left => .found left) n left
  | m + 1, left =>
    (r.run n (fun _ left => .found left) (n - (m + 1)) left).orElse (r.search n m)

end Plan

namespace Regex

/-- A part without lookahead and of a fixed width. -/
def fixedWidth? (r : Regex) : Option Nat := if r.looksAhead then none else r.width?

/-- Where a part of a regex stands. -/
structure Place where
  /-- The search ends with the part. -/
  last : Bool
  /-- The part is the end of a row of parts. -/
  inRow : Bool := false
  /-- The row has begun with a part that is not decided in one go. -/
  begun : Bool := false
  /-- The part is the end of a choice. -/
  inChoice : Bool := false
  deriving DecidableEq, Repr

/-- The part is decided in one go, whatever its width: the search ends with it, and it is no row of
alternatives that are left of a choice. -/
def Place.decides (place : Place) (r : Regex) : Bool :=
  place.last && !r.looksAhead && !(place.inChoice && r.isChoice)

/-- How a regex is tried in a text. In a row, the parts of a fixed width at its beginning and at
its end are decided in one go, and the end of the last row is, whatever its width. -/
def plan (t : List Char) (r : Regex) (place : Place) : Plan :=
  if place.decides r then .rest (r.starts t)
  else
    let inner : Place := { last := place.last && !place.inRow }
    match place.inRow, r.fixedWidth? with
    | true, some width => .jump (r.starts t) width
    | _, _ =>
      match r with
      | empty => .jump (Positions.upTo t.length) 0
      | set s => .jump (Positions.ofChars s.contains t) 1
      | edge e => .jump (e.positions t) 0
      | group r => r.plan t inner
      | alt a b => .alt (a.plan t inner) (b.plan t { inner with inChoice := true })
      | .times lo hi greedy r =>
        .times lo hi greedy (r.plan t { last := inner.last && lo == 0 && hi == some 1 })
      | notAhead r => .notAhead (r.plan t { last := true })
      | seq a b =>
        match place.begun, a.fixedWidth? with
        | false, some width =>
          .seq (.jump (a.starts t) width) (b.plan t { last := place.last, inRow := true })
        | _, _ =>
          .seq (a.plan t { last := false })
            (b.plan t { last := place.last, inRow := true, begun := true })

/-- The number of choices that a search may take back. -/
def backtrackLimit : Nat := 1000000

/-- The search for a regex in a text gives up. -/
def givesUp (t : List Char) (r : Regex) : Bool :=
  r.looksAhead &&
    (r.plan t { last := true }).search t.length t.length backtrackLimit == .gaveUp

end Regex

end PathGlob
