import PathGlob.Regex.Effort

/-!
# Nesting

The syntax tree of a regex text may nest at most `Regex.maxNesting` deep. Every repetition, every
group, every bracket class, every row of two or more parts and every choice is a level of it.

The limit holds for each text that is decided in one go. Without lookahead this is the whole regex,
and with a lookahead it is each of the parts that `Regex.plan` decides in one go. They are written
anew for this: a letter whose case is ignored, a `.` for all characters and an anchor at lines come
to stand in a group of their own.
-/

namespace PathGlob

namespace CharSet

/-- A member of a class that has no brackets of its own. -/
def isItem : CharSet → Bool
  | range _ _ | digit | space | word => true
  | _ => false

/-- How deep the members of a class nest. Two or more members are a level, and so are an operator
and the brackets of a member. -/
def depth : CharSet → Nat
  | empty | range _ _ | digit | space | word => 0
  | compl a | anyCase a => a.depth
  | union a b =>
    let member := if b.isItem then 0 else b.depth + 1
    match a with
    | empty => member
    | union empty _ => max a.depth member + 1
    | _ => max a.depth (member + 1)
  | inter a b | diff a b | symmDiff a b => max a.depth b.depth + 1

/-- How deep the text of a set nests, which is a letter, an escape, a `.` or a class. -/
def nesting : CharSet → Nat
  | empty | range _ _ | digit | space | word | compl (range _ _) => 0
  | compl empty | anyCase (range _ _) => 1
  | compl (anyCase a) | anyCase a => a.depth + 2
  | a => a.depth + 1

end CharSet

/-- How deep the text of an anchor nests. -/
def Edge.nesting : Edge → Nat
  | textStart | textEnd => 0
  | lineStart | lineEnd => 1

namespace Regex

/-- How deep the syntax tree of a text may nest. -/
def maxNesting : Nat := 250

/-- How deep the syntax tree of a regex nests. -/
def nesting : Regex → Nat
  | empty => 0
  | set s => s.nesting
  | edge e => e.nesting
  | group r | .times _ _ _ r | notAhead r => r.nesting + 1
  | seq a b => max (a.nesting + 1) (if b.isRow then b.nesting else b.nesting + 1)
  | alt a b => max (a.nesting + 1) (if b.isChoice then b.nesting else b.nesting + 1)

/-- How deep a row nests that ends with `r`, as far as `r` goes. -/
def endNesting (r : Regex) : Nat := if r.isRow then r.nesting else r.nesting + 1

/-- The part has no lookahead and a fixed width. -/
def isFixed (r : Regex) : Bool := r.fixedWidth?.isSome

/-- The first part of a row has a fixed width. -/
def leads : Regex → Bool
  | seq a _ => a.isFixed
  | r => r.isFixed

/-- No part that is decided in one go nests too deep, as `plan` goes through the regex. The parts of
a fixed width at the beginning of a row are decided together. -/
def fitsAt (r : Regex) (place : Place) : Bool :=
  if place.decides r then r.nesting + r.isChoice.toNat ≤ maxNesting
  else if place.inRow && r.isFixed then
    (if place.begun then r.nesting else r.endNesting) ≤ maxNesting
  else
    let inner : Place := { last := place.last && !place.inRow }
    match r with
    | empty | edge _ => true
    | set s => s.nesting ≤ maxNesting
    | group r => r.fitsAt inner
    | alt a b => a.fitsAt inner && b.fitsAt { inner with inChoice := true }
    | .times lo hi _ r => r.fitsAt { last := inner.last && lo == 0 && hi == some 1 }
    | notAhead r => r.fitsAt { last := true }
    | seq a b =>
      if !place.begun && a.isFixed then
        a.nesting + (place.inRow || b.leads).toNat ≤ maxNesting &&
          b.fitsAt { last := place.last, inRow := true }
      else
        a.fitsAt { last := false } &&
          b.fitsAt { last := place.last, inRow := true, begun := true }

/-- No text that is decided in one go nests too deep. -/
def fits (r : Regex) : Bool :=
  if r.looksAhead then r.fitsAt { last := true } else r.nesting ≤ maxNesting

end Regex

end PathGlob
