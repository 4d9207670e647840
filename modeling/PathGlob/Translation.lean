import PathGlob.Glob.Scan

/-!
# Translation of a glob

A `Translation` holds the regex for whole paths and one anchored regex per path segment, so that
a caller who walks a directory tree can drop a branch as soon as one component fails to match.
-/

namespace PathGlob

/-- A glob as regular expressions. -/
structure Translation where
  /-- The regex for whole paths, anchored unless the flags say otherwise. -/
  pattern : String
  /-- One entry per path segment; there is at least one. -/
  segments : List Segment
  deriving DecidableEq, Repr

/-- The regex for whole paths with a given body. -/
def wholePattern (o : Options) (body : List Char) : List Char :=
  if o.flags.anchors then anchored body else body

/-- The translation of a glob. -/
def translate (o : Options) (glob : String) : Translation :=
  let pieces := (scan o glob.toList).pieces
  { pattern := String.ofList (wholePattern o (Piece.body o.separator pieces))
    segments := Piece.cut o.separator [] pieces }

/-- The number of groups that are still open at the end of a glob. -/
def unclosedGroups (o : Options) (glob : String) : Nat :=
  (scan o glob.toList).context.groups.length

end PathGlob
