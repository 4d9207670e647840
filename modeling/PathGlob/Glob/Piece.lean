import PathGlob.Separator

/-!
# Pieces of a translated glob

A translated glob is a list of `Piece`s. Written one after the other they are the body of the
whole pattern (`body`); cut at the separators and globstars they are the bodies of the path
segments (`cut`).
-/

namespace PathGlob

/-- A part of a translated glob. -/
inductive Piece where
  /-- Regex text inside one segment. -/
  | text (cs : List Char)
  /-- A separator; `lenient` if the path may leave it out. -/
  | separator (lenient : Bool)
  /-- Any number of whole segments. -/
  | globstar
  deriving DecidableEq, Repr

namespace Piece

/-- The regex text of a piece. -/
def write (s : Separator) : Piece → List Char
  | text cs => cs
  | separator lenient => s.token ++ if lenient then ['?'] else []
  | globstar => s.globstar

end Piece

/-- The regex for one path segment. -/
structure Segment where
  /-- The regex text between the anchors. -/
  body : List Char
  /-- The segment stands for any number of whole path components. -/
  globstar : Bool
  deriving DecidableEq, Repr

/-- A regex anchored at both ends. -/
def anchored (body : List Char) : List Char := '^' :: body ++ ['$']

namespace Segment

/-- The regex of a segment, anchored. -/
def pattern (s : Segment) : String := String.ofList (anchored s.body)

/-- The segment with a given body, or nothing if the body is empty. -/
def close (body : List Char) (globstar : Bool) : List Segment :=
  if body = [] then [] else [⟨body, globstar⟩]

end Segment

/-- The regex text of a list of pieces. -/
def Piece.body (s : Separator) (ps : List Piece) : List Char := ps.flatMap (Piece.write s)

/-- The segments of a list of pieces that follows the text `opened`. Every separator and every
globstar ends a segment; an empty segment is dropped unless it is the last one. -/
def Piece.cut (s : Separator) (opened : List Char) : List Piece → List Segment
  | [] => [⟨opened, false⟩]
  | text cs :: ps => cut s (opened ++ cs) ps
  | separator _ :: ps => Segment.close opened false ++ cut s [] ps
  | globstar :: ps => Segment.close (opened ++ s.globstar) true ++ cut s [] ps

end PathGlob
