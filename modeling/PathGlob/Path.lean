import PathGlob.Separator

/-!
# Components of a path

A path is split at every separator. `Path.components` keeps the parts that are not empty.
-/

namespace PathGlob

namespace Path

/-- The parts of a text between the characters with a given property, empty ones included. -/
def split (p : Char → Bool) : List Char → List (List Char)
  | [] => [[]]
  | c :: cs =>
    match split p cs with
    | [] => [[c]]
    | w :: ws => if p c then [] :: w :: ws else (c :: w) :: ws

/-- The components of a path. -/
def components (s : Separator) (path : List Char) : List (List Char) :=
  (split s.splits path).filter (· != [])

end Path

end PathGlob
