/-!
# Class names

A class name such as `[:digit:]` inside a bracket class stands for a piece of regex class text.
-/

namespace PathGlob

/-- The known class names with the regex class text that each one stands for. -/
def classNames : List (List Char × List Char) :=
  [(['a', 'l', 'n', 'u', 'm'], ['\\', 'w', '\\', 'd']),
   (['s', 'p', 'a', 'c', 'e'], ['\\', 's']),
   (['d', 'i', 'g', 'i', 't'], ['\\', 'd']),
   (['a', 'l', 'p', 'h', 'a'], ['a', '-', 'z', 'A', '-', 'Z']),
   (['u', 'p', 'p', 'e', 'r'], ['A', '-', 'Z']),
   (['l', 'o', 'w', 'e', 'r'], ['a', '-', 'z']),
   (['x', 'd', 'i', 'g', 'i', 't'], ['0', '-', '9', 'A', '-', 'F', 'a', '-', 'f']),
   (['w', 'o', 'r', 'd'], ['\\', 'w']),
   (['b', 'l', 'a', 'n', 'k'], [' ', '\\', 't'])]

/-- The regex class text for a class name, empty for an unknown one. -/
def classText (name : List Char) : List Char := (classNames.lookup name).getD []

end PathGlob
