/-!
# Paths from lines of text

`Lines.read` reads one path per line. A line ends at a newline; a carriage return before the
newline goes with it, and after that one more carriage return at the end of a line is dropped.
Empty lines are skipped. The input is bytes, and each line of it is decoded on its own.
-/

namespace PathGlob

/-- Why no paths could be read. -/
inductive LinesError where
  /-- The bytes are not text. -/
  | notText
  /-- There is no path. -/
  | noPaths
  deriving DecidableEq, Repr

/-- The text of the error. -/
def LinesError.message : LinesError → String
  | notText => "failed to read paths from stdin: stream did not contain valid UTF-8"
  | noPaths => "no paths given: pass them as arguments or one per line on stdin"

namespace Lines

/-- Splits a text, or the bytes of one, into the lines that end with a newline and the rest. -/
def split {α : Type} [DecidableEq α] (newline : α) : List α → List (List α) × List α
  | [] => ([], [])
  | c :: cs =>
    match split newline cs with
    | (ls, rest) =>
      if c = newline then ([] :: ls, rest)
      else match ls with
        | [] => ([], c :: rest)
        | l :: ls => ((c :: l) :: ls, rest)

/-- A line without a carriage return at its end. -/
def dropReturn (l : List Char) : List Char := if l.getLast? = some '\r' then l.dropLast else l

/-- The paths on lines that end with a newline and in the rest. -/
def paths (ls : List (List Char)) (rest : List Char) : List String :=
  let paths := ls.map (fun l => dropReturn (dropReturn l)) ++ [dropReturn rest]
  (paths.filter (· != [])).map String.ofList

/-- The paths in a text. -/
def ofText (t : List Char) : List String :=
  let (ls, rest) := split '\n' t
  paths ls rest

/-- The text of a line that is given as bytes. -/
def decode (line : List UInt8) : Except LinesError (List Char) :=
  match String.fromUTF8? line.toByteArray with
  | none => .error .notText
  | some t => .ok t.toList

/-- The paths in a text given as bytes. The first line that is no text ends the reading. -/
def read (bytes : ByteArray) : Except LinesError (List String) := do
  let (ls, rest) := split '\n'.toUInt8 bytes.data.toList
  match paths (← ls.mapM decode) (← decode rest) with
  | [] => .error .noPaths
  | paths => .ok paths

/-- The given paths, or if there are none those in the lines of a text. -/
def load (paths : List String) (bytes : ByteArray) : Except LinesError (List String) :=
  match paths with
  | [] => read bytes
  | _ => .ok paths

end Lines

end PathGlob
