/-!
# JSON text

`Json.pretty` writes a JSON value over several lines, indented by two spaces a level. Object keys
keep their order. In a string only `"`, `\` and the control characters below U+0020 are escaped.
-/

namespace PathGlob

/-- A JSON value without numbers. -/
inductive Json where
  | bool (b : Bool)
  | string (s : String)
  | array (xs : List Json)
  | object (fields : List (String × Json))

namespace Json

/-- A hexadecimal digit in lower case. -/
def hexDigit (n : Nat) : Char := Char.ofNat (if n < 10 then 48 + n else 87 + n)

/-- The text of a character inside a string. -/
def escape (c : Char) : List Char :=
  match c with
  | '"' => ['\\', '"']
  | '\\' => ['\\', '\\']
  | '\x08' => ['\\', 'b']
  | '\t' => ['\\', 't']
  | '\n' => ['\\', 'n']
  | '\x0c' => ['\\', 'f']
  | '\r' => ['\\', 'r']
  | c =>
    if c.toNat < 32 then ['\\', 'u', '0', '0', hexDigit (c.toNat / 16), hexDigit (c.toNat % 16)]
    else [c]

/-- A string in quotes. -/
def quote (s : String) : String := String.ofList ('"' :: s.toList.flatMap escape ++ ['"'])

/-- A line break followed by the indentation of a level. -/
def newline (level : Nat) : String := "".pushn '\n' 1 |>.pushn ' ' (2 * level)

/-- Items between two brackets, one to a line. -/
def enclose (opening closing : String) (level : Nat) (items : List String) : String :=
  if items.isEmpty then opening ++ closing
  else
    let inner := newline (level + 1)
    opening ++ inner ++ String.intercalate ("," ++ inner) items ++ newline level ++ closing

mutual

/-- The text of a value that starts at a level of indentation. -/
def prettyAt (level : Nat) : Json → String
  | bool b => if b then "true" else "false"
  | string s => quote s
  | array xs => enclose "[" "]" level (prettyItems (level + 1) xs)
  | object fields => enclose "\x7b" "\x7d" level (prettyFields (level + 1) fields)

/-- The texts of the items of an array. -/
def prettyItems (level : Nat) : List Json → List String
  | [] => []
  | x :: xs => prettyAt level x :: prettyItems level xs

/-- The texts of the fields of an object. -/
def prettyFields (level : Nat) : List (String × Json) → List String
  | [] => []
  | (key, x) :: fields => (quote key ++ ": " ++ prettyAt level x) :: prettyFields level fields

end

/-- The text of a value. -/
def pretty (x : Json) : String := prettyAt 0 x

end Json

end PathGlob
