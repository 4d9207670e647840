import PathGlob.Unicode.Shown

/-!
# Quoted text

A text in quotes, on one line: a quote and a backslash are escaped, and a character that does not
show on its own is written by its code point.
-/

namespace PathGlob

namespace Quoted

/-- A character by its code point, in hexadecimal. -/
def codePoint (c : Char) : List Char :=
  ['\\', 'u', '\x7b'] ++ Nat.toDigits 16 c.toNat ++ ['\x7d']

/-- The text of a character between quotes. -/
def escape (c : Char) : List Char :=
  match c with
  | '"' => ['\\', '"']
  | '\\' => ['\\', '\\']
  | '\x00' => ['\\', '0']
  | '\t' => ['\\', 't']
  | '\n' => ['\\', 'n']
  | '\r' => ['\\', 'r']
  | c => if Unicode.isShown c then [c] else codePoint c

/-- A text in quotes. -/
def encode (s : String) : String := String.ofList ('"' :: s.toList.flatMap escape ++ ['"'])

end Quoted

end PathGlob
