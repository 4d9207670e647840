import PathGlob.Command
import PathGlob.Command.Refusal

/-!
# Arguments of a command line

The words after the verb are read as `Argument`s, one or more to a word: a word such as `-egv` is
a cluster of letters. After the word `--` every word is an operand.
-/

namespace PathGlob

/-- What a word of a command line, or a letter of a cluster, means. -/
inductive Argument where
  | switch (s : Switch)
  /-- `-v`. -/
  | louder
  | help
  /-- `--flags=letters`. -/
  | flags (letters : String)
  /-- `--flags`, with the letters in the next word. -/
  | flagsNext
  /-- A word that is no option. -/
  | word (w : String)
  /-- A word after `--`. -/
  | operand (w : String)
  | refused (r : Refusal)
  deriving DecidableEq, Repr

namespace Argument

/-- A letter of a cluster. -/
def ofLetter : Char → Argument
  | 'e' => switch .extended
  | 'g' => switch .globstar
  | 'v' => louder
  | 'h' => help
  | c => refused (.unknownArgument ("-" ++ c.toString))

/-- A name after `--`, with the text after `=` if there is one. -/
def ofName (v : Verb) (name : String) (value : Option String) : Argument :=
  match Switch.ofName? v name, value with
  | some s, none => switch s
  | some _, some _ => refused (.unneededValue name)
  | none, value =>
    match name, value with
    | "flags", some letters => flags letters
    | "flags", none => flagsNext
    | "help", none => help
    | "help", some _ => refused (.unneededValue name)
    | _, _ => refused (.unknownArgument ("--" ++ name))

/-- A name and the text after its first `=`, if there is one. -/
def splitValue (cs : List Char) : String × Option String :=
  (String.ofList (cs.takeWhile (· != '=')),
    match cs.dropWhile (· != '=') with
    | [] => none
    | _ :: value => some (String.ofList value))

/-- The arguments in a word other than `--`. -/
def ofWord (v : Verb) (w : String) : List Argument :=
  match w.toList with
  | '-' :: '-' :: cs =>
    let (name, value) := splitValue cs
    [ofName v name value]
  | '-' :: c :: cs => (c :: cs).map ofLetter
  | _ => [word w]

/-- The arguments in a list of words. -/
def ofWords (v : Verb) : List String → List Argument
  | [] => []
  | "--" :: ws => ws.map operand
  | w :: ws => ofWord v w ++ ofWords v ws

end Argument

end PathGlob
