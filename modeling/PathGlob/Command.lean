import PathGlob.Options

/-!
# Commands

A `Command` is what the command line asks for: a task on one glob under some options.
-/

namespace PathGlob

/-- What is done with a glob. -/
inductive Task where
  /-- Prints the translation, as JSON or as a listing. -/
  | translate (json : Bool)
  /-- Tests paths, by segments or as a whole. Without paths they are read from the input. -/
  | test (segments : Bool) (paths : List String)
  deriving DecidableEq, Repr

/-- A task on a glob. -/
structure Command where
  task : Task
  glob : String
  options : Options
  /-- The number of `-v` switches, at most 255. -/
  verbose : Nat
  deriving DecidableEq, Repr

/-- The first word of a command. -/
inductive Verb where
  | translate
  | test
  deriving DecidableEq, Repr

namespace Verb

/-- The word. -/
def name : Verb → String
  | translate => "translate"
  | test => "match"

/-- The verb with a given name. -/
def ofName? (w : String) : Option Verb := [translate, test].find? fun v => v.name == w

end Verb

/-- A word of the command line that is on if it is there. -/
inductive Switch where
  | extended
  | globstar
  | strict
  | windows
  | posix
  /-- Print JSON. -/
  | json
  /-- Match by segments. -/
  | segments
  deriving DecidableEq, Repr

namespace Switch

/-- The name after `--`. -/
def name : Switch → String
  | extended => "extended"
  | globstar => "globstar"
  | strict => "strict"
  | windows => "windows"
  | posix => "posix"
  | json => "json"
  | segments => "segments"

/-- The switches of all verbs. -/
def shared : List Switch := [extended, globstar, strict, windows, posix]

/-- The switch that only one verb has. -/
def ofVerb : Verb → Switch
  | .translate => json
  | .test => segments

/-- The switch of a verb with a given name. -/
def ofName? (v : Verb) (name : String) : Option Switch :=
  (ofVerb v :: shared).find? fun s => s.name == name

end Switch

end PathGlob
