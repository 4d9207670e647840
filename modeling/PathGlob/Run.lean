import PathGlob.Log
import PathGlob.Lines
import PathGlob.Report
import PathGlob.Command.Request

/-!
# Running a command

A run of the program is a function of the words of the command line and the bytes of the input:
`Request.outcome` gives the exit status and what is written to the two outputs.
-/

namespace PathGlob

/-- What a run leaves behind. -/
structure Outcome where
  exit : Nat
  /-- What is written to the standard output. -/
  out : String
  /-- What is written to the error output. -/
  err : String
  deriving DecidableEq, Repr

namespace Outcome

/-- Success with a text. -/
def ofText (out : String) : Outcome := { exit := 0, out, err := "" }

/-- Failure with a message, after what has been logged. -/
def failure (log message : String) : Outcome :=
  { exit := 1, out := "", err := log ++ "error: " ++ message ++ "\n" }

end Outcome

namespace Command

variable (c : Command)

/-- The lines for those events that are shown in a run. -/
def log (es : List Event) : String := (Verbosity.ofCount c.verbose).log es

/-- The events of the translation of the glob. -/
def translationEvents : List Event :=
  Event.ofTranslation c.options c.glob (translate c.options c.glob)

/-- Prints the translation of the glob. -/
def printTranslation (json : Bool) : Outcome :=
  let t := translate c.options c.glob
  { exit := 0
    out := if json then (Report.translation c.options c.glob t).pretty ++ "\n"
      else Report.listing t
    err := c.log c.translationEvents }

/-- The verdicts of a compiled glob on paths, one to a line. -/
def verdicts (g : Glob) (segments : Bool) (paths : List String) : String :=
  String.join (paths.map fun path => Report.verdict path (g.acceptsBy segments path) ++ "\n")

/-- Tests paths against the glob. The glob is compiled before the paths are looked at. -/
def testPaths (segments : Bool) (paths : List String) (input : ByteArray) : Outcome :=
  match Glob.compile c.options c.glob with
  | .error e => .failure (c.log c.translationEvents) e.message
  | .ok g =>
    let before := c.translationEvents ++ Event.ofGlob c.glob g
    match Lines.load paths input with
    | .error e => .failure (c.log before) e.message
    | .ok paths =>
      { exit := if paths.all (g.acceptsBy segments) then 0 else 1
        out := verdicts g segments paths
        err := c.log before ++ match Verbosity.ofCount c.verbose with
          | .off => ""
          | _ => c.log (paths.flatMap (Event.ofTest g segments)) }

/-- Runs the command. -/
def outcome (input : ByteArray) : Outcome :=
  match c.task with
  | .translate json => c.printTranslation json
  | .test segments paths => c.testPaths segments paths input

/-- The command reads the input. -/
def readsInput : Bool :=
  match c.task with
  | .test _ [] => true
  | _ => false

end Command

namespace Request

/-- Answers a request. -/
def outcome (r : Request) (input : ByteArray) : Outcome :=
  match r with
  | run c => c.outcome input
  | help t => .ofText t.text
  | version => .ofText Help.version
  | refused r => { exit := 2, out := "", err := "error: " ++ r.message ++ "\n" }

/-- The request reads the input. -/
def readsInput : Request → Bool
  | run c => c.readsInput
  | _ => false

end Request

end PathGlob
