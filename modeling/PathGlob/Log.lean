import PathGlob.Glob
import PathGlob.Log.Quoted

/-!
# Log

Diagnostic events on the stages of a run, one line each.

* `Verbosity` says which events are shown;
* `Event.line` writes an event;
* `Event.ofTranslation`, `Event.ofGlob` and `Event.ofTest` list the events of the three stages,
  in order. The events follow from the results, so they are computed from them and not collected
  on the way.
-/

namespace PathGlob

/-- How grave an event is. -/
inductive Severity where
  | trace
  | debug
  | warning
  deriving DecidableEq, Repr

/-- The word at the head of a line, in five places. -/
def Severity.tag : Severity → String
  | trace => "TRACE"
  | debug => "DEBUG"
  | warning => " WARN"

/-- Which events are shown. -/
inductive Verbosity where
  | off
  | debug
  | trace
  deriving DecidableEq, Repr

namespace Verbosity

/-- The verbosity for a number of `-v` switches. -/
def ofCount : Nat → Verbosity
  | 0 => off
  | 1 => debug
  | _ => trace

/-- The name of a verbosity. -/
def name : Verbosity → String
  | off => "off"
  | debug => "debug"
  | trace => "trace"

/-- Events of this severity are shown. -/
def shows : Verbosity → Severity → Bool
  | off, _ => false
  | debug, s => s != .trace
  | trace, _ => true

end Verbosity

/-- Something that happened in a run. -/
inductive Event where
  /-- A segment ended before the end of the glob. -/
  | closedSegment (s : Segment)
  /-- The glob ended inside groups. -/
  | openGroups (count : Nat)
  /-- A glob was translated. -/
  | translated (glob : String) (t : Translation)
  /-- The text of a segment is no regex. -/
  | unbuiltSegment (glob : String) (e : MatcherError)
  /-- A glob was compiled. -/
  | compiled (glob : String) (segments : Nat)
  /-- A search gave up. -/
  | failedMatch (e : MatcherError)
  deriving DecidableEq, Repr

namespace Event

/-- How grave an event is. -/
def severity : Event → Severity
  | closedSegment _ => .trace
  | openGroups _ => .debug
  | translated _ _ => .debug
  | unbuiltSegment _ _ => .warning
  | compiled _ _ => .debug
  | failedMatch _ => .warning

/-- The text of an event. -/
def text : Event → String
  | closedSegment s =>
    "closed segment segment=" ++ s.pattern ++ " globstar=" ++
      if s.globstar then "true" else "false"
  | openGroups n => "glob ends inside extglob groups unclosed=" ++ Nat.repr n
  | translated g t =>
    "translated glob glob=" ++ Quoted.encode g ++ " pattern=" ++ t.pattern ++ " segments=" ++
      Nat.repr t.segments.length
  | unbuiltSegment g e =>
    "segment does not compile, it never matches glob=" ++ Quoted.encode g ++ " error=" ++ e.message
  | compiled g n => "compiled glob glob=" ++ Quoted.encode g ++ " segments=" ++ Nat.repr n
  | failedMatch e => "treating failed match as no match error=" ++ e.message

/-- The line for an event. -/
def line (e : Event) : String := e.severity.tag ++ " " ++ e.text ++ "\n"

/-! ### The events of a stage -/

/-- The events of the translation of a glob to `t`. The last segment ends with the glob and so
has no event of its own. -/
def ofTranslation (o : Options) (glob : String) (t : Translation) : List Event :=
  t.segments.dropLast.map closedSegment ++
    (match unclosedGroups o glob with
      | 0 => []
      | n => [openGroups n]) ++
    [translated glob t]

/-- The events of the compilation of a glob to `g`. -/
def ofGlob (glob : String) (g : Glob) : List Event :=
  (g.segments.filterMap fun s =>
      match s.matcher with
      | .ok _ => none
      | .error e => some (unbuiltSegment glob e)) ++
    [compiled glob g.segments.length]

/-- The events of the test of a path. -/
def ofTest (g : Glob) (segments : Bool) (path : String) : List Event :=
  (g.givenUp segments path).map failedMatch

end Event

/-- The lines for those events that are shown. -/
def Verbosity.log (v : Verbosity) (es : List Event) : String :=
  String.join ((es.filter fun e => v.shows e.severity).map Event.line)

end PathGlob
