import PathGlob.Translation
import PathGlob.Matcher
import PathGlob.Path
import PathGlob.Walk

/-!
# Compiled globs

A `Glob` holds a matcher for whole paths and one matcher per path segment.

* `Glob.accepts` tests a whole path;
* `Glob.acceptsComponent` tests one component against one segment;
* `Glob.acceptsSegments` tests a path component by component.

The two tests of a path differ: `foo/**` takes `foo` by segments, while the whole pattern asks for
the separator.
-/

namespace PathGlob

/-- A segment of a compiled glob. -/
structure GlobSegment where
  /-- The segment stands for any number of whole path components. -/
  globstar : Bool
  /-- The matcher for one component. A separator inside a class, a choice or a group cuts it in
  two, and then the text of a segment need not be a regex. -/
  matcher : Except MatcherError Matcher

namespace GlobSegment

/-- The compiled form of a segment. -/
def compile (f : Flags) (s : Segment) : GlobSegment :=
  { globstar := s.globstar, matcher := Matcher.compile s.pattern f.ofComponent }

/-- The matcher, if there is one. -/
def matcher? (s : GlobSegment) : Option Matcher := s.matcher.toOption

/-- The segment as a stage of a walk. -/
def stage (s : GlobSegment) : Stage :=
  if s.globstar then .any
  else match s.matcher with
    | .ok m => .one m.accepts
    | .error _ => .never

end GlobSegment

/-- A compiled glob. -/
structure Glob where
  options : Options
  /-- The regex for whole paths. -/
  pattern : String
  matcher : Matcher
  /-- One entry per path segment; there is at least one. -/
  segments : List GlobSegment

namespace Glob

/-- Compiles a glob. It is an error if the regex for whole paths is none. -/
def compile (o : Options) (text : String) : Except MatcherError Glob :=
  let t := translate o text
  match Matcher.compile t.pattern o.flags with
  | .error e => .error e
  | .ok matcher =>
    .ok { options := o, pattern := t.pattern, matcher,
          segments := t.segments.map (GlobSegment.compile o.flags) }

variable (g : Glob)

/-- The matcher of a segment, if the segment exists and has one. -/
def segment? (index : Nat) : Option Matcher := g.segments[index]?.bind GlobSegment.matcher?

/-- The segment exists and is a globstar. -/
def isGlobstar (index : Nat) : Bool := g.segments[index]?.any GlobSegment.globstar

/-- Tests a whole path. -/
def accepts (path : String) : Bool := g.matcher.accepts path.toList

/-- Tests one component against one segment. A globstar takes every component. -/
def acceptsComponent (index : Nat) (component : String) : Bool :=
  g.isGlobstar index || (g.segment? index).any fun m => m.accepts component.toList

/-- The stages of the walk by segments. -/
def stages : List Stage := g.segments.map GlobSegment.stage

/-- The components of a path under the options of the glob. -/
def components (path : String) : List (List Char) :=
  Path.components g.options.separator path.toList

/-- Tests a path component by component. -/
def acceptsSegments (path : String) : Bool := Walk.arrives g.stages (g.components path)

/-- Tests a path by segments or as a whole. -/
def acceptsBy (segments : Bool) (path : String) : Bool :=
  if segments then g.acceptsSegments path else g.accepts path

/-! ### Searches that give up -/

/-- The error of a matcher on a text, if the search gives up. -/
def giveUp? (m : Matcher) (t : List Char) : Option MatcherError :=
  match m.verdict t with
  | .ok _ => none
  | .error e => some e

/-- The searches of the test of a path that give up, in order. -/
def givenUp (segments : Bool) (path : String) : List MatcherError :=
  if segments then
    let cs := g.components path
    let questions := Walk.questions cs (Walk.start cs) g.stages
    (g.segments.zip questions).flatMap fun (s, ts) =>
      match s.matcher with
      | .ok m => ts.filterMap (giveUp? m)
      | .error _ => []
  else (giveUp? g.matcher path.toList).toList

/-! ### Comparison -/

/-- The matchers of two lists of segments are alike, one by one. -/
def segmentsAlike : List (Option Matcher) → List (Option Matcher) → Bool
  | [], [] => true
  | none :: as, none :: bs => segmentsAlike as bs
  | some a :: as, some b :: bs => a.alike b && segmentsAlike as bs
  | _, _ => false

end Glob

end PathGlob
