import PathGlob.Json
import PathGlob.Translation

/-!
# Reports

What the command line prints: a translation as a listing or as JSON, and the verdict on a path.
-/

namespace PathGlob

namespace Report

/-- A number, padded with blanks on the left to two places. -/
def padIndex (n : Nat) : String := if n < 10 then " " ++ Nat.repr n else Nat.repr n

/-- The line for the segment with a given index; a globstar is marked `**`. -/
def segmentLine (index : Nat) (s : Segment) : String :=
  "  " ++ padIndex index ++ (if s.globstar then " ** " else "    ") ++ s.pattern ++ "\n"

/-- The lines for segments numbered from `index` on. -/
def segmentLines (index : Nat) : List Segment → String
  | [] => ""
  | s :: ss => segmentLine index s ++ segmentLines (index + 1) ss

/-- The pattern on the first line, then one line per segment. -/
def listing (t : Translation) : String := t.pattern ++ "\n" ++ segmentLines 0 t.segments

/-- A set of flags as JSON. -/
def flags (f : Flags) : Json :=
  .object [("global", .bool f.global), ("ignore_case", .bool f.ignoreCase),
    ("multi_line", .bool f.multiLine), ("dot_all", .bool f.dotAll), ("unicode", .bool f.unicode)]

/-- Options as JSON. -/
def options (o : Options) : Json :=
  .object [("extended", .bool o.extended), ("globstar", .bool o.globstar),
    ("strict", .bool o.strict), ("flags", flags o.flags),
    ("separator", .string o.separator.name)]

/-- A segment as JSON. -/
def segment (s : Segment) : Json :=
  .object [("pattern", .string s.pattern), ("globstar", .bool s.globstar)]

/-- A glob, its options and its translation as JSON. -/
def translation (o : Options) (glob : String) (t : Translation) : Json :=
  .object [("glob", .string glob), ("options", options o), ("pattern", .string t.pattern),
    ("segments", .array (t.segments.map segment))]

/-- The verdict on a path. -/
def verdict (path : String) (matched : Bool) : String :=
  (if matched then "match" else "no match") ++ "\t" ++ path

end Report

end PathGlob
