import PathGlob.Flags
import PathGlob.Separator

/-!
# Translation options

`Options` says how a glob is read. All switches are off by default, and the separator is the one
of the host.
-/

namespace PathGlob

/-- How a glob is read. -/
structure Options where
  /-- Enable `?(..)`, `*(..)`, `+(..)`, `@(..)`, `!(..)` groups, `{a,b}` choices, `[...]` classes
  with class names, and `?` for a single character. -/
  extended : Bool := false
  /-- Let `**` span path segments and keep `*` inside one segment. -/
  globstar : Bool := false
  /-- Keep doubled separators mandatory. -/
  strict : Bool := false
  /-- The flags of the matchers. -/
  flags : Flags := {}
  /-- The path separator convention. -/
  separator : Separator := .host
  deriving DecidableEq, Repr, Inhabited

namespace Options

/-- The defaults with `/` as separator, whatever the host. -/
def posix : Options := { separator := .posix }

/-- The options with the separator chosen by a switch. -/
def windows (o : Options) (on : Bool) : Options := { o with separator := .ofWindows on }

end Options

end PathGlob
