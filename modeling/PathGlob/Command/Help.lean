import PathGlob.Command

/-!
# Help texts
-/

namespace PathGlob

/-- What a help text is about. -/
inductive Topic where
  | program
  | verb (v : Verb)
  /-- The word `help` itself. -/
  | help
  deriving DecidableEq, Repr

namespace Help

/-- The name and the version of the program. -/
def version : String := "globrex 0.1.0\n"

/-- Lines of text. -/
def text (ls : List String) : String := String.join (ls.map fun l => l ++ "\n")

/-- The lines on the options of all verbs. -/
def sharedOptions : List String :=
  ["  -e, --extended       Enable ?, [...], \x7ba,b\x7d and extglob groups",
   "  -g, --globstar       Keep * within one path segment and treat ** as any depth",
   "      --strict         Do not collapse doubled separators",
   "      --flags <FLAGS>  Regex flags, any of g, i, m, s, u",
   "      --windows        Use \\ as the path separator (default: host convention)",
   "      --posix          Use / as the path separator (default: host convention)",
   "  -v...                Verbosity level (-v for debug logs, -vv for trace logs)",
   "  -h, --help           Print help"]

/-- The lines on the program. -/
def program : List String :=
  ["Translate glob patterns into regular expressions",
   "",
   "Usage: globrex <COMMAND>",
   "",
   "Commands:",
   "  translate  Print the regular expression for a glob",
   "  match      Test paths against a glob",
   "  help       Print this message or the help of the given subcommand(s)",
   "",
   "Options:",
   "  -h, --help     Print help",
   "  -V, --version  Print version"]

/-- The lines on `translate`. -/
def translate : List String :=
  ["Print the regular expression for a glob",
   "",
   "Usage: globrex translate [OPTIONS] <GLOB>",
   "",
   "Arguments:",
   "  <GLOB>  Glob pattern to translate",
   "",
   "Options:",
   "      --json           Print the translation as JSON"] ++
  sharedOptions ++
  ["",
   "EXAMPLES:",
   "  globrex translate '*.min.js'                 # ^.*\\.min\\.js$",
   "  globrex translate -e 'src/\x7ba,b\x7d/?.rs'        # extended syntax",
   "  globrex translate -g 'foo/**/bar.txt'        # globstar segments",
   "  globrex translate -eg --json 'a/**/*.\x7bmd,js\x7d'"]

/-- The lines on `match`. -/
def test : List String :=
  ["Test paths against a glob",
   "",
   "Usage: globrex match <GLOB> <PATH>...",
   "  globrex match <GLOB> < paths.txt",
   "",
   "Arguments:",
   "  <GLOB>     Glob pattern to translate",
   "  [PATH]...  Paths to test (one per line on stdin when omitted)",
   "",
   "Options:",
   "      --segments       Match one path component per segment instead of the whole path"] ++
  sharedOptions ++
  ["",
   "EXAMPLES:",
   "  globrex match -g 'src/**/*.rs' src/main.rs src/cli/mod.rs",
   "  find . -type f | globrex match -g './**/*.toml'",
   "  globrex match -g --segments 'foo/**' foo/a/b   # component-wise"]

/-- The lines on `help`. -/
def help : List String :=
  ["Print this message or the help of the given subcommand(s)",
   "",
   "Usage: globrex help [COMMAND]...",
   "",
   "Arguments:",
   "  [COMMAND]...  Print help for the subcommand(s)"]

end Help

/-- The help text on a topic. -/
def Topic.text : Topic → String
  | program => Help.text Help.program
  | verb .translate => Help.text Help.translate
  | verb .test => Help.text Help.test
  | help => Help.text Help.help

end PathGlob
