import PathGlob.Options
import PathGlob.Glob.Group
import PathGlob.Glob.ClassName
import PathGlob.Glob.Piece

/-!
# Scanning a glob

One scan from left to right turns a glob into pieces. What a character means depends on the
options, on the `Context` (the constructs that are open), on the character before it and on what
follows.

* `Symbol.ofChar` sorts characters by the rule that applies to them;
* `step` is the rule for one character: the piece that it yields, the context after it, and how
  many of the following characters it has used up;
* `scan` runs the rules over a glob.

Every glob has a scan. Malformed extended syntax gives a piece for each character all the same,
and whether the result is a regex is decided when it is read as one.
-/

namespace PathGlob

/-- What a character of a glob can mean. -/
inductive Symbol where
  /-- A character without meaning. -/
  | plain
  /-- A character without meaning in a glob that has one in a regex. -/
  | special
  | separator
  | openParen
  | closeParen
  | bar
  | operator (op : Operator)
  | openBracket
  | closeBracket
  | openBrace
  | closeBrace
  | comma
  deriving DecidableEq, Repr

/-- What `c` can mean in a glob with the given separator. -/
def Symbol.ofChar (s : Separator) (c : Char) : Symbol :=
  if c = s.char then separator
  else match c with
    | '$' | '^' | '.' | '=' | '\\' => special
    | '(' => openParen
    | ')' => closeParen
    | '|' => bar
    | '?' => operator .atMostOne
    | '*' => operator .anyNumber
    | '+' => operator .atLeastOne
    | '@' => operator .exactlyOne
    | '!' => operator .negated
    | '[' => openBracket
    | ']' => closeBracket
    | '\x7b' => openBrace
    | '\x7d' => closeBrace
    | ',' => comma
    | _ => plain

/-- The constructs that are open at a place in a glob. -/
structure Context where
  /-- The open groups, innermost first. -/
  groups : List Group := []
  /-- The number of open choices. -/
  braces : Nat := 0
  /-- Inside a bracket class. -/
  inClass : Bool := false
  deriving DecidableEq, Repr

/-- What a character yields. -/
structure Step where
  piece : Piece
  context : Context
  /-- The number of following characters that are used up. -/
  skip : Nat := 0
  deriving DecidableEq, Repr

namespace Step

/-- Yields regex text and leaves the context as it is. -/
def text (x : Context) (cs : List Char) : Step := { piece := .text cs, context := x }

/-- Yields an escaped character. -/
def escape (x : Context) (c : Char) : Step := text x ['\\', c]

end Step

/-- The separator `s` is next to this place, or nothing is. -/
def atBoundary (s : Separator) : Option Char → Bool
  | none => true
  | some c => c == s.char

namespace Scan

/-- A separator. A second one right after it makes the first one optional unless `strict` is set,
and is a part of it where a run of separators counts as one. -/
def separator (o : Options) (x : Context) (rest : List Char) : Step :=
  if rest.head? = some o.separator.char then
    { piece := .separator (!o.strict), context := x,
      skip := if o.separator = .windows then 1 else 0 }
  else { piece := .separator false, context := x }

/-- The character that opens a group has been read, and its `(` is next. -/
def openGroup (x : Context) (op : Operator) : Step :=
  { piece := .text (Group.marked op).opening,
    context := { x with groups := .marked op :: x.groups }, skip := 1 }

/-- `(` on its own: a group inside a group, else itself. -/
def openParen (x : Context) : Step :=
  if x.groups = [] then .escape x '('
  else .text { x with groups := .bare :: x.groups } Group.bare.opening

/-- `)`: closes the innermost group, else itself. -/
def closeParen (s : Separator) (x : Context) : Step :=
  match x.groups with
  | [] => .escape x ')'
  | g :: gs => .text { x with groups := gs } (g.closing s)

/-- `[` inside a class: a class name such as `[:digit:]`, else itself. A class name ends at the
next `:`, wherever that is, and takes a `]` after it along. -/
def className (x : Context) (rest : List Char) : Step :=
  match rest with
  | ':' :: tail =>
    let name := tail.takeWhile (· != ':')
    match tail.dropWhile (· != ':') with
    | [] => .escape x '['
    | _ :: after =>
      { piece := .text (classText name), context := x,
        skip := name.length + 2 + if after.head? = some ']' then 1 else 0 }
  | _ => .escape x '['

/-- A run of `*`. With globstars on, a run of two or more that fills a segment is a globstar,
which takes the separator after it along, and any other run stays inside its segment. -/
def stars (o : Options) (before : Option Char) (x : Context) (rest : List Char) : Step :=
  let more := (rest.takeWhile (· == '*')).length
  if !o.globstar then { piece := .text ['.', '*'], context := x, skip := more }
  else if more != 0 && atBoundary o.separator before &&
      atBoundary o.separator (rest.drop more).head? then
    { piece := .globstar, context := x, skip := more + 1 }
  else
    { piece := .text (['('] ++ o.separator.nonSeparatorRun ++ [')']), context := x, skip := more }

/-- An operator that opens no group here. -/
def operator (o : Options) (before : Option Char) (x : Context) (rest : List Char) :
    Operator → Step
  | .anyNumber => stars o before x rest
  | .atMostOne => if o.extended then .text x ['.'] else .escape x '?'
  | .atLeastOne => .escape x '+'
  | .exactlyOne => .escape x '@'
  | .negated => if o.extended && x.inClass then .text x ['^'] else .escape x '!'

/-- An operator opens a group if `(` follows, except that `!` never does so inside a class. -/
def opensGroup (o : Options) (x : Context) (rest : List Char) (op : Operator) : Bool :=
  o.extended && rest.head? == some '(' && !(op == .negated && x.inClass)

/-- The rule for the character `c` between `before` and `rest`. -/
def step (o : Options) (before : Option Char) (x : Context) (c : Char) (rest : List Char) : Step :=
  match Symbol.ofChar o.separator c with
  | .plain => .text x [c]
  | .special => .escape x c
  | .separator => separator o x rest
  | .openParen => openParen x
  | .closeParen => closeParen o.separator x
  | .bar => if x.groups = [] then .escape x c else .text x [c]
  | .operator op =>
    if opensGroup o x rest op then openGroup x op else operator o before x rest op
  | .openBracket =>
    if x.inClass then className x rest
    else if o.extended then .text { x with inClass := true } [c]
    else .escape x c
  | .closeBracket => if x.inClass then .text { x with inClass := false } [c] else .escape x c
  | .openBrace =>
    if o.extended then .text { x with braces := x.braces + 1 } ['('] else .escape x c
  | .closeBrace =>
    if x.braces = 0 then .escape x c else .text { x with braces := x.braces - 1 } [')']
  | .comma => if x.braces = 0 then .escape x c else .text x ['|']

end Scan

/-- The pieces of a glob and what is still open at its end. -/
structure Scan where
  pieces : List Piece
  context : Context
  deriving DecidableEq, Repr

namespace Scan

/-- Scans a glob after the character `before` in the context `x`, with `skip` characters of it
used up already. -/
def run (o : Options) (before : Option Char) (x : Context) (skip : Nat) : List Char → Scan
  | [] => ⟨[], x⟩
  | c :: rest =>
    match skip with
    | 0 =>
      let a := step o before x c rest
      let b := run o (some c) a.context a.skip rest
      ⟨a.piece :: b.pieces, b.context⟩
    | k + 1 => run o (some c) x k rest

end Scan

/-- Scans a whole glob. -/
def scan (o : Options) (glob : List Char) : Scan :=
  Scan.run o none {} 0 (o.separator.normalize glob)

end PathGlob
