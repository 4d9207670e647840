/-!
# Regex flags

Flags are written as a string of single letters, the way they follow the closing slash of a
regex literal (`gi`, `m`, ...).

* `Flag` is one flag, `Flags` a set of them;
* `Flags.ofLetters` reads a string of letters and stops at the first letter that is unknown or
  repeated;
* `Flags.letters` writes a set in the fixed order `g`, `i`, `m`, `s`, `u`;
* `Flags.inlineGroup` writes the flags that a regex can carry in its own text, as in `(?im)`.
-/

namespace PathGlob

/-- A regex flag. -/
inductive Flag where
  /-- `g`: match anywhere, so the whole pattern is not anchored. -/
  | global
  /-- `i`: letters match without regard to case. -/
  | ignoreCase
  /-- `m`: `^` and `$` match at line boundaries too. -/
  | multiLine
  /-- `s`: `.` matches a newline. -/
  | dotAll
  /-- `u`: accepted, and without effect, since matching is by code point anyway. -/
  | unicode
  deriving DecidableEq, Repr

namespace Flag

/-- All flags, in the order in which a set is written. -/
def all : List Flag := [global, ignoreCase, multiLine, dotAll, unicode]

/-- The letter of a flag. -/
def letter : Flag → Char
  | global => 'g'
  | ignoreCase => 'i'
  | multiLine => 'm'
  | dotAll => 's'
  | unicode => 'u'

/-- The flag with a given letter. -/
def ofLetter? (c : Char) : Option Flag := all.find? fun f => f.letter == c

theorem mem_all (f : Flag) : f ∈ all := by cases f <;> decide

@[simp] theorem ofLetter?_letter (f : Flag) : ofLetter? f.letter = some f := by
  cases f <;> decide

theorem ofLetter?_eq_some_iff {c : Char} {f : Flag} : ofLetter? c = some f ↔ f.letter = c := by
  constructor
  · intro h
    simpa using List.find?_some h
  · rintro rfl
    exact ofLetter?_letter f

end Flag

/-- Why a string of flag letters is refused. -/
inductive FlagError where
  /-- `c` is no flag letter. -/
  | unknown (c : Char)
  /-- `c` is a flag letter that occurred before. -/
  | duplicate (c : Char)
  deriving DecidableEq, Repr

namespace FlagError

/-- The letter at which reading stopped. -/
def char : FlagError → Char
  | unknown c => c
  | duplicate c => c

/-- The text of the error. -/
def message : FlagError → String
  | unknown c => "unknown regex flag `" ++ c.toString ++ "`"
  | duplicate c => "regex flag `" ++ c.toString ++ "` given more than once"

end FlagError

/-- A set of regex flags. -/
structure Flags where
  global : Bool := false
  ignoreCase : Bool := false
  multiLine : Bool := false
  dotAll : Bool := false
  unicode : Bool := false
  deriving DecidableEq, Repr, Inhabited

namespace Flags

/-- The flag `f` is in the set. -/
def has (s : Flags) : Flag → Bool
  | .global => s.global
  | .ignoreCase => s.ignoreCase
  | .multiLine => s.multiLine
  | .dotAll => s.dotAll
  | .unicode => s.unicode

/-- The set with the flag `f` put in or taken out. -/
def set (s : Flags) (f : Flag) (on : Bool) : Flags :=
  match f with
  | .global => { s with global := on }
  | .ignoreCase => { s with ignoreCase := on }
  | .multiLine => { s with multiLine := on }
  | .dotAll => { s with dotAll := on }
  | .unicode => { s with unicode := on }

theorem has_set (s : Flags) (f g : Flag) (on : Bool) :
    (s.set f on).has g = if g = f then on else s.has g := by
  cases f <;> cases g <;> rfl

@[ext] theorem ext_has {s t : Flags} (h : ∀ f, s.has f = t.has f) : s = t := by
  cases s; cases t
  have h₁ := h .global; have h₂ := h .ignoreCase; have h₃ := h .multiLine
  have h₄ := h .dotAll; have h₅ := h .unicode
  simp only [has] at h₁ h₂ h₃ h₄ h₅
  subst h₁ h₂ h₃ h₄ h₅; rfl

/-! ### Reading and writing letters -/

/-- Adds the flags with the given letters, from the left, to a set. -/
def addLetters (s : Flags) : List Char → Except FlagError Flags
  | [] => .ok s
  | c :: cs =>
    match Flag.ofLetter? c with
    | none => .error (.unknown c)
    | some f => if s.has f then .error (.duplicate c) else (s.set f true).addLetters cs

/-- The set with the given letters. -/
def ofLetters (cs : List Char) : Except FlagError Flags := addLetters {} cs

/-- The set written as a string of letters. -/
def ofString (s : String) : Except FlagError Flags := ofLetters s.toList

/-- The flags of the set, in the fixed order. -/
def toList (s : Flags) : List Flag := Flag.all.filter s.has

/-- The letters of the set, in the fixed order. -/
def letters (s : Flags) : List Char := s.toList.map Flag.letter

/-- The written form of the set. -/
def toString (s : Flags) : String := String.ofList s.letters

/-- The flags that a regex can carry in its own text. -/
def inlineLetters (s : Flags) : List Char :=
  ([.ignoreCase, .multiLine, .dotAll].filter s.has).map Flag.letter

/-- The group at the head of a regex that sets its flags, empty where there is none to set. -/
def inlineGroup (s : Flags) : List Char :=
  match s.inlineLetters with
  | [] => []
  | cs => ['(', '?'] ++ cs ++ [')']

/-- Whether a whole pattern is wrapped in `^...$`. -/
def anchors (s : Flags) : Bool := !s.global

/-- The flags of a matcher for one path component: it is anchored whatever the set says. -/
def ofComponent (s : Flags) : Flags := s.set .global false

end Flags

end PathGlob
