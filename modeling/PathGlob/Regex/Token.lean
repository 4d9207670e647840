import PathGlob.Flags
import PathGlob.Regex.Basic
import PathGlob.Regex.Bracket

/-!
# Tokens of a regex text

`Token.read` splits a regex text into tokens. Flags act here: they decide which characters a
letter or `.` stands for and which edges `^` and `$` ask for.

Whether a `{` begins a count depends on what stands before it: right after something that can be
repeated a valid count is one, and everywhere else a `{` stands for itself.
-/

namespace PathGlob

/-- A token of a regex text. -/
inductive Token where
  | set (s : CharSet)
  | edge (e : Edge)
  /-- `(` or `(?:`. -/
  | openGroup
  /-- `(?!`. -/
  | openNotAhead
  | close
  | bar
  | count (lo : Nat) (hi : Option Nat) (greedy : Bool)
  deriving DecidableEq, Repr

namespace Token

/-- A count may follow the token. -/
def countable : Token → Bool
  | set _ | edge _ | close => true
  | openGroup | openNotAhead | bar | count _ _ _ => false

/-- The set of characters that a letter stands for. -/
def letterSet (f : Flags) (c : Char) : CharSet :=
  if f.ignoreCase then .anyCase (.single c) else .single c

/-- The set of characters that `.` stands for. -/
def dotSet (f : Flags) : CharSet :=
  if f.dotAll then .all else .compl (.single '\n')

/-- The edge that `^` asks for. -/
def startEdge (f : Flags) : Edge := if f.multiLine then .lineStart else .textStart

/-- The edge that `$` asks for. -/
def endEdge (f : Flags) : Edge := if f.multiLine then .lineEnd else .textEnd

/-! ### Counts -/

/-- The number written by decimal digits. -/
def number (digits : List Char) : Nat :=
  digits.foldl (fun n c => 10 * n + (c.toNat - '0'.toNat)) 0

/-- Splits the digits off the front of a text; `none` if there are none. -/
def number? (cs : List Char) : Option Nat × List Char :=
  match cs.takeWhile Char.isDigit with
  | [] => (none, cs)
  | ds => (some (number ds), cs.dropWhile Char.isDigit)

/-- Reads the bounds of a count after its `{`, and the `}` after them. -/
def bounds? (cs : List Char) : Option (Nat × Option Nat × List Char) :=
  match number? cs with
  | (some lo, '\x7d' :: rest) => some (lo, some lo, rest)
  | (lo, ',' :: rest) =>
    match number? rest with
    | (hi, '\x7d' :: rest) => some (lo.getD 0, hi, rest)
    | _ => none
  | _ => none

/-- A count with given bounds, and the rest of the text: a `?` makes it lazy. -/
def countToken (lo : Nat) (hi : Option Nat) : List Char → Token × List Char
  | '?' :: rest => (count lo hi false, rest)
  | rest => (count lo hi true, rest)

/-! ### Reading -/

/-- Reads the token that begins with `c`; `canCount` says that a count may stand here. A character
after a backslash stands for itself only, whatever the flags are. -/
def next (f : Flags) (canCount : Bool) (c : Char) (rest : List Char) :
    Except RegexError (Token × List Char) :=
  match c with
  | '\\' =>
    match rest with
    | [] => .error .badEscape
    | d :: rest =>
      match ClassAtom.escaped? d with
      | none => .error .badEscape
      | some (.char d) => .ok (set (.single d), rest)
      | some (.named s) => .ok (set s, rest)
  | '.' => .ok (set (dotSet f), rest)
  | '^' => .ok (edge (startEdge f), rest)
  | '$' => .ok (edge (endEdge f), rest)
  | '(' =>
    match rest with
    | '?' :: ':' :: rest => .ok (openGroup, rest)
    | '?' :: '!' :: rest => .ok (openNotAhead, rest)
    | '?' :: _ => .error .unknownGroup
    | rest => .ok (openGroup, rest)
  | ')' => .ok (close, rest)
  | '|' => .ok (bar, rest)
  | '*' => .ok (countToken 0 none rest)
  | '+' => .ok (countToken 1 none rest)
  | '?' => .ok (countToken 0 (some 1) rest)
  | '[' => do
    let (s, rest) ← Bracket.read f.ignoreCase rest
    .ok (set s, rest)
  | '\x7b' =>
    match if canCount then bounds? rest else none with
    | some (lo, hi, rest) => .ok (countToken lo hi rest)
    | none => .ok (set (letterSet f c), rest)
  | c => .ok (set (letterSet f c), rest)

theorem length_number?_le (cs : List Char) : (number? cs).2.length ≤ cs.length := by
  unfold number?
  split
  · exact Nat.le_refl _
  · exact (List.dropWhile_sublist _).length_le

theorem length_le_of_bounds? {cs rest : List Char} {lo : Nat} {hi : Option Nat}
    (h : bounds? cs = some (lo, hi, rest)) : rest.length ≤ cs.length := by
  unfold bounds? at h
  have h₁ := length_number?_le cs
  split at h
  · rename_i heq
    rw [heq] at h₁
    cases h
    simp only [List.length_cons] at h₁
    omega
  · rename_i mid heq
    have h₂ := length_number?_le mid
    rw [heq] at h₁
    split at h
    · rename_i heq'
      rw [heq'] at h₂
      cases h
      simp only [List.length_cons] at h₁ h₂
      omega
    · cases h
  · cases h

theorem length_countToken_le (lo : Nat) (hi : Option Nat) (cs : List Char) :
    (countToken lo hi cs).2.length ≤ cs.length := by
  unfold countToken
  split <;> simp

theorem length_le_of_next {f : Flags} {canCount : Bool} {c : Char} {cs rest : List Char}
    {t : Token} (h : next f canCount c cs = .ok (t, rest)) : rest.length ≤ cs.length := by
  have hc (lo : Nat) (hi : Option Nat) (l : List Char)
      (h : (Except.ok (countToken lo hi l) : Except RegexError _) = .ok (t, rest)) :
      rest.length ≤ l.length := by
    have := length_countToken_le lo hi l
    rw [Except.ok.inj h] at this
    exact this
  unfold next at h
  split at h
  · split at h
    · cases h
    · split at h <;> cases h <;> simp
  · cases h; exact Nat.le_refl _
  · cases h; exact Nat.le_refl _
  · cases h; exact Nat.le_refl _
  · split at h <;> cases h
    · simp only [List.length_cons]; omega
    · simp only [List.length_cons]; omega
    · exact Nat.le_refl _
  · cases h; exact Nat.le_refl _
  · cases h; exact Nat.le_refl _
  · exact hc _ _ _ h
  · exact hc _ _ _ h
  · exact hc _ _ _ h
  · cases hb : Bracket.read f.ignoreCase cs with
    | error e => simp [hb, bind, Except.bind] at h
    | ok x =>
      simp only [hb, bind, Except.bind, Except.ok.injEq, Prod.mk.injEq] at h
      rw [← h.2]
      exact Bracket.length_le_of_read hb
  · split at h
    · rename_i hb
      split at hb
      · exact Nat.le_trans (hc _ _ _ h) (length_le_of_bounds? hb)
      · cases hb
    · cases h; exact Nat.le_refl _
  · cases h; exact Nat.le_refl _

/-- The tokens of a text; `canCount` says that a count may stand at its beginning. -/
def readFrom (f : Flags) (canCount : Bool) : List Char → Except RegexError (List Token)
  | [] => .ok []
  | c :: cs =>
    match _h : next f canCount c cs with
    | .error e => .error e
    | .ok (t, rest) => (readFrom f t.countable rest).map (t :: ·)
termination_by cs => cs.length
decreasing_by exact Nat.lt_succ_of_le (length_le_of_next _h)

/-- The tokens of a regex text. -/
def read (f : Flags) (cs : List Char) : Except RegexError (List Token) := readFrom f false cs

end Token

end PathGlob
