import PathGlob.Regex.CharSet
import PathGlob.Regex.Error

/-!
# Bracket classes in regex texts

A bracket class lists characters, ranges, escapes and nested classes; between two lists there may
be an operator: `&&` (intersection), `--` (difference) or `~~` (symmetric difference). The three
have the same precedence and group from the left.

`Bracket.read` reads a class after its `[` and returns the rest of the text. It keeps a stack of
open classes and looks at one character after the other.
-/

namespace PathGlob

/-- A member of a class or an end of a range, as written. -/
inductive ClassAtom where
  | char (c : Char)
  | named (s : CharSet)
  deriving DecidableEq, Repr

/-- The meaning of a backslash before `c`. -/
def ClassAtom.escaped? (c : Char) : Option ClassAtom :=
  match c with
  | 'd' => some (named .digit)
  | 's' => some (named .space)
  | 'w' => some (named .word)
  | 't' => some (char '\t')
  | c => if c.isAlphanum then none else some (char c)

/-- The set of a member of a class. -/
def ClassAtom.set : ClassAtom → CharSet
  | char c => .single c
  | named s => s

/-- An operator between two lists of members. -/
inductive SetOperator where
  | inter
  | diff
  | symmDiff
  deriving DecidableEq, Repr

/-- The set that an operator makes of two. -/
def SetOperator.apply : SetOperator → CharSet → CharSet → CharSet
  | inter => .inter
  | diff => .diff
  | symmDiff => .symmDiff

/-- A class that has been opened and not closed yet. -/
structure OpenClass where
  /-- The class begins with `^`. -/
  negated : Bool
  /-- What stands to the left of the last operator, and that operator. -/
  left : Option (CharSet × SetOperator) := none
  /-- The members since the last operator. -/
  members : CharSet := .empty
  deriving DecidableEq, Repr

namespace OpenClass

variable (ignoreCase : Bool)

/-- A set up to case, if case is ignored. -/
def caseClosed (s : CharSet) : CharSet := if ignoreCase then .anyCase s else s

/-- Adds a set to the members. -/
def add (k : OpenClass) (s : CharSet) : OpenClass := { k with members := .union k.members s }

/-- The set of all that has been read so far. -/
def total (k : OpenClass) : CharSet :=
  match k.left with
  | none => k.members
  | some (l, op) => op.apply (caseClosed ignoreCase l) (caseClosed ignoreCase k.members)

/-- An operator has been read. -/
def operate (k : OpenClass) (op : SetOperator) : OpenClass :=
  { k with left := some (k.total ignoreCase, op), members := .empty }

/-- The set of the class when it is closed. -/
def close (k : OpenClass) : CharSet :=
  let s := caseClosed ignoreCase (k.total ignoreCase)
  if k.negated then .compl s else s

end OpenClass

namespace Bracket

/-- Opens a class after its `[`. A `^` negates it; then `-`s are members, and without any of them
a `]` is. -/
def enter (cs : List Char) : OpenClass × List Char :=
  let (negated, cs) := match cs with
    | '^' :: rest => (true, rest)
    | _ => (false, cs)
  let k : OpenClass := { negated }
  match cs with
  | '-' :: rest => (k.add (.single '-'), rest.dropWhile (· == '-'))
  | ']' :: rest => (k.add (.single ']'), rest)
  | _ => (k, cs)

/-- Reads one character or escape. -/
def readAtom : List Char → Except RegexError (ClassAtom × List Char)
  | [] => .error .unclosedClass
  | ['\\'] => .error .unclosedClass
  | '\\' :: c :: rest =>
    match ClassAtom.escaped? c with
    | some a => .ok (a, rest)
    | none => .error .badEscape
  | c :: rest => .ok (.char c, rest)

/-- Reads a range or a single member. A `-` makes a range unless `]` or another `-` follows. -/
def readMember (cs : List Char) : Except RegexError (CharSet × List Char) := do
  let (a, rest) ← readAtom cs
  match rest with
  | '-' :: after =>
    if after.head? = some ']' || after.head? = some '-' then .ok (a.set, rest)
    else
      let (b, rest) ← readAtom after
      match a, b with
      | .char lo, .char hi =>
        if lo.toNat ≤ hi.toNat then .ok (.range lo hi, rest) else .error .badRange
      | _, _ => .error .badRange
  | _ => .ok (a.set, rest)

/-- What comes next in a class. -/
inductive Event where
  | opened (k : OpenClass)
  | closed
  | operated (op : SetOperator)
  | member (s : CharSet)

/-- Reads what comes next in a class. -/
def next (cs : List Char) : Except RegexError (Event × List Char) :=
  match cs with
  | '[' :: rest => let (k, rest) := enter rest; .ok (.opened k, rest)
  | ']' :: rest => .ok (.closed, rest)
  | '&' :: '&' :: rest => .ok (.operated .inter, rest)
  | '-' :: '-' :: rest => .ok (.operated .diff, rest)
  | '~' :: '~' :: rest => .ok (.operated .symmDiff, rest)
  | cs => do
    let (s, rest) ← readMember cs
    .ok (.member s, rest)

theorem length_enter_le (cs : List Char) : (enter cs).2.length ≤ cs.length := by
  have hd : ∀ l : List Char, (l.dropWhile (· == '-')).length ≤ l.length := fun l =>
    (List.dropWhile_sublist _).length_le
  unfold enter
  split
  all_goals split <;> simp_all <;> grind

theorem length_lt_of_readAtom {cs rest : List Char} {a : ClassAtom}
    (h : readAtom cs = .ok (a, rest)) : rest.length < cs.length := by
  unfold readAtom at h
  split at h
  · cases h
  · cases h
  · split at h <;> cases h
    simp only [List.length_cons]; omega
  · cases h
    simp

theorem length_lt_of_readMember {cs rest : List Char} {s : CharSet}
    (h : readMember cs = .ok (s, rest)) : rest.length < cs.length := by
  unfold readMember at h
  cases ha : readAtom cs with
  | error e => simp [ha, bind, Except.bind] at h
  | ok x =>
    obtain ⟨a, mid⟩ := x
    have h₁ := length_lt_of_readAtom ha
    simp only [ha, bind, Except.bind] at h
    split at h
    · split at h
      · cases h; exact h₁
      · rename_i after _
        cases hb : readAtom after with
        | error e => simp [hb] at h
        | ok y =>
          obtain ⟨b, last⟩ := y
          have h₂ := length_lt_of_readAtom hb
          simp only [hb] at h
          simp only [List.length_cons] at h₁
          split at h
          · split at h <;> cases h
            omega
          · cases h
    · cases h; exact h₁

theorem length_lt_of_next {cs rest : List Char} {e : Event} (h : next cs = .ok (e, rest)) :
    rest.length < cs.length := by
  unfold next at h
  split at h
  · rename_i tail
    cases h
    exact Nat.lt_succ_of_le (length_enter_le tail)
  · cases h; simp
  · cases h; simp only [List.length_cons]; omega
  · cases h; simp only [List.length_cons]; omega
  · cases h; simp only [List.length_cons]; omega
  · cases hm : readMember cs with
    | error e => simp [hm, bind, Except.bind] at h
    | ok x =>
      obtain ⟨s, tail⟩ := x
      simp only [hm, bind, Except.bind, Except.ok.injEq, Prod.mk.injEq] at h
      obtain ⟨-, rfl⟩ := h
      exact length_lt_of_readMember hm

/-- Reads to the end of the class `k`, which is nested in the classes `outer`. -/
def readFrom (ignoreCase : Bool) (k : OpenClass) (outer : List OpenClass) (cs : List Char) :
    Except RegexError (CharSet × List Char) :=
  match _h : next cs with
  | .error e => .error e
  | .ok (.opened inner, rest) => readFrom ignoreCase inner (k :: outer) rest
  | .ok (.closed, rest) =>
    match outer with
    | [] => .ok (k.close ignoreCase, rest)
    | k' :: outer => readFrom ignoreCase (k'.add (k.close ignoreCase)) outer rest
  | .ok (.operated op, rest) => readFrom ignoreCase (k.operate ignoreCase op) outer rest
  | .ok (.member s, rest) => readFrom ignoreCase (k.add s) outer rest
termination_by cs.length
decreasing_by all_goals exact length_lt_of_next _h

/-- Reads a class after its `[`. -/
def read (ignoreCase : Bool) (cs : List Char) : Except RegexError (CharSet × List Char) :=
  readFrom ignoreCase (enter cs).1 [] (enter cs).2

theorem length_le_of_readFrom {ignoreCase : Bool} {k : OpenClass} {outer : List OpenClass}
    {cs rest : List Char} {s : CharSet} (h : readFrom ignoreCase k outer cs = .ok (s, rest)) :
    rest.length ≤ cs.length := by
  fun_induction readFrom ignoreCase k outer cs with
  | case1 => cases h
  | case2 _ _ _ _ _ hn ih => exact Nat.le_trans (ih h) (Nat.le_of_lt (length_lt_of_next hn))
  | case3 _ _ _ hn => cases h; exact Nat.le_of_lt (length_lt_of_next hn)
  | case4 _ _ _ hn _ _ ih => exact Nat.le_trans (ih h) (Nat.le_of_lt (length_lt_of_next hn))
  | case5 _ _ _ _ _ hn ih => exact Nat.le_trans (ih h) (Nat.le_of_lt (length_lt_of_next hn))
  | case6 _ _ _ _ _ hn ih => exact Nat.le_trans (ih h) (Nat.le_of_lt (length_lt_of_next hn))

theorem length_le_of_read {ignoreCase : Bool} {cs rest : List Char} {s : CharSet}
    (h : read ignoreCase cs = .ok (s, rest)) : rest.length ≤ cs.length :=
  Nat.le_trans (length_le_of_readFrom h) (length_enter_le cs)

end Bracket

end PathGlob
