import PathGlob.Unicode.Space
import PathGlob.Unicode.Digit
import PathGlob.Unicode.Word
import PathGlob.Unicode.Fold

/-!
# Sets of characters

A `CharSet` is an expression for a set of characters, as written in a bracket class, and
`CharSet.contains` decides membership in it.
-/

namespace PathGlob

/-- A set of characters. -/
inductive CharSet where
  | empty
  /-- The characters from `lo` to `hi`, both included. -/
  | range (lo hi : Char)
  /-- The decimal digits. -/
  | digit
  /-- White space. -/
  | space
  /-- The characters that words are made of. -/
  | word
  | compl (a : CharSet)
  | union (a b : CharSet)
  | inter (a b : CharSet)
  | diff (a b : CharSet)
  /-- The characters in one of two sets, but not in both. -/
  | symmDiff (a b : CharSet)
  /-- The characters that are equal up to case to one in the set. -/
  | anyCase (a : CharSet)
  deriving DecidableEq, Repr

namespace CharSet

/-- The set of one character. -/
def single (c : Char) : CharSet := range c c

/-- All characters. -/
def all : CharSet := compl empty

/-- The character is in the set. -/
def contains : CharSet → Char → Bool
  | empty, _ => false
  | range lo hi, c => lo.toNat ≤ c.toNat && c.toNat ≤ hi.toNat
  | digit, c => Unicode.isDigit c
  | space, c => Unicode.isSpace c
  | word, c => Unicode.isWord c
  | compl a, c => !a.contains c
  | union a b, c => a.contains c || b.contains c
  | inter a b, c => a.contains c && b.contains c
  | diff a b, c => a.contains c && !b.contains c
  | symmDiff a b, c => a.contains c != b.contains c
  | anyCase a, c => (Unicode.foldedAlike c).any a.contains

theorem contains_single {c d : Char} : (single c).contains d = true ↔ d = c := by
  simp only [single, contains, Bool.and_eq_true, decide_eq_true_eq]
  constructor
  · rintro ⟨h₁, h₂⟩
    exact Char.ext (UInt32.toNat.inj (Nat.le_antisymm h₂ h₁))
  · rintro rfl
    exact ⟨Nat.le_refl _, Nat.le_refl _⟩

end CharSet

end PathGlob
