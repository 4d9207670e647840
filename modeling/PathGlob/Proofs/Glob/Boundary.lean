import Mathlib.Data.List.Chain
import PathGlob.Proofs.Glob.Moves

/-!
# Where segments begin

A globstar looks back at one character: it must stand at the beginning of the glob or after a
separator. That character has always ended a segment. A separator that the scan reads ends one, and
the only text with a separator in it that a step uses up are a run of separators and a globstar.

* `Scan.ResumesAtBoundary`: the scan goes on right after a separator;
* `Scan.ends_step`: a step before such a place ends a segment;
* `Scan.isChain_pieces`: a globstar stands at the beginning of a segment.
-/

namespace PathGlob

/-- The piece ends a segment. -/
def Piece.Ends : Piece → Prop
  | text _ => False
  | separator _ | globstar => True

/-- What may stand before what: a globstar is at the beginning of a segment. -/
def Piece.Precedes (p p' : Piece) : Prop := p' = .globstar → p.Ends

namespace Scan

/-- The scan, which is after the character `b`, goes on right after a separator or at the beginning,
when it has passed over `k` more characters. -/
def ResumesAtBoundary (s : Separator) (b : Option Char) : Nat → List Char → Prop
  | 0, _ => atBoundary s b = true
  | _ + 1, [] => False
  | k + 1, c :: cs => ResumesAtBoundary s (some c) k cs

variable {o : Options} {s : Separator} {b : Option Char} {x : Context} {c d : Char} {k : Nat}
  {cs rest : List Char}

theorem not_resumes_of_ne (h : c ≠ s.char) (cs : List Char) :
    ¬ResumesAtBoundary s (some c) 0 cs := by
  simpa [ResumesAtBoundary, atBoundary] using h

theorem resumes_append_iff (taken left : List Char) :
    ResumesAtBoundary s b taken.length (taken ++ left) ↔
      ResumesAtBoundary s (taken.getLast?.or b) 0 left := by
  induction taken generalizing b with
  | nil => rfl
  | cons c taken ih =>
    have hlast : taken.getLast?.or (some c) = (c :: taken).getLast?.or b := by
      rw [List.getLast?_cons]
      cases taken.getLast? <;> rfl
    rw [← hlast]
    exact ih

theorem not_resumes_append {taken : List Char} (h : taken.getLast?.or b = some d)
    (hd : d ≠ s.char) (left : List Char) :
    ¬ResumesAtBoundary s b taken.length (taken ++ left) := by
  rw [resumes_append_iff, h]
  exact not_resumes_of_ne hd left

/-! ### Steps -/

theorem ends_stars (hb : ResumesAtBoundary o.separator (some '*') (stars o b x rest).skip rest) :
    (stars o b x rest).piece.Ends := by
  obtain ⟨n, left, rfl, hs⟩ := exists_stars rest
  have hlast : (List.replicate n '*').getLast?.or (some '*') = some '*' := by
    cases n <;> simp [List.getLast?_replicate]
  have hrun := not_resumes_append hlast o.separator.char_ne_star.symm left
  rw [List.length_replicate] at hrun
  revert hb
  simp only [stars, length_takeWhile_stars hs]
  split
  · exact fun hb => absurd hb hrun
  · split
    · exact fun _ => trivial
    · exact fun hb => absurd hb hrun

/-- The look-up of a class name goes on after `:` or `]`. -/
theorem not_resumes_className (h : (className x rest).skip ≠ 0) :
    ¬ResumesAtBoundary s (some c) (className x rest).skip rest := by
  by_cases hr : rest.head? = some ':'
  · obtain ⟨tail, rfl⟩ := List.head?_eq_some_iff.1 hr
    by_cases ht : ':' ∈ tail
    · obtain ⟨name, after, rfl, hname⟩ := List.eq_append_cons_of_mem ht
      rw [className_append hname]
      split
      · rename_i ha
        obtain ⟨left, rfl⟩ := List.head?_eq_some_iff.1 ha
        have hlast : (':' :: (name ++ [':', ']'])).getLast?.or (some c) = some ']' := by
          simp [List.getLast?_cons, List.getLast?_append]
        have hne : ']' ≠ s.char := by cases s <;> decide
        simpa using not_resumes_append hlast hne left
      · have hlast : (':' :: (name ++ [':'])).getLast?.or (some c) = some ':' := by
          simp [List.getLast?_cons, List.getLast?_append]
        have hne : ':' ≠ s.char := by cases s <;> decide
        simpa using not_resumes_append hlast hne after
    · rw [className_of_not_mem ht] at h
      exact absurd rfl h
  · rw [className_of_head? hr] at h
    exact absurd rfl h

/-- **The scan goes on after a separator only if a segment has ended there.** -/
theorem ends_step (hb : ResumesAtBoundary o.separator (some c) (step o b x c rest).skip rest) :
    (step o b x c rest).piece.Ends := by
  by_cases hc : c = o.separator.char
  · have hs : Symbol.ofChar o.separator c = .separator := Symbol.ofChar_eq_separator_iff.2 hc
    simp only [step, hs, separator]
    split <;> trivial
  -- a step that uses up nothing goes on after `c` itself
  have hskip : (step o b x c rest).skip ≠ 0 := by
    intro h
    rw [h] at hb
    exact not_resumes_of_ne hc rest hb
  by_cases hname : Symbol.ofChar o.separator c = .openBracket ∧ x.inClass = true
  · have hstep : step o b x c rest = className x rest := by
      simp only [step, hname.1, hname.2, ↓reduceIte]
    rw [hstep] at hb hskip
    exact absurd hb (not_resumes_className hskip)
  obtain ⟨op, hs⟩ : ∃ op, Symbol.ofChar o.separator c = .operator op := by
    by_contra hop
    have hx : Symbol.ofChar o.separator c = .openBracket → x.inClass = false := fun hs =>
      Bool.eq_false_iff.2 fun hx => hname ⟨hs, hx⟩
    exact hskip (skip_eq_zero hx hc (not_exists.1 hop))
  by_cases hg : opensGroup o x rest op = true
  · have hstep : step o b x c rest = openGroup x op := by simp only [step, hs, hg, ↓reduceIte]
    rw [opensGroup, Bool.and_eq_true, Bool.and_eq_true] at hg
    obtain ⟨left, rfl⟩ := List.head?_eq_some_iff.1 (eq_of_beq hg.1.2)
    have hlast : ['('].getLast?.or (some c) = some '(' := rfl
    rw [hstep] at hb
    exact absurd hb (not_resumes_append hlast o.separator.char_ne_openParen.symm left)
  · have hstep : step o b x c rest = operator o b x rest op := by
      simp only [step, hs]
      rw [if_neg hg]
    rw [hstep] at hb hskip ⊢
    cases op with
    | anyNumber =>
      obtain rfl := Symbol.char?_ofChar o.separator c '*' (by rw [hs]; rfl)
      exact ends_stars hb
    | atMostOne | negated =>
      refine absurd ?_ hskip
      simp only [operator]
      split <;> rfl
    | atLeastOne | exactlyOne => exact absurd rfl hskip

theorem atBoundary_of_globstar (h : (step o b x c rest).piece = .globstar) :
    atBoundary o.separator b = true := by
  cases hs : Symbol.ofChar o.separator c with
  | operator op =>
    by_cases hg : opensGroup o x rest op = true
    · simp only [step, hs, hg, ↓reduceIte, openGroup] at h
      cases h
    · simp only [step, hs] at h
      rw [if_neg hg] at h
      cases op with
      | anyNumber =>
        simp only [operator, stars] at h
        split at h
        · cases h
        · split at h
          · rename_i hstars
            rw [Bool.and_eq_true, Bool.and_eq_true] at hstars
            exact hstars.1.2
          · cases h
      | atMostOne | negated =>
        simp only [operator] at h
        split at h <;> cases h
      | atLeastOne | exactlyOne => cases h
  | separator =>
    simp only [step, hs, separator] at h
    split at h <;> cases h
  | openBracket =>
    simp only [step, hs, className] at h
    split at h
    · split at h
      · split at h <;> cases h
      · cases h
    · split at h <;> cases h
  | plain | special | openParen | closeParen | bar | closeBracket | openBrace | closeBrace
  | comma =>
    simp only [step, hs, openParen, closeParen] at h
    first | cases h | split at h <;> cases h

/-! ### Scans -/

/-- **A globstar stands at the beginning of a segment**, if `p` comes before the scan. -/
theorem isChain_pieces {p : Piece} (hp : ResumesAtBoundary o.separator b k cs → p.Ends) :
    (p :: (run o b x k cs).pieces).IsChain Piece.Precedes := by
  induction cs generalizing b x k p with
  | nil => exact .singleton p
  | cons c rest ih =>
    cases k with
    | zero =>
      rw [pieces_run_cons]
      exact List.isChain_cons_cons.2 ⟨fun h => hp (atBoundary_of_globstar h), ih ends_step⟩
    | succ k => exact ih hp

end Scan

end PathGlob
