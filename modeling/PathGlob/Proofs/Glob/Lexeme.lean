import PathGlob.Glob.Scan
import PathGlob.Proofs.Regex.Letters

/-!
# Lexemes of a pattern

Outside bracket classes a scan writes a pattern from few kinds of regex text, the `Lexeme`s. Each of
them begins in a way that the text before it cannot swallow, so a row of lexemes is read back one by
one, whatever the order: `Lexeme.readFrom_write`.
-/

namespace PathGlob

/-- A unit of the regex text of a pattern. -/
inductive Lexeme where
  /-- A character that stands for itself. -/
  | char (c : Char)
  /-- `.`: one character. -/
  | dot
  /-- `.*`: any run of characters. -/
  | dots
  /-- Any run of characters within one segment. -/
  | run
  | separator (lenient : Bool)
  | globstar
  /-- The end of a group at which it opens. -/
  | opening (g : Group)
  | bar
  /-- The end of a group at which it closes. -/
  | closing (g : Group)
  deriving DecidableEq, Repr

namespace Lexeme

variable (s : Separator) (f : Flags)

/-- The piece that a lexeme is. -/
def piece : Lexeme → Piece
  | char c => .text (if Symbol.ofChar s c = .plain then [c] else ['\\', c])
  | dot => .text ['.']
  | dots => .text ['.', '*']
  | run => .text (['('] ++ s.nonSeparatorRun ++ [')'])
  | separator lenient => .separator lenient
  | globstar => .globstar
  | opening g => .text g.opening
  | bar => .text ['|']
  | closing g => .text (g.closing s)

/-- The regex text of a lexeme. -/
def write (l : Lexeme) : List Char := (l.piece s).write s

/-- The tokens of `Separator.nonSeparatorRun` in a group. -/
def runTokens : List Token :=
  [.openGroup, .set (s.others f.ignoreCase), .count 0 none true, .close]

/-- The quantifier after a group. -/
def quantifier : Group → List Token
  | .marked .atMostOne => [.count 0 (some 1) true]
  | .marked .anyNumber => [.count 0 none true]
  | .marked .atLeastOne => [.count 1 none true]
  | .marked .exactlyOne => [.count 1 (some 1) true]
  | .marked .negated => runTokens s f
  | .bare => []

/-- The set of characters that a character of a glob stands for. A character with a meaning is
written with a backslash. -/
def letter (c : Char) : CharSet :=
  if Symbol.ofChar s c = .plain then Token.letterSet f c else .single c

/-- The tokens of a lexeme. -/
def tokens : Lexeme → List Token
  | char c => [.set (letter s f c)]
  | dot => [.set (Token.dotSet f)]
  | dots => [.set (Token.dotSet f), .count 0 none true]
  | run => runTokens s f
  | separator lenient =>
    .set (.single s.char) ::
      match s, lenient with
      | .posix, false => []
      | .posix, true => [.count 0 (some 1) true]
      | .windows, lenient => [.count 1 none !lenient]
  | globstar =>
    [.openGroup, .openGroup, .set (s.others f.ignoreCase), .count 0 none true, .openGroup,
      .set (.single s.char), .bar, .edge (Token.endEdge f), .close, .close,
      .count 0 none true, .close]
  | opening (.marked .negated) => [.openNotAhead]
  | opening _ => [.openGroup]
  | bar => [.bar]
  | closing g => .close :: quantifier s f g

variable {s f}

@[simp] theorem body_map_piece (ls : List Lexeme) :
    Piece.body s (ls.map (piece s)) = ls.flatMap (write s) := by
  rw [Piece.body, List.flatMap_map]
  rfl

/-! ### Characters -/

theorem escaped?_of_ne_plain {c : Char} (h : Symbol.ofChar s c ≠ .plain) :
    ClassAtom.escaped? c = some (.char c) := by
  unfold Symbol.ofChar at h
  -- apart from the separator, these are punctuation, and escapes of punctuation are literal
  split at h
  · rename_i hc; rw [hc]; exact s.escaped?_char
  · split at h <;> first | rfl | exact absurd rfl h

theorem caseless_of_ne_plain {c : Char} (h : Symbol.ofChar s c ≠ .plain) :
    Unicode.Caseless c.toNat := by
  unfold Symbol.ofChar at h
  split at h
  · rename_i hc; rw [hc]; exact s.caseless_char
  · split at h <;> first | decide +kernel | exact absurd rfl h

/-- The backslash makes no difference to what a character stands for. -/
theorem contains_letter (c d : Char) :
    (letter s f c).contains d = (Token.letterSet f c).contains d := by
  unfold letter
  split
  · rfl
  · rename_i h
    rw [Bool.eq_iff_iff, CharSet.contains_single, Token.letterSet]
    split
    · exact (CharSet.contains_anyCase_single (caseless_of_ne_plain h) d).symm
    · exact CharSet.contains_single.symm

theorem letter_eq_single (hf : f.ignoreCase = false) (c : Char) : letter s f c = .single c := by
  rw [letter, Token.letterSet, hf, if_neg Bool.false_ne_true, ite_self]

theorem nesting_letter_le (c : Char) : (letter s f c).nesting ≤ 1 := by
  unfold letter
  split
  · exact (Token.nesting_letterSet f c).trans_le (Bool.toNat_le _)
  · exact Nat.zero_le _

theorem ne_of_plain {c d : Char} (h : Symbol.ofChar s c = .plain)
    (hd : Symbol.ofChar s d ≠ .plain) : c ≠ d := by
  rintro rfl
  exact hd h

theorem next_of_plain {c : Char} (h : Symbol.ofChar s c = .plain) (b : Bool) (rest : List Char) :
    Token.next f b c rest = .ok (.set (Token.letterSet f c), rest) := by
  unfold Token.next
  -- every character with a meaning in regexes has one in globs
  split <;> first
    | rfl
    | exact absurd rfl (ne_of_plain h (by cases s <;> decide))

/-! ### Reading a row of lexemes -/

theorem fresh_write (l : Lexeme) (rest : List Char) : Token.Fresh (l.write s ++ rest) := by
  have hs (c : Char) (cs : List Char) (h : c ≠ '?') (h' : c ≠ '\x7b') :
      Token.Fresh (c :: cs) := ⟨by simpa using h, by simpa using h'⟩
  cases l with
  | char c =>
    simp only [write, piece, Piece.write]
    split
    · rename_i h
      exact hs c _ (ne_of_plain h (by cases s <;> decide)) (ne_of_plain h (by cases s <;> decide))
    · exact hs _ _ (by decide) (by decide)
  | dot | dots | run | globstar | bar => exact hs _ _ (by decide) (by decide)
  | separator lenient => cases s <;> exact hs _ _ (by decide) (by decide)
  | opening g | closing g =>
    cases g with
    | bare => exact hs _ _ (by decide) (by decide)
    | marked op => cases op <;> exact hs _ _ (by decide) (by decide)

theorem fresh_flatMap_write (ls : List Lexeme) {rest : List Char} (h : Token.Fresh rest) :
    Token.Fresh (ls.flatMap (write s) ++ rest) := by
  cases ls with
  | nil => exact h
  | cons l ls =>
    rw [List.flatMap_cons, List.append_assoc]
    exact fresh_write l _

open Token in
theorem readFrom_run {b : Bool} {rest : List Char} (h : Fresh rest) :
    readFrom f b (['('] ++ s.nonSeparatorRun ++ [')'] ++ rest) =
      onto (runTokens s f) (readFrom f false rest) := by
  have h₁ : Fresh ('[' :: '^' :: '\\' :: s.char :: ']' :: '*' :: ')' :: rest) :=
    ⟨by simp, by simp⟩
  have h₂ : Fresh (')' :: rest) := ⟨by simp, by simp⟩
  change readFrom f b ('(' :: '[' :: '^' :: '\\' :: s.char :: ']' :: '*' :: ')' :: rest) = _
  rw [readFrom_open h₁, readFrom_others, readFrom_star h₂, readFrom_close, readFrom_of_fresh h]
  simp only [onto_onto]
  rfl

open Token in
theorem readFrom_closing (g : Group) {b : Bool} {rest : List Char} (h : Fresh rest) :
    readFrom f b (g.closing s ++ rest) = onto (tokens s f (closing g)) (readFrom f false rest) := by
  cases g with
  | bare =>
    change readFrom f b (')' :: rest) = _
    rw [readFrom_close, readFrom_of_fresh h]
    rfl
  | marked op =>
    cases op with
    | atMostOne =>
      change readFrom f b (')' :: '?' :: rest) = _
      rw [readFrom_close, readFrom_option h, onto_onto]
      rfl
    | anyNumber =>
      change readFrom f b (')' :: '*' :: rest) = _
      rw [readFrom_close, readFrom_star h, onto_onto]
      rfl
    | atLeastOne =>
      change readFrom f b (')' :: '+' :: rest) = _
      rw [readFrom_close, readFrom_plus h, onto_onto]
      rfl
    | exactlyOne =>
      change readFrom f b (')' :: '\x7b' :: '1' :: '\x7d' :: rest) = _
      rw [readFrom_close, readFrom_once h, onto_onto]
      rfl
    | negated =>
      change readFrom f b (')' :: (['('] ++ s.nonSeparatorRun ++ [')'] ++ rest)) = _
      rw [readFrom_close, readFrom_run h, onto_onto]
      rfl

open Token in
theorem readFrom_globstar {b : Bool} {rest : List Char} (h : Fresh rest) :
    readFrom f b (s.globstar ++ rest) = onto (tokens s f globstar) (readFrom f false rest) := by
  have h₁ : Fresh (')' :: rest) := ⟨by simp, by simp⟩
  change readFrom f b ('(' :: '(' :: '?' :: ':' :: '[' :: '^' :: '\\' :: s.char :: ']' :: '*' ::
    '(' :: '?' :: ':' :: '\\' :: s.char :: '|' :: '$' :: ')' :: ')' :: '*' :: ')' :: rest) = _
  rw [readFrom_open ⟨by simp, by simp⟩, readFrom_nonCapturing, readFrom_others,
    readFrom_star ⟨by simp, by simp⟩, readFrom_nonCapturing, readFrom_escape s.escaped?_char,
    readFrom_bar, readFrom_end, readFrom_close, readFrom_close, readFrom_star h₁, readFrom_close,
    readFrom_of_fresh h]
  simp only [onto_onto]
  rfl

open Token in
theorem readFrom_separator (lenient : Bool) {b : Bool} {rest : List Char} (h : Fresh rest) :
    readFrom f b ((separator lenient).write s ++ rest) =
      onto (tokens s f (separator lenient)) (readFrom f false rest) := by
  cases s with
  | posix =>
    cases lenient with
    | false =>
      change readFrom f b ('\\' :: '/' :: rest) = _
      rw [readFrom_escape rfl, readFrom_of_fresh h]
      rfl
    | true =>
      change readFrom f b ('\\' :: '/' :: '?' :: rest) = _
      rw [readFrom_escape rfl, readFrom_option h, onto_onto]
      rfl
  | windows =>
    cases lenient with
    | false =>
      change readFrom f b ('\\' :: '\\' :: '+' :: rest) = _
      rw [readFrom_escape rfl, readFrom_plus h, onto_onto]
      rfl
    | true =>
      change readFrom f b ('\\' :: '\\' :: '+' :: '?' :: rest) = _
      rw [readFrom_escape rfl, readFrom_lazyPlus, onto_onto]
      rfl

open Token in
theorem readFrom_lexeme (l : Lexeme) {b : Bool} {rest : List Char} (h : Fresh rest) :
    readFrom f b (l.write s ++ rest) = onto (l.tokens s f) (readFrom f false rest) := by
  cases l with
  | char c =>
    simp only [write, piece, Piece.write]
    split
    · rename_i hp
      rw [List.singleton_append, readFrom_of_next (next_of_plain hp b rest), readFrom_of_fresh h,
        tokens, letter, if_pos hp]
    · rename_i hp
      change readFrom f b ('\\' :: c :: rest) = _
      rw [readFrom_escape (escaped?_of_ne_plain hp), readFrom_of_fresh h, tokens, letter,
        if_neg hp]
  | dot =>
    change readFrom f b ('.' :: rest) = _
    rw [readFrom_dot, readFrom_of_fresh h]
    rfl
  | dots =>
    change readFrom f b ('.' :: '*' :: rest) = _
    rw [readFrom_dot, readFrom_star h, onto_onto]
    rfl
  | run => exact readFrom_run h
  | separator lenient => exact readFrom_separator lenient h
  | globstar => exact readFrom_globstar h
  | opening g =>
    -- only a negated group opens in another way
    have ho : readFrom f b ('(' :: rest) = onto [.openGroup] (readFrom f false rest) :=
      readFrom_open h
    cases g with
    | bare => exact ho
    | marked op => cases op <;> first | exact ho | exact readFrom_lookahead
  | bar => exact readFrom_bar
  | closing g => exact readFrom_closing g h

/-- **A row of lexemes reads as the row of their tokens.** -/
theorem readFrom_write (ls : List Lexeme) {rest : List Char} (h : Token.Fresh rest) :
    Token.readFrom f false (ls.flatMap (write s) ++ rest) =
      Token.onto (ls.flatMap (tokens s f)) (Token.readFrom f false rest) := by
  induction ls with
  | nil => simp
  | cons l ls ih =>
    rw [List.flatMap_cons, List.append_assoc, readFrom_lexeme l (fresh_flatMap_write ls h), ih,
      Token.onto_onto, List.flatMap_cons]

end Lexeme

open Regex in
theorem Matcher.read_lexemes (s : Separator) {f : Flags} (ls : List Lexeme) {rs : List Regex}
    {d : Nat} (hB : Builds d (ls.flatMap (Lexeme.tokens s f.inlined)) rs) (hd : d ≤ maxDepth)
    (hm : f.multiLine = false) :
    Regex.read (f.inlineGroup ++ anchored (ls.flatMap (Lexeme.write s))) =
      .ok (seqs (.edge .textStart :: rs ++ [.edge .textEnd])) := by
  have h₀ : Token.Fresh [] := ⟨by simp, by simp⟩
  refine read_anchored ?_ (Lexeme.readFrom_write ls ⟨by simp, by simp⟩) hB hd hm
  simpa using Lexeme.fresh_flatMap_write ls h₀

open Regex in
theorem Matcher.exists_compile_lexemes (s : Separator) {f : Flags} (ls : List Lexeme)
    {rs : List Regex} {d : Nat} (hB : Builds d (ls.flatMap (Lexeme.tokens s f.inlined)) rs)
    (hd : d ≤ maxDepth) (hn : ∀ r ∈ rs, r.nesting < maxNesting) (hm : f.multiLine = false) :
    ∃ m, compile (String.ofList (anchored (ls.flatMap (Lexeme.write s)))) f = .ok m ∧
      m.regex = seqs (.edge .textStart :: rs ++ [.edge .textEnd]) :=
  exists_compile_of_read (read_lexemes s ls hB hd hm) hn

/-- **The matcher of anchored lexemes**, if their tokens build `rs`. -/
theorem Matcher.exists_lexemes (s : Separator) {f : Flags} (ls : List Lexeme) {rs : List Regex}
    {d : Nat} (hB : Regex.Builds d (ls.flatMap (Lexeme.tokens s f.inlined)) rs)
    (hd : d ≤ Regex.maxDepth) (hn : ∀ r ∈ rs, r.nesting < Regex.maxNesting)
    (hl : ∀ r ∈ rs, r.looksAhead = false) (hm : f.multiLine = false) :
    ∃ m, compile (String.ofList (anchored (ls.flatMap (Lexeme.write s)))) f = .ok m ∧
      ∀ t, m.accepts t = true ↔ (Regex.seqs rs).Matches [] t [] := by
  obtain ⟨m, hc, hregex⟩ := exists_compile_lexemes s ls hB hd hn hm
  exact ⟨m, hc, accepts_iff_of_anchored hc hregex hl⟩

end PathGlob
