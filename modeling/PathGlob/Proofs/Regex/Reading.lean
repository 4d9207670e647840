import PathGlob.Glob.Piece
import PathGlob.Proofs.Regex.Bracket
import PathGlob.Proofs.Regex.Nesting

/-!
# Tokens of a regex text

What `Token.readFrom` makes of the texts from which patterns are written, one lemma for each kind of
token. A quantifier and a `(` look at the character after them, and so does the reader at a `{`; the
lemmas ask for a rest that is `Fresh`, which is how every part of a pattern begins.

`Matcher.exists_anchored` puts reading, building and searching together: an anchored text whose
body is read as tokens that build `rs` has a matcher, and it accepts the texts that `rs` match as a
whole.
-/

namespace PathGlob

namespace Token

/-- A text that begins neither with `?` nor with `{`. -/
def Fresh (cs : List Char) : Prop := cs.head? ≠ some '?' ∧ cs.head? ≠ some '\x7b'

/-- Puts tokens before those that are still to be read. -/
def onto (ts : List Token) (x : Except RegexError (List Token)) : Except RegexError (List Token) :=
  x.map (ts ++ ·)

@[simp] theorem onto_onto (ts us : List Token) (x : Except RegexError (List Token)) :
    onto ts (onto us x) = onto (ts ++ us) x := by
  cases x <;> simp [onto, Except.map]

@[simp] theorem onto_nil (x : Except RegexError (List Token)) : onto [] x = x := by
  cases x <;> rfl

@[simp] theorem onto_ok (ts us : List Token) : onto ts (.ok us) = .ok (ts ++ us) := rfl

variable {f : Flags} {b : Bool} {rest : List Char}

theorem readFrom_nil : readFrom f b [] = .ok [] := by rw [readFrom]

theorem readFrom_of_next {c : Char} {cs : List Char} {t : Token}
    (h : next f b c cs = .ok (t, rest)) :
    readFrom f b (c :: cs) = onto [t] (readFrom f t.countable rest) := by
  rw [readFrom]
  split
  · rename_i he; rw [h] at he; cases he
  · rename_i he; rw [h] at he; cases he; rfl

/-- Only a `{` asks whether a count may stand there. -/
theorem readFrom_of_fresh (h : Fresh rest) : readFrom f b rest = readFrom f false rest := by
  cases rest with
  | nil => rw [readFrom_nil, readFrom_nil]
  | cons c cs =>
    have hc : c ≠ '\x7b' := by simpa using h.2
    have hn : next f b c cs = next f false c cs := by
      unfold next
      split <;> first | rfl | exact absurd rfl hc
    rw [readFrom, readFrom, hn]

theorem countToken_of_fresh (lo : Nat) (hi : Option Nat) (h : Fresh rest) :
    countToken lo hi rest = (count lo hi true, rest) := by
  unfold countToken
  split
  · exact absurd rfl h.1
  · rfl

/-! ### One token -/

@[simp] theorem readFrom_start :
    readFrom f b ('^' :: rest) = onto [edge (startEdge f)] (readFrom f true rest) :=
  readFrom_of_next rfl

@[simp] theorem readFrom_end :
    readFrom f b ('$' :: rest) = onto [edge (endEdge f)] (readFrom f true rest) :=
  readFrom_of_next rfl

@[simp] theorem readFrom_dot :
    readFrom f b ('.' :: rest) = onto [set (dotSet f)] (readFrom f true rest) :=
  readFrom_of_next rfl

@[simp] theorem readFrom_bar :
    readFrom f b ('|' :: rest) = onto [bar] (readFrom f false rest) :=
  readFrom_of_next rfl

@[simp] theorem readFrom_close :
    readFrom f b (')' :: rest) = onto [close] (readFrom f true rest) :=
  readFrom_of_next rfl

@[simp] theorem readFrom_nonCapturing :
    readFrom f b ('(' :: '?' :: ':' :: rest) = onto [openGroup] (readFrom f false rest) :=
  readFrom_of_next rfl

@[simp] theorem readFrom_lookahead :
    readFrom f b ('(' :: '?' :: '!' :: rest) = onto [openNotAhead] (readFrom f false rest) :=
  readFrom_of_next rfl

theorem readFrom_open (h : Fresh rest) :
    readFrom f b ('(' :: rest) = onto [openGroup] (readFrom f false rest) := by
  refine readFrom_of_next ?_
  simp only [next]
  split <;> simp_all [Fresh]

theorem readFrom_star (h : Fresh rest) :
    readFrom f b ('*' :: rest) = onto [count 0 none true] (readFrom f false rest) :=
  readFrom_of_next (congrArg Except.ok (countToken_of_fresh 0 none h))

theorem readFrom_plus (h : Fresh rest) :
    readFrom f b ('+' :: rest) = onto [count 1 none true] (readFrom f false rest) :=
  readFrom_of_next (congrArg Except.ok (countToken_of_fresh 1 none h))

@[simp] theorem readFrom_lazyPlus :
    readFrom f b ('+' :: '?' :: rest) = onto [count 1 none false] (readFrom f false rest) :=
  readFrom_of_next rfl

theorem readFrom_option (h : Fresh rest) :
    readFrom f b ('?' :: rest) = onto [count 0 (some 1) true] (readFrom f false rest) :=
  readFrom_of_next (congrArg Except.ok (countToken_of_fresh 0 (some 1) h))

theorem readFrom_once (h : Fresh rest) :
    readFrom f true ('\x7b' :: '1' :: '\x7d' :: rest) =
      onto [count 1 (some 1) true] (readFrom f false rest) :=
  readFrom_of_next (congrArg Except.ok (countToken_of_fresh 1 (some 1) h))

theorem readFrom_escape {c : Char} (h : ClassAtom.escaped? c = some (.char c)) :
    readFrom f b ('\\' :: c :: rest) = onto [set (.single c)] (readFrom f true rest) := by
  refine readFrom_of_next ?_
  simp only [next, h]

theorem readFrom_class {cs : List Char} {s : CharSet}
    (h : Bracket.read f.ignoreCase cs = .ok (s, rest)) :
    readFrom f b ('[' :: cs) = onto [set s] (readFrom f true rest) := by
  refine readFrom_of_next ?_
  simp only [next, h]
  rfl

end Token

namespace Separator

theorem escaped?_char (s : Separator) : ClassAtom.escaped? s.char = some (.char s.char) := by
  cases s <;> rfl

/-- All characters but the separator. -/
def others (s : Separator) (ignoreCase : Bool) : CharSet :=
  .compl (OpenClass.caseClosed ignoreCase (.union .empty (.single s.char)))

theorem nesting_others (s : Separator) (i : Bool) : (s.others i).nesting = i.toNat + 1 := by
  cases i <;> rfl

theorem read_others (s : Separator) (i : Bool) (rest : List Char) :
    Bracket.read i ('^' :: '\\' :: s.char :: ']' :: rest) = .ok (s.others i, rest) := by
  have hn : Bracket.next ('\\' :: s.char :: ']' :: rest) =
      .ok (.member (.single s.char), ']' :: rest) :=
    Bracket.next_of_escape s.escaped?_char (by simp)
  change Bracket.readFrom i { negated := true } [] ('\\' :: s.char :: ']' :: rest) = _
  rw [Bracket.readFrom_of_member hn, Bracket.readFrom_close]
  rfl

end Separator

namespace Token

@[simp] theorem readFrom_others {f : Flags} {b : Bool} (s : Separator) (rest : List Char) :
    readFrom f b ('[' :: '^' :: '\\' :: s.char :: ']' :: rest) =
      onto [set (s.others f.ignoreCase)] (readFrom f true rest) :=
  readFrom_class (s.read_others f.ignoreCase rest)

/-! ### Anchored texts -/

theorem read_anchored {f : Flags} {body : List Char} {ts : List Token} (hb : Fresh body)
    (h : readFrom f false (body ++ ['$']) = onto ts (readFrom f false ['$'])) :
    read f (anchored body) = .ok (edge (startEdge f) :: ts ++ [edge (endEdge f)]) := by
  have hf : Fresh (body ++ ['$']) := by
    cases body with
    | nil => exact ⟨by simp, by simp⟩
    | cons c cs => exact hb
  rw [read, anchored, List.cons_append, readFrom_start, readFrom_of_fresh hf, h, readFrom_end,
    readFrom_nil]
  simp

end Token

namespace Flags

/-- The flags that the text of a regex carries. -/
def inlined (f : Flags) : Flags :=
  { ignoreCase := f.ignoreCase, multiLine := f.multiLine, dotAll := f.dotAll }

theorem startEdge_inlined {f : Flags} (hm : f.multiLine = false) :
    Token.startEdge f.inlined = .textStart := by
  simp [Token.startEdge, inlined, hm]

theorem endEdge_inlined {f : Flags} (hm : f.multiLine = false) :
    Token.endEdge f.inlined = .textEnd := by
  simp [Token.endEdge, inlined, hm]

/-- The group at the head of a regex text is read back, if the text after it has none itself. -/
theorem readFlags_append (f : Flags) {cs : List Char} (h : Regex.readFlags cs = ({}, cs)) :
    Regex.readFlags (f.inlineGroup ++ cs) = (f.inlined, cs) := by
  obtain ⟨g, i, m, s, u⟩ := f
  by_cases h₀ : i = false ∧ m = false ∧ s = false
  · obtain ⟨rfl, rfl, rfl⟩ := h₀
    exact h
  · -- the letters in the group come back one by one, and `)` ends them
    cases i <;> cases m <;> cases s <;> first
      | exact absurd ⟨rfl, rfl, rfl⟩ h₀
      | rfl

theorem readFlags_inlineGroup (f : Flags) {cs : List Char}
    (h : ∀ rest, cs ≠ '(' :: '?' :: rest) :
    Regex.readFlags (f.inlineGroup ++ cs) = (f.inlined, cs) := by
  refine f.readFlags_append ?_
  unfold Regex.readFlags
  split
  · exact absurd rfl (h _)
  · rfl

end Flags

namespace Matcher

open Regex in
theorem read_anchored {f : Flags} {body : List Char} {ts : List Token} {rs : List Regex} {d : Nat}
    (hb : Token.Fresh body)
    (hr : Token.readFrom f.inlined false (body ++ ['$']) =
      Token.onto ts (Token.readFrom f.inlined false ['$']))
    (hB : Builds d ts rs) (hd : d ≤ maxDepth) (hm : f.multiLine = false) :
    Regex.read (f.inlineGroup ++ anchored body) =
      .ok (seqs (.edge .textStart :: rs ++ [.edge .textEnd])) := by
  have hB' := ((Builds.edge .textStart).mono (Nat.zero_le d)).append
    (hB.append ((Builds.edge .textEnd).mono (Nat.zero_le d)))
  have hs := Flags.startEdge_inlined hm
  have he := Flags.endEdge_inlined hm
  rw [Regex.read, f.readFlags_inlineGroup (by simp [anchored])]
  simp only [Token.read_anchored hb hr, hs, he]
  exact ofTokens_of_builds hB' hd

open Regex in
/-- An anchored text has a matcher if its parts do not nest too deep. -/
theorem exists_compile_of_read {f : Flags} {body : List Char} {rs : List Regex}
    (hr : Regex.read (f.inlineGroup ++ anchored body) =
      .ok (seqs (.edge .textStart :: rs ++ [.edge .textEnd])))
    (hn : ∀ r ∈ rs, r.nesting < maxNesting) :
    ∃ m, compile (String.ofList (anchored body)) f = .ok m ∧
      m.regex = seqs (.edge .textStart :: rs ++ [.edge .textEnd]) := by
  have hedge : ∀ e ∈ [Edge.textStart, .textEnd], (Regex.edge e).nesting < maxNesting := by decide
  have hfits : (seqs (.edge .textStart :: rs ++ [.edge .textEnd])).fits = true := by
    refine fits_of_nesting_le (nesting_seqs_le (List.forall_mem_append.2 ⟨?_, ?_⟩))
    · exact List.forall_mem_cons.2 ⟨hedge _ (by simp), hn⟩
    · exact List.forall_mem_singleton.2 (hedge _ (by simp))
  rw [← String.toList_ofList (l := anchored body)] at hr
  exact ⟨_, (compile_of_read hr).trans (if_pos hfits), rfl⟩

open Regex in
/-- An anchored matcher without lookahead accepts what its parts match from end to end. -/
theorem accepts_iff_of_anchored {source : String} {f : Flags} {m : Matcher}
    (h : compile source f = .ok m) {rs : List Regex}
    (hr : m.regex = seqs (.edge .textStart :: rs ++ [.edge .textEnd]))
    (hl : ∀ r ∈ rs, r.looksAhead = false) (t : List Char) :
    m.accepts t = true ↔ (seqs rs).Matches [] t [] := by
  have hl' : m.regex.looksAhead = false := by rw [hr, looksAhead_anchored hl]
  rw [accepts_iff_matches h hl', hr]
  exact exists_matches_anchored rs t

open Regex in
/-- **The matcher of an anchored text.** Without lookahead, and with `^` and `$` at the ends of the
whole text only, it accepts what its parts match from end to end. -/
theorem exists_anchored {f : Flags} {body : List Char} {ts : List Token} {rs : List Regex} {d : Nat}
    (hb : Token.Fresh body)
    (hr : Token.readFrom f.inlined false (body ++ ['$']) =
      Token.onto ts (Token.readFrom f.inlined false ['$']))
    (hB : Builds d ts rs) (hd : d ≤ maxDepth) (hn : ∀ r ∈ rs, r.nesting < maxNesting)
    (hl : ∀ r ∈ rs, r.looksAhead = false) (hm : f.multiLine = false) :
    ∃ m, compile (String.ofList (anchored body)) f = .ok m ∧
      ∀ t, m.accepts t = true ↔ (seqs rs).Matches [] t [] := by
  obtain ⟨m, hc, hregex⟩ := exists_compile_of_read (read_anchored hb hr hB hd hm) hn
  exact ⟨m, hc, accepts_iff_of_anchored hc hregex hl⟩

end Matcher

end PathGlob
