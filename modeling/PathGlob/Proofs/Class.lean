import Mathlib.Data.List.Chain
import PathGlob.Proofs.Regex.Letters
import PathGlob.Proofs.Glob.Scanning

/-!
# Bracket classes that list characters

Inside a bracket class the scan goes on by the rules for single characters, and only the brackets
and `!` are read in another way. So a character that stands for itself outside a class does so
inside one, where the regex syntax leaves it alone.

* `Scan.step_inClass`: the rule for a character inside a class;
* `Class.Plain` says that characters can be listed;
* `Glob.accepts_class`: a class that lists such characters accepts each of them and nothing else.
-/

namespace PathGlob

namespace Scan

variable {o : Options} {b : Option Char} {x : Context} {c : Char} {rest : List Char}

/-- Apart from the brackets and `!`, a character is read inside a class as it is outside. -/
theorem step_inClass (hc : c ∉ ['[', ']', '!']) :
    step o b { x with inClass := true } c rest =
      let a := step o b { x with inClass := false } c rest
      { a with context := { a.context with inClass := true } } := by
  have hchar := Symbol.char?_ofChar o.separator c
  cases hs : Symbol.ofChar o.separator c with
  | plain | special => simp [step, hs, Step.text, Step.escape]
  | separator =>
    simp only [step, hs, separator]
    split <;> rfl
  | openParen =>
    simp only [step, hs, openParen]
    split <;> rfl
  | closeParen =>
    simp only [step, hs, closeParen]
    split <;> rfl
  | bar | comma | closeBrace =>
    simp only [step, hs]
    split <;> rfl
  | openBrace =>
    simp only [step, hs]
    split <;> rfl
  | openBracket => exact absurd (hchar '[' (by rw [hs]; rfl)) (by simp_all)
  | closeBracket => exact absurd (hchar ']' (by rw [hs]; rfl)) (by simp_all)
  | operator op =>
    have hop : op ≠ .negated := by
      rintro rfl
      exact hc (by simp [hchar '!' (by rw [hs]; rfl)])
    have hg : opensGroup o { x with inClass := true } rest op =
        opensGroup o { x with inClass := false } rest op := by
      simp [opensGroup, hop]
    simp only [step, hs, hg]
    cases opensGroup o { x with inClass := false } rest op with
    | true => rfl
    | false =>
      cases op with
      | negated => exact absurd rfl hop
      | anyNumber =>
        simp only [Bool.false_eq_true, ↓reduceIte, operator, stars]
        split_ifs <;> rfl
      | atMostOne =>
        simp only [Bool.false_eq_true, ↓reduceIte, operator]
        split_ifs <;> rfl
      | atLeastOne | exactlyOne => rfl

theorem step_member (hc : c ∉ ['[', ']', '!'])
    (h : Literal o { x with inClass := false } c rest.head?) :
    step o b { x with inClass := true } c rest =
      { piece := (Lexeme.char c).piece o.separator, context := { x with inClass := true } } := by
  rw [step_inClass hc, step_literal h]

end Scan

namespace Class

/-- The characters that mean something in a class. -/
def specials : List Char := ['[', ']', '/', '-', '!', '?', '*', '\x7b']

/-- The pairs of characters that mean something in a class: two operators of the regex syntax, and
the beginnings of two groups. -/
def pairs : List (Char × Char) := [('&', '&'), ('~', '~'), ('+', '('), ('@', '(')]

/-- The characters can be listed in a class. -/
structure Plain (cs : List Char) : Prop where
  chars : ∀ c ∈ cs, c ∉ specials
  pairs : cs.IsChain fun c d => (c, d) ∉ pairs

theorem plain_cons_iff {c : Char} {cs : List Char} :
    Plain (c :: cs) ↔ c ∉ specials ∧ (∀ d ∈ cs.head?, (c, d) ∉ pairs) ∧ Plain cs := by
  constructor
  · rintro ⟨hc, hp⟩
    rw [List.forall_mem_cons] at hc
    rw [List.isChain_cons] at hp
    exact ⟨hc.1, hp.1, hc.2, hp.2⟩
  · rintro ⟨hc, hp, h⟩
    exact ⟨List.forall_mem_cons.2 ⟨hc, h.chars⟩, List.isChain_cons.2 ⟨hp, h.pairs⟩⟩

/-! ### Scanning -/

variable {o : Options} {c : Char} {cs rest : List Char}

theorem literal_of_plain (hs : o.separator = .posix) (h : Plain (c :: cs)) :
    Scan.Literal o {} c (cs ++ ']' :: rest).head? := by
  obtain ⟨hc, hp, -⟩ := plain_cons_iff.1 h
  simp only [specials, List.mem_cons, List.not_mem_nil, or_false, not_or] at hc
  refine ⟨by simpa [hs, Separator.char] using hc.2.2.1, hc.2.2.2.2.2.2.1, rfl, fun _ => ⟨?_, ?_⟩,
    by simp, by simp⟩
  · simp [hc]
  · intro hop hnext
    cases cs with
    | nil => cases hnext
    | cons d cs =>
      obtain rfl : d = '(' := Option.some.inj hnext
      have hpair := hp '(' rfl
      simp only [pairs, List.mem_cons, List.not_mem_nil, or_false] at hop hpair
      simp_all

theorem pieces_run (hs : o.separator = .posix) (b : Option Char) (h : Plain cs) :
    (Scan.run o b { inClass := true } 0 (cs ++ [']'])).pieces =
      cs.map (fun c => (Lexeme.char c).piece o.separator) ++ [.text [']']] := by
  induction cs generalizing b with
  | nil =>
    have hc : Symbol.ofChar o.separator ']' = .closeBracket := by rw [hs]; rfl
    simp [Scan.run, Scan.step, hc, Step.text]
  | cons c cs ih =>
    obtain ⟨hc, -, hcs⟩ := plain_cons_iff.1 h
    have hc' : c ∉ ['[', ']', '!'] := by
      simp only [specials, List.mem_cons, List.not_mem_nil, or_false, not_or] at hc ⊢
      exact ⟨hc.1, hc.2.1, hc.2.2.2.2.1⟩
    have hstep : Scan.step o b { inClass := true } c (cs ++ [']']) =
        { piece := (Lexeme.char c).piece o.separator, context := { inClass := true } } :=
      @Scan.step_member o b {} c _ hc' (literal_of_plain hs h)
    rw [List.cons_append, Scan.pieces_run_cons, hstep, List.map_cons, List.cons_append, ih _ hcs]

/-! ### Reading -/

/-- The text of a character that is listed in a class. -/
def write (c : Char) : List Char := (Lexeme.char c).write .posix

theorem head?_flatMap_write (cs rest : List Char) {d : Char}
    (h : (cs.flatMap write ++ ']' :: rest).head? = some d) :
    cs.head? = some d ∧ Symbol.ofChar .posix d = .plain ∨ d = '\\' ∨ cs = [] ∧ d = ']' := by
  cases cs with
  | nil => exact .inr (.inr ⟨rfl, (Option.some.inj h).symm⟩)
  | cons c cs =>
    by_cases hc : Symbol.ofChar .posix c = .plain
    · rw [List.flatMap_cons, write, Lexeme.write, Lexeme.piece, if_pos hc] at h
      obtain rfl := Option.some.inj h
      exact .inl ⟨rfl, hc⟩
    · rw [List.flatMap_cons, write, Lexeme.write, Lexeme.piece, if_neg hc] at h
      exact .inr (.inl (Option.some.inj h).symm)

theorem next_write (h : Plain (c :: cs)) (rest : List Char) :
    Bracket.next (write c ++ (cs.flatMap write ++ ']' :: rest)) =
      .ok (.member (.single c), cs.flatMap write ++ ']' :: rest) := by
  obtain ⟨hc, hp, hcs⟩ := plain_cons_iff.1 h
  have hdash : (cs.flatMap write ++ ']' :: rest).head? ≠ some '-' := by
    intro hd
    obtain ⟨hd, -⟩ | hd | ⟨-, hd⟩ := head?_flatMap_write cs rest hd
    · exact hcs.chars '-' (List.mem_of_head? hd) (by decide)
    · cases hd
    · cases hd
  by_cases hplain : Symbol.ofChar .posix c = .plain
  · -- the next character is not the other half of an operator
    have hpair : c ∈ ['&', '~'] → (cs.flatMap write ++ ']' :: rest).head? ≠ some c := by
      intro hmem hd
      have hc' : c = '&' ∨ c = '~' := by simpa using hmem
      obtain ⟨hd, -⟩ | rfl | ⟨-, rfl⟩ := head?_flatMap_write cs rest hd
      · have := hp c hd
        rcases hc' with rfl | rfl <;> simp [pairs] at this
      · simp at hc'
      · simp at hc'
    rw [write, Lexeme.write, Lexeme.piece, if_pos hplain]
    refine Bracket.next_of_char ?_ hpair hdash
    have hback : c ≠ '\\' := Lexeme.ne_of_plain hplain (by decide)
    simp only [specials, List.mem_cons, List.not_mem_nil, or_false, not_or] at hc ⊢
    exact ⟨hc.1, hc.2.1, hc.2.2.2.1, hback⟩
  · rw [write, Lexeme.write, Lexeme.piece, if_neg hplain]
    exact Bracket.next_of_escape (Lexeme.escaped?_of_ne_plain hplain) hdash

theorem readFrom_plain (h : Plain cs) (k : OpenClass) (i : Bool) (rest : List Char) :
    Bracket.readFrom i k [] (cs.flatMap write ++ ']' :: rest) =
      .ok ((k.addAll (cs.map .single)).close i, rest) := by
  induction cs generalizing k with
  | nil => exact Bracket.readFrom_close
  | cons c cs ih =>
    rw [List.flatMap_cons, List.append_assoc, Bracket.readFrom_of_member (next_write h rest),
      ih (plain_cons_iff.1 h).2.2]
    rfl

/-- The set of the class. -/
def set (i : Bool) (cs : List Char) : CharSet :=
  (OpenClass.addAll { negated := false } (cs.map .single)).close i

theorem contains_set (cs : List Char) (c : Char) : (set false cs).contains c = true ↔ c ∈ cs := by
  rw [set, OpenClass.contains_close_addAll, Bool.bne_false, List.any_map, List.any_eq_true]
  constructor
  · rintro ⟨d, hd, hc⟩
    rwa [CharSet.contains_single.1 hc]
  · intro hc
    exact ⟨c, hc, CharSet.contains_single.2 rfl⟩

theorem read_plain (h : Plain cs) (hne : cs ≠ []) (i : Bool) (rest : List Char) :
    Bracket.read i (cs.flatMap write ++ ']' :: rest) = .ok (set i cs, rest) := by
  have henter : Bracket.enter (cs.flatMap write ++ ']' :: rest) =
      ({ negated := false }, cs.flatMap write ++ ']' :: rest) := by
    refine Bracket.enter_of_head fun d hd hmem => ?_
    simp only [List.mem_cons, List.not_mem_nil, or_false] at hmem
    obtain ⟨hd, hplain⟩ | rfl | ⟨hnil, -⟩ := head?_flatMap_write cs rest hd
    · have hdash : d ≠ '-' := by
        rintro rfl
        exact h.chars '-' (List.mem_of_head? hd) (by decide)
      rcases hmem with rfl | rfl | rfl
      · cases hplain
      · exact hdash rfl
      · cases hplain
    · simp at hmem
    · exact hne hnil
  rw [Bracket.read, henter]
  exact readFrom_plain h _ i rest

end Class

/-- **A class that lists characters accepts each of them**, and nothing else. -/
theorem Glob.accepts_class {o : Options} (he : o.extended = true) (hs : o.separator = .posix)
    (hf : o.flags = {}) {cs : List Char} (hne : cs ≠ []) (h : Class.Plain cs) :
    ∃ g, compile o (String.ofList ('[' :: cs ++ [']'])) = .ok g ∧
      ∀ path, g.accepts path = true ↔ ∃ c ∈ cs, path.toList = [c] := by
  let body := '[' :: (cs.flatMap Class.write ++ [']'])
  have hb : Piece.body o.separator (scan o (String.ofList ('[' :: cs ++ [']'])).toList).pieces =
      body := by
    have hstep : Scan.step o none {} '[' (cs ++ [']']) =
        { piece := .text ['['], context := { inClass := true } } := by
      have hc : Symbol.ofChar o.separator '[' = .openBracket := by rw [hs]; rfl
      simp [Scan.step, hc, he, Step.text]
    rw [String.toList_ofList, Scan.scan_eq_run hs, List.cons_append, Scan.pieces_run_cons, hstep,
      Class.pieces_run hs _ h, hs]
    rw [Piece.body, List.flatMap_cons, List.flatMap_append, List.flatMap_map]
    rfl
  have hr : Token.readFrom o.flags.inlined false (body ++ ['$']) =
      Token.onto [.set (Class.set false cs)] (Token.readFrom o.flags.inlined false ['$']) := by
    have hread : Bracket.read o.flags.inlined.ignoreCase
        (cs.flatMap Class.write ++ [']'] ++ ['$']) = .ok (Class.set false cs, ['$']) := by
      rw [hf, List.append_assoc]
      exact Class.read_plain h hne false ['$']
    have hfresh : Token.Fresh ['$'] := ⟨by simp, by simp⟩
    rw [List.cons_append, Token.readFrom_class hread, Token.readFrom_of_fresh hfresh]
  have hn : ∀ r ∈ [Regex.set (Class.set false cs)], r.nesting < Regex.maxNesting := by
    have hset : (Class.set false cs).nesting ≤ 3 :=
      OpenClass.nesting_close_addAll_le false false (List.forall_mem_map.2 fun c _ => rfl)
    exact List.forall_mem_singleton.2 (Nat.lt_of_le_of_lt hset (by decide))
  have hl : ∀ r ∈ [Regex.set (Class.set false cs)], r.looksAhead = false := by
    simp [Regex.looksAhead]
  have hfresh : Token.Fresh body := ⟨by simp [body], by simp [body]⟩
  obtain ⟨m, hm, ha⟩ :=
    Matcher.exists_anchored hfresh hr (.set _) (Nat.zero_le _) hn hl (by rw [hf])
  obtain ⟨g, hg, haccepts⟩ := exists_of_body hb hm (by rw [hf])
  refine ⟨g, hg, fun path => ?_⟩
  rw [haccepts, ha]
  constructor
  · rintro ⟨c, hpath, hc⟩
    exact ⟨c, (Class.contains_set cs c).1 hc, hpath⟩
  · rintro ⟨c, hc, hpath⟩
    exact ⟨c, hpath, (Class.contains_set cs c).2 hc⟩

/-- `[a.&]` accepts `.`, and it does not accept `b`. -/
theorem Glob.accepts_class_dot :
    ∃ g, compile { extended := true, separator := .posix } "[a.&]" = .ok g ∧
      g.accepts "." = true ∧ g.accepts "b" = false := by
  have hplain : Class.Plain ['a', '.', '&'] :=
    ⟨by simp [Class.specials], by simp [Class.pairs]⟩
  obtain ⟨g, hg, h⟩ := @Glob.accepts_class { extended := true, separator := .posix } rfl rfl rfl
    _ (by simp) hplain
  refine ⟨g, hg, (h ".").2 ⟨'.', by decide, rfl⟩, Bool.eq_false_iff.2 fun hb => ?_⟩
  obtain ⟨c, hc, hpath⟩ := (h "b").1 hb
  obtain rfl : 'b' = c := List.head_eq_of_cons_eq hpath
  revert hc
  decide

/-- `&&` is an operator of the regex syntax and not two members, so `[a&&b]` does not accept `a`. -/
theorem Glob.accepts_class_operator :
    ∃ cs g, cs ≠ [] ∧ (∀ c ∈ cs, c ∉ ['[', ']', '/', '-']) ∧ cs.head? ≠ some '!' ∧
      compile { extended := true, separator := .posix } (String.ofList ('[' :: cs ++ [']'])) =
        .ok g ∧ g.givenUp false "a" = [] ∧
      ¬(g.accepts "a" = true ↔ ∃ c ∈ cs, "a".toList = [c]) := by
  have hc : (compile { extended := true, separator := .posix }
      (String.ofList ('[' :: "a&&b".toList ++ [']']))).toOption.map
        (fun g => (g.givenUp false "a", g.accepts "a")) = some ([], false) := by decide +kernel
  obtain ⟨g, h, hg⟩ := exists_of_toOption_map hc
  obtain ⟨hgive, hacc⟩ := Prod.mk.inj hg
  refine ⟨"a&&b".toList, g, by simp, by simp, by simp, h, hgive, fun hiff => ?_⟩
  have := hiff.2 ⟨'a', by decide, rfl⟩
  rw [hacc] at this
  cases this

end PathGlob
