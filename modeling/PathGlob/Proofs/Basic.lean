import PathGlob.Proofs.Path
import PathGlob.Proofs.Glob.Effect
import Mathlib.Data.List.SplitBy

/-!
# Globs without the extended syntax

Without the extended syntax every character of a glob but `*` and the separator stands for itself,
whatever it means in a regex. So every glob compiles, with all its segments.

* `Basic.tokens`: the tokens of a glob, which are single characters, runs of `*` and runs of `/`;
* `Basic.language`: the texts that a glob stands for, token by token;
* `Glob.accepts_iff_mem_tokens`: a glob compiles with all its segments, and without globstars it
  accepts the paths in its language.
-/

namespace PathGlob

namespace Basic

/-- Two adjacent characters belong to one token. -/
def joins (a b : Char) : Bool := a == b && (a == '*' || a == '/')

/-- The tokens of a glob: the maximal runs of `*` and of `/`, and the other characters one by one.
-/
def tokens (glob : List Char) : List (List Char) := glob.splitBy joins

/-- The texts without a newline. -/
def line : Language Char := {w | '\n' ∉ w}

/-- The texts that a run of `n + 1` separators stands for. All but the last one may be left out,
unless they are mandatory. -/
def separators (strict : Bool) (n : Nat) : Language Char :=
  {w | ∃ k, w = List.replicate k '/' ∧ if strict then k = n + 1 else 1 ≤ k ∧ k ≤ n + 1}

/-- The texts that a token stands for. -/
def tokenLanguage (strict : Bool) : List Char → Language Char
  | [] => 1
  | c :: more =>
    if c = '*' then line
    else if c = '/' then separators strict more.length
    else {c :: more}

/-- The texts that a glob stands for. -/
def language (strict : Bool) (glob : List Char) : Language Char :=
  ((tokens glob).map (tokenLanguage strict)).prod

/-! ### Tokens -/

variable {c : Char} {cs : List Char}

theorem tokens_char (hc : ¬(c = '*' ∨ c = '/')) : tokens (c :: cs) = [c] :: tokens cs := by
  rw [not_or] at hc
  rw [tokens, ← List.singleton_append, List.splitBy_append]
  · rfl
  · simp [joins, hc.1, hc.2]

theorem tokens_run (n : Nat) (hc : c = '*' ∨ c = '/') (hcs : cs.head? ≠ some c) :
    tokens (List.replicate (n + 1) c ++ cs) = List.replicate (n + 1) c :: tokens cs := by
  have hchain : (List.replicate (n + 1) c).IsChain fun a b => joins a b = true :=
    List.isChain_replicate_of_rel _ (by simpa [joins] using hc)
  rw [tokens, List.splitBy_append, List.splitBy_of_isChain (by simp) hchain]
  · rfl
  · intro a ha d hd
    obtain rfl : a = c := List.eq_of_mem_replicate (List.mem_of_mem_getLast? ha)
    have hne : a ≠ d := by
      rintro rfl
      exact hcs hd
    simp [joins, hne]

/-- A glob is built up from its tokens. -/
@[elab_as_elim]
theorem tokens_induction {P : List Char → Prop} (nil : P [])
    (char : ∀ c cs, ¬(c = '*' ∨ c = '/') → P cs → P (c :: cs))
    (stars : ∀ n cs, cs.head? ≠ some '*' → P cs → P (List.replicate (n + 1) '*' ++ cs))
    (separators : ∀ n cs, cs.head? ≠ some '/' → P cs → P (List.replicate (n + 1) '/' ++ cs))
    (glob : List Char) : P glob := by
  induction glob using Path.runs_induction (fun c => c = '*' ∨ c = '/') with
  | nil => exact nil
  | char c cs hc ih => exact char c cs hc ih
  | run c n cs hc hcs ih =>
    rcases hc with rfl | rfl
    · exact stars n cs hcs ih
    · exact separators n cs hcs ih

theorem language_nil (strict : Bool) : language strict [] = 1 := rfl

theorem language_char (strict : Bool) (hc : ¬(c = '*' ∨ c = '/')) :
    language strict (c :: cs) = {[c]} * language strict cs := by
  rw [language, tokens_char hc, List.map_cons, List.prod_cons, language]
  rw [not_or] at hc
  rw [tokenLanguage, if_neg hc.1, if_neg hc.2]

theorem language_stars (strict : Bool) (n : Nat) (hcs : cs.head? ≠ some '*') :
    language strict (List.replicate (n + 1) '*' ++ cs) = line * language strict cs := by
  rw [language, tokens_run n (Or.inl rfl) hcs, List.map_cons, List.prod_cons, language]
  rfl

theorem language_separators (strict : Bool) (n : Nat) (hcs : cs.head? ≠ some '/') :
    language strict (List.replicate (n + 1) '/' ++ cs) =
      separators strict n * language strict cs := by
  have ht : tokenLanguage strict (List.replicate (n + 1) '/') = separators strict n := by
    rw [List.replicate_succ, tokenLanguage, if_neg (by decide), if_pos rfl, List.length_replicate]
  rw [language, tokens_run n (Or.inr rfl) hcs, List.map_cons, List.prod_cons, ht, language]

theorem separators_zero (strict : Bool) : separators strict 0 = {['/']} := by
  ext w
  change (∃ k, w = List.replicate k '/' ∧ _) ↔ w = ['/']
  constructor
  · rintro ⟨k, rfl, hk⟩
    obtain rfl : k = 1 := by
      cases strict
      · exact Nat.le_antisymm hk.2 hk.1
      · exact hk
    rfl
  · rintro rfl
    refine ⟨1, rfl, ?_⟩
    cases strict <;> simp

theorem separators_succ (strict : Bool) (n : Nat) : separators strict (n + 1) =
    (if strict then {['/']} else 1 + {['/']}) * separators strict n := by
  ext w
  rw [Language.mem_mul]
  cases strict with
  | true =>
    constructor
    · rintro ⟨k, rfl, rfl⟩
      exact ⟨['/'], rfl, List.replicate (n + 1) '/', ⟨n + 1, rfl, rfl⟩, rfl⟩
    · rintro ⟨v, rfl, v', ⟨k, rfl, rfl⟩, rfl⟩
      exact ⟨n + 1 + 1, rfl, rfl⟩
  | false =>
    constructor
    · rintro ⟨k, rfl, h₁, h₂⟩
      rcases Nat.le_succ_iff.1 h₂ with h₂ | rfl
      · exact ⟨[], Or.inl rfl, List.replicate k '/', ⟨k, rfl, h₁, h₂⟩, rfl⟩
      · exact ⟨['/'], Or.inr rfl, List.replicate (n + 1) '/', ⟨n + 1, rfl, by simp⟩, rfl⟩
    · rintro ⟨v, rfl | rfl, v', ⟨k, rfl, h₁, h₂⟩, rfl⟩
      · exact ⟨k, rfl, h₁, Nat.le_succ_of_le h₂⟩
      · exact ⟨k + 1, rfl, Nat.le_add_left _ _, Nat.succ_le_succ h₂⟩

end Basic

/-! ### Scanning -/

namespace Scan

variable {o : Options} {b : Option Char} {x : Context} {c : Char} {rest : List Char}

theorem move_of_not_extended (he : o.extended = false) (hg : x.groups = []) (hb : x.braces = 0) :
    ∃ l, move o b x c rest = .inert l := by
  have ho : ∀ op, opensGroup o x rest op = false := opensGroup_of_not_extended he
  cases hs : Symbol.ofChar o.separator c with
  | operator op => cases op <;> simp [move, hs, ho]
  | plain | special | openBracket | closeBracket | separator | openParen | closeParen | bar
  | openBrace | closeBrace | comma => simp [move, hs, he, hg, hb]

theorem inert_of_mem_moves (he : o.extended = false) (hg : x.groups = []) (hb : x.braces = 0)
    {k : Nat} {cs : List Char} {m : Move} (hm : m ∈ moves o b x k cs) : m.lexeme.Inert := by
  induction cs generalizing b k with
  | nil => cases hm
  | cons c rest ih =>
    cases k with
    | zero =>
      obtain ⟨l, hl⟩ : ∃ l, move o b x c rest = .inert l := move_of_not_extended he hg hb
      have ha : (move o b x c rest).Allowed x := allowed_move
      rw [moves, hl] at hm
      rw [hl] at ha
      rcases List.mem_cons.1 hm with rfl | hm
      · exact ha
      · exact ih hm
    | succ k => exact ih hm

theorem inert_of_mem_lexemesOf (he : o.extended = false) {glob : List Char} {l : Lexeme}
    (hl : l ∈ lexemesOf o glob) : l.Inert := by
  obtain ⟨m, hm, rfl⟩ := List.mem_map.1 hl
  exact inert_of_mem_moves he rfl rfl hm

/-- Each separator of a run but the last one is followed by another. -/
theorem pieces_run_separators (hs : o.separator = .posix) (n : Nat) (hr : rest.head? ≠ some '/') :
    (run o b x 0 (List.replicate (n + 1) '/' ++ rest)).pieces =
      (List.replicate n (Lexeme.separator !o.strict) ++ [Lexeme.separator false]).map
          (Lexeme.piece o.separator) ++
        (run o (some '/') x 0 rest).pieces := by
  induction n generalizing b with
  | zero => exact pieces_run_separator hs (Or.inr hr)
  | succ n ih =>
    have hstep : step o b x '/' (List.replicate (n + 1) '/' ++ rest) =
        { piece := .separator !o.strict, context := x } := by
      have hc : Symbol.ofChar .posix '/' = .separator := rfl
      simp only [step, hs, hc, separator, Separator.char, List.replicate_succ, List.cons_append,
        List.head?_cons, ↓reduceIte, reduceCtorEq]
    rw [List.replicate_succ, List.cons_append, pieces_run_cons, hstep, ih]
    rfl

end Scan

/-! ### Meaning -/

/-- The lexemes make parts of a regex, which do not nest too deep and match the texts of the
language wherever they stand. -/
def Lexeme.Spells (f : Flags) (ls : List Lexeme) (l : Language Char) : Prop :=
  ∃ rs, Regex.Builds 0 (ls.flatMap (tokens .posix f)) rs ∧
    (∀ r ∈ rs, r.Free ∧ r.nesting ≤ 2) ∧ (Regex.seqs rs).language = l

namespace Lexeme

open Regex

variable {f : Flags} {ls ls' : List Lexeme} {l l' : Language Char}

theorem spells_nil : Spells f [] 1 := ⟨[], Builds.nil, by simp, rfl⟩

theorem Spells.append (h : Spells f ls l) (h' : Spells f ls' l') :
    Spells f (ls ++ ls') (l * l') := by
  obtain ⟨rs, hb, hfree, rfl⟩ := h
  obtain ⟨rs', hb', hfree', rfl⟩ := h'
  refine ⟨rs ++ rs', ?_, List.forall_mem_append.2 ⟨hfree, hfree'⟩, ?_⟩
  · rw [List.flatMap_append]
    exact hb.append hb'
  · clear hb hfree
    induction rs with
    | nil => exact (one_mul _).symm
    | cons r rs ih => rw [List.cons_append, language_seqs_cons, ih, language_seqs_cons, mul_assoc]

theorem spells_of_builds {a : Lexeme} {r : Regex} (hb : Builds 0 (a.tokens .posix f) [r])
    (hr : r.Free) (hn : r.nesting ≤ 2) (hl : r.language = l) : Spells f [a] l := by
  refine ⟨[r], ?_, List.forall_mem_singleton.2 ⟨hr, hn⟩, hl⟩
  rwa [List.flatMap_singleton]

theorem spells_letter {a : Lexeme} {c : Char} (ha : a.tokens .posix f = [.set (.single c)]) :
    Spells f [a] {[c]} := by
  refine spells_of_builds (r := .set (.single c)) ?_ trivial (Nat.zero_le _)
    (Extended.language_char c)
  rw [ha]
  exact Builds.set _

theorem spells_char (hf : f.ignoreCase = false) (c : Char) : Spells f [.char c] {[c]} := by
  refine spells_letter ?_
  rw [tokens, letter_eq_single hf]

theorem spells_dots (hf : f.dotAll = false) : Spells f [.dots] Basic.line :=
  spells_of_builds ((Builds.set _).times (Or.inl ⟨_, rfl⟩) true (by simp)) trivial
    (Nat.succ_le_succ ((Token.nesting_dotSet f).trans_le (Bool.toNat_le _)))
    (Extended.language_stars hf 0)

theorem spells_lenient : Spells f [.separator true] (1 + {['/']}) := by
  refine spells_of_builds ((Builds.set _).times (Or.inl ⟨_, rfl⟩) true (by simp)) trivial
    (by decide) ?_
  rw [language_optional]
  exact congrArg (1 + ·) (Extended.language_char '/')

theorem spells_separators (strict : Bool) (n : Nat) :
    Spells f (List.replicate n (separator !strict) ++ [separator false])
      (Basic.separators strict n) := by
  induction n with
  | zero =>
    rw [Basic.separators_zero]
    exact spells_letter rfl
  | succ n ih =>
    have hfirst : Spells f [separator !strict] (if strict then {['/']} else 1 + {['/']}) := by
      cases strict with
      | true => exact spells_letter rfl
      | false => exact spells_lenient
    rw [Basic.separators_succ]
    exact hfirst.append ih

end Lexeme

namespace Basic

/-- **The lexemes of a glob spell its language.** -/
theorem exists_spells {o : Options} (he : o.extended = false) (hg : o.globstar = false)
    (hs : o.separator = .posix) {f : Flags} (hf : f.dotAll = false) (hf' : f.ignoreCase = false)
    (b : Option Char) (glob : List Char) :
    ∃ ls, (Scan.run o b {} 0 glob).pieces = ls.map (Lexeme.piece o.separator) ∧
      Lexeme.Spells f ls (language o.strict glob) := by
  induction glob using tokens_induction generalizing b with
  | nil =>
    rw [language_nil]
    exact ⟨[], rfl, Lexeme.spells_nil⟩
  | char c cs hc ih =>
    have hlit : Scan.Literal o {} c cs.head? :=
      { ne_separator := fun h => hc (Or.inr (by rwa [hs] at h)), ne_star := fun h => hc (Or.inl h),
        noClass := rfl, ofExtended := by simp [he], ofGroups := by simp, ofBraces := by simp }
    obtain ⟨ls, hr, hl⟩ := ih (some c)
    refine ⟨.char c :: ls, by rw [Scan.pieces_run_literal hlit, hr, List.map_cons], ?_⟩
    rw [language_char _ hc]
    exact (Lexeme.spells_char hf' c).append hl
  | stars n cs hcs ih =>
    -- one lexeme stands for the whole run, however long
    obtain ⟨ls, hr, hl⟩ := ih (some '*')
    refine ⟨.dots :: ls, ?_, ?_⟩
    · rw [Scan.pieces_run_dots hcs (by simp [he]) hg, hr, List.map_cons]
    · rw [language_stars _ _ hcs]
      exact (Lexeme.spells_dots hf).append hl
  | separators n cs hcs ih =>
    obtain ⟨ls, hr, hl⟩ := ih (some '/')
    refine ⟨List.replicate n (.separator !o.strict) ++ [.separator false] ++ ls, ?_, ?_⟩
    · rw [Scan.pieces_run_separators hs n hcs, hr, List.map_append, List.map_append,
        List.map_append]
    · rw [language_separators _ _ hcs]
      exact (Lexeme.spells_separators _ n).append hl

end Basic

/-! ### Compiling -/

/-- Without the extended syntax every glob compiles, with all its segments. -/
theorem Glob.exists_of_not_extended {o : Options} (he : o.extended = false) (text : String) :
    ∃ g, compile o text = .ok g ∧ ∀ s ∈ g.segments, ∃ m, s.matcher = .ok m := by
  have hc : o.extended = true → '[' ∉ text.toList := by simp [he]
  obtain ⟨g, hg⟩ : ∃ g, compile o text = .ok g := by
    rw [exists_compile_iff_fits, Scan.pattern_eq_lexemes hc, String.toList_ofList]
    exact Lexeme.exists_fits_of_inert (fun l hl => Scan.inert_of_mem_lexemesOf he hl) o.flags
  refine ⟨g, hg, fun s hs => ?_⟩
  rw [segments_of_compile hg, Scan.segments_eq_lexemes hc, List.map_map] at hs
  obtain ⟨part, hpart, rfl⟩ := List.mem_map.1 hs
  have hinert : ∀ l ∈ part.1, l.Inert := fun l hl =>
    Scan.inert_of_mem_lexemesOf he (Lexeme.mem_of_mem_cut hpart hl).1
  exact Lexeme.exists_segment_iff_fits.2 (Lexeme.exists_fits_of_inert hinert _)

/-- **Globs without the extended syntax.** Every glob compiles, with all its segments, under any
options. Without globstars and flags it accepts the paths that are made of its tokens: any text
without a newline for a run of `*`, a run of `/` of which all but one can be left out unless they
are mandatory, and every other character itself. -/
theorem Glob.accepts_iff_mem_tokens (o : Options) (he : o.extended = false) (text : String) :
    ∃ g, compile o text = .ok g ∧ (∀ s ∈ g.segments, ∃ m, s.matcher = .ok m) ∧
      (o.globstar = false → o.separator = .posix → o.flags = {} → ∀ path,
        g.accepts path = true ↔ path.toList ∈ Basic.language o.strict text.toList) := by
  obtain ⟨g, hg, hsegments⟩ := exists_of_not_extended he text
  refine ⟨g, hg, hsegments, fun hglob hs hf path => ?_⟩
  obtain ⟨ls, hscan, rs, hb, hfree, hlang⟩ := Basic.exists_spells he hglob hs
    (f := o.flags.inlined) (by simp [hf, Flags.inlined]) (by simp [hf, Flags.inlined]) none
    text.toList
  rw [← Scan.scan_eq_run hs] at hscan
  obtain ⟨g', hg', ha⟩ := exists_of_lexemes hscan (by rwa [hs]) (Nat.zero_le _)
    (fun r hr => Nat.lt_of_le_of_lt (hfree r hr).2 (by decide))
    (fun r hr => Regex.looksAhead_eq_false_of_free (hfree r hr).1) (by rw [hf]) (by rw [hf])
  obtain rfl : g = g' := Except.ok.inj (hg.symm.trans hg')
  rw [ha, Regex.matches_iff_mem_language (Regex.free_seqs.2 fun r hr => (hfree r hr).1),
    hlang]

/-- `a*//(b` accepts `axyz/(b`. -/
theorem Glob.accepts_iff_mem_tokens_separators :
    ({ separator := .posix } : Options).extended = false ∧
      ∃ g, compile { separator := .posix } "a*//(b" = .ok g ∧ g.accepts "axyz/(b" = true ∧
        "axyz/(b".toList ∈ Basic.language false "a*//(b".toList := by
  have hc : (compile { separator := .posix } "a*//(b").toOption.map (·.accepts "axyz/(b") =
      some true := by decide +kernel
  obtain ⟨g, hg, -, ha⟩ := Glob.accepts_iff_mem_tokens { separator := .posix } rfl "a*//(b"
  rw [hg] at hc
  have hacc : g.accepts "axyz/(b" = true := Option.some.inj hc
  exact ⟨rfl, g, hg, hacc, (ha rfl rfl rfl _).1 hacc⟩

end PathGlob
