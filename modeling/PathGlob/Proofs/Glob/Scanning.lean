import PathGlob.Glob
import PathGlob.Proofs.Glob.Lexeme

/-!
# Scanning a glob

What one step of the scan makes of a character, of a run of `*`, in terms of lexemes, and of a class
name. A matcher for whole paths follows from a scan that yields lexemes (`Glob.exists_of_lexemes`).
-/

namespace PathGlob

/-- The only character that can have a given meaning. -/
def Symbol.char? : Symbol → Option Char
  | plain | special | separator => none
  | openParen => '('
  | closeParen => ')'
  | bar => '|'
  | operator .atMostOne => '?'
  | operator .anyNumber => '*'
  | operator .atLeastOne => '+'
  | operator .exactlyOne => '@'
  | operator .negated => '!'
  | openBracket => '['
  | closeBracket => ']'
  | openBrace => '\x7b'
  | closeBrace => '\x7d'
  | comma => ','

theorem Symbol.char?_ofChar (s : Separator) (c : Char) :
    ∀ d ∈ (Symbol.ofChar s c).char?, c = d := by
  unfold Symbol.ofChar
  split
  · simp [char?]
  · split <;> simp [char?]

theorem Symbol.ofChar_eq_separator_iff {s : Separator} {c : Char} :
    Symbol.ofChar s c = .separator ↔ c = s.char := by
  unfold Symbol.ofChar
  constructor
  · intro h
    by_contra hc
    rw [if_neg hc] at h
    split at h <;> cases h
  · intro h
    rw [if_pos h]

theorem Symbol.ofChar_char (s : Separator) : Symbol.ofChar s s.char = .separator :=
  ofChar_eq_separator_iff.2 rfl

theorem Separator.char_ne_star (s : Separator) : s.char ≠ '*' := by
  cases s <;> decide

theorem Separator.char_ne_openParen (s : Separator) : s.char ≠ '(' := by
  cases s <;> decide

namespace Scan

variable {o : Options} {b : Option Char} {x : Context} {c : Char} {rest : List Char}

theorem scan_eq_run (hs : o.separator = .posix) (cs : List Char) :
    scan o cs = run o none {} 0 cs := by
  rw [scan, hs]
  rfl

theorem pieces_run_cons : (run o b x 0 (c :: rest)).pieces =
    (step o b x c rest).piece ::
      (run o (some c) (step o b x c rest).context (step o b x c rest).skip rest).pieces := rfl

theorem run_replicate (n k : Nat) :
    run o (some c) x (n + k) (List.replicate n c ++ rest) = run o (some c) x k rest := by
  induction n with
  | zero => rw [Nat.zero_add]; rfl
  | succ n ih => rw [Nat.succ_add, List.replicate_succ, List.cons_append, run, ih]

/-- The scan passes over text that is used up and goes on after its last character. -/
theorem run_append (taken : List Char) (k : Nat) :
    run o b x (taken.length + k) (taken ++ rest) = run o (taken.getLast?.or b) x k rest := by
  induction taken generalizing b with
  | nil => rw [List.length_nil, Nat.zero_add]; rfl
  | cons d taken ih =>
    rw [List.length_cons, Nat.succ_add, List.cons_append, run, ih, List.getLast?_cons]
    cases taken.getLast? <;> rfl

theorem head?_append_ne {l : List Char} (hl : l.head? ≠ some c) (hr : rest.head? ≠ some c) :
    (l ++ rest).head? ≠ some c := by
  cases l with
  | nil => exact hr
  | cons d l => simpa using hl

theorem opensGroup_eq_false (h : rest.head? ≠ some '(') (op : Operator) :
    opensGroup o x rest op = false := by
  rw [opensGroup, beq_false_of_ne h, Bool.and_false, Bool.false_and]

theorem opensGroup_of_not_extended (h : o.extended = false) (op : Operator) :
    opensGroup o x rest op = false := by
  rw [opensGroup, h, Bool.false_and, Bool.false_and]

/-! ### Characters -/

/-- The places where a character stands for itself. -/
structure Literal (o : Options) (x : Context) (c : Char) (next : Option Char) : Prop where
  ne_separator : c ≠ o.separator.char
  ne_star : c ≠ '*'
  noClass : x.inClass = false
  ofExtended : o.extended = true → c ∉ ['[', '\x7b', '?'] ∧ (c ∈ ['+', '@', '!'] → next ≠ some '(')
  ofGroups : x.groups ≠ [] → c ∉ ['(', ')', '|']
  ofBraces : x.braces ≠ 0 → c ∉ [',', '\x7d']

namespace Literal

variable {next : Option Char} (h : Literal o x c next)

include h

theorem groups_eq_nil (hc : c ∈ ['(', ')', '|']) : x.groups = [] := by
  by_contra hg
  exact h.ofGroups hg hc

theorem braces_eq_zero (hc : c ∈ [',', '\x7d']) : x.braces = 0 := by
  by_contra hb
  exact h.ofBraces hb hc

theorem extended_eq_false (hc : c ∈ ['[', '\x7b', '?']) : o.extended = false := by
  by_contra he
  exact (h.ofExtended (Bool.not_eq_false _ ▸ he)).1 hc

theorem opensGroup_eq_false (hc : c ∈ ['+', '@', '!']) {rest : List Char} (hr : rest.head? = next)
    (op : Operator) : opensGroup o x rest op = false := by
  cases he : o.extended with
  | false => exact opensGroup_of_not_extended he op
  | true => exact Scan.opensGroup_eq_false (hr ▸ (h.ofExtended he).2 hc) op

end Literal

/-- **A character that stands for itself yields itself.** -/
theorem step_literal (h : Literal o x c rest.head?) :
    step o b x c rest = { piece := (Lexeme.char c).piece o.separator, context := x } := by
  -- a meaning names the only character that can have it, and the place rules that meaning out
  have hc := Symbol.char?_ofChar o.separator c
  cases hs : Symbol.ofChar o.separator c with
  | plain => simp [step, hs, Lexeme.piece, Step.text]
  | special => simp [step, hs, Lexeme.piece, Step.text, Step.escape]
  | separator => exact absurd (Symbol.ofChar_eq_separator_iff.1 hs) h.ne_separator
  | openParen =>
    obtain rfl := hc '(' (by rw [hs]; rfl)
    simp [step, hs, openParen, h.groups_eq_nil, Lexeme.piece, Step.text, Step.escape]
  | closeParen =>
    obtain rfl := hc ')' (by rw [hs]; rfl)
    simp [step, hs, closeParen, h.groups_eq_nil, Lexeme.piece, Step.text, Step.escape]
  | bar =>
    obtain rfl := hc '|' (by rw [hs]; rfl)
    simp [step, hs, h.groups_eq_nil, Lexeme.piece, Step.text, Step.escape]
  | openBracket =>
    obtain rfl := hc '[' (by rw [hs]; rfl)
    simp [step, hs, h.noClass, h.extended_eq_false, Lexeme.piece, Step.text, Step.escape]
  | closeBracket => simp [step, hs, h.noClass, Lexeme.piece, Step.text, Step.escape]
  | openBrace =>
    obtain rfl := hc '\x7b' (by rw [hs]; rfl)
    simp [step, hs, h.extended_eq_false, Lexeme.piece, Step.text, Step.escape]
  | closeBrace =>
    obtain rfl := hc '\x7d' (by rw [hs]; rfl)
    simp [step, hs, h.braces_eq_zero, Lexeme.piece, Step.text, Step.escape]
  | comma =>
    obtain rfl := hc ',' (by rw [hs]; rfl)
    simp [step, hs, h.braces_eq_zero, Lexeme.piece, Step.text, Step.escape]
  | operator op =>
    cases op with
    | atMostOne =>
      obtain rfl := hc '?' (by rw [hs]; rfl)
      have he := h.extended_eq_false (by simp)
      simp [step, hs, opensGroup_of_not_extended he, operator, he, Lexeme.piece, Step.text,
        Step.escape]
    | anyNumber => exact absurd (hc '*' (by rw [hs]; rfl)) h.ne_star
    | atLeastOne =>
      obtain rfl := hc '+' (by rw [hs]; rfl)
      simp [step, hs, h.opensGroup_eq_false, operator, Lexeme.piece, Step.text, Step.escape]
    | exactlyOne =>
      obtain rfl := hc '@' (by rw [hs]; rfl)
      simp [step, hs, h.opensGroup_eq_false, operator, Lexeme.piece, Step.text, Step.escape]
    | negated =>
      obtain rfl := hc '!' (by rw [hs]; rfl)
      simp [step, hs, h.opensGroup_eq_false, h.noClass, operator, Lexeme.piece, Step.text,
        Step.escape]

theorem pieces_run_literal (h : Literal o x c rest.head?) : (run o b x 0 (c :: rest)).pieces =
    (Lexeme.char c).piece o.separator :: (run o (some c) x 0 rest).pieces := by
  rw [pieces_run_cons, step_literal h]

/-! ### Runs of `*` -/

section Stars

variable {n : Nat}

theorem exists_stars (cs : List Char) :
    ∃ n rest, cs = List.replicate n '*' ++ rest ∧ rest.head? ≠ some '*' := by
  induction cs with
  | nil => exact ⟨0, [], rfl, by simp⟩
  | cons c cs ih =>
    by_cases hc : c = '*'
    · obtain ⟨n, rest, rfl, h⟩ := ih
      exact ⟨n + 1, rest, by rw [hc, List.replicate_succ, List.cons_append], h⟩
    · exact ⟨0, c :: cs, rfl, by simpa using hc⟩

theorem length_takeWhile_stars (h : rest.head? ≠ some '*') :
    ((List.replicate n '*' ++ rest).takeWhile (· == '*')).length = n := by
  rw [List.takeWhile_append_of_pos (by simp), List.length_append, List.length_replicate]
  cases rest with
  | nil => rfl
  | cons c rest => simp_all

theorem step_stars (hs : rest.head? ≠ some '*')
    (hp : o.extended = true → (List.replicate n '*' ++ rest).head? ≠ some '(') :
    step o b x '*' (List.replicate n '*' ++ rest) =
      if o.globstar = false then { piece := Lexeme.dots.piece o.separator, context := x, skip := n }
      else if n ≠ 0 ∧ atBoundary o.separator b = true ∧
          atBoundary o.separator rest.head? = true then
        { piece := Lexeme.globstar.piece o.separator, context := x, skip := n + 1 }
      else { piece := Lexeme.run.piece o.separator, context := x, skip := n } := by
  have ho : Symbol.ofChar o.separator '*' = .operator .anyNumber := by
    cases o.separator <;> decide
  have hg : opensGroup o x (List.replicate n '*' ++ rest) .anyNumber = false := by
    cases he : o.extended with
    | false => exact opensGroup_of_not_extended he _
    | true => exact opensGroup_eq_false (hp he) _
  have hd : (List.replicate n '*' ++ rest).drop n = rest := by
    rw [List.drop_left' (List.length_replicate ..)]
  simp only [step, ho, hg, Bool.false_eq_true, ↓reduceIte, operator, stars,
    length_takeWhile_stars hs, hd]
  cases o.globstar with
  | false => rfl
  | true => simp [Lexeme.piece, and_assoc]

theorem pieces_run_dots (hs : rest.head? ≠ some '*')
    (hp : o.extended = true → (List.replicate n '*' ++ rest).head? ≠ some '(')
    (hg : o.globstar = false) :
    (run o b x 0 (List.replicate (n + 1) '*' ++ rest)).pieces =
      Lexeme.dots.piece o.separator :: (run o (some '*') x 0 rest).pieces := by
  rw [List.replicate_succ, List.cons_append, pieces_run_cons, step_stars hs hp, if_pos hg]
  rw [← run_replicate n 0]
  rfl

theorem pieces_run_stars_append (n : Nat) {b' : Option Char}
    (hp : o.extended = true → rest.head? ≠ some '(') (hg : o.globstar = false) :
    (run o b x 0 (List.replicate (n + 1) '*' ++ '*' :: rest)).pieces =
      (run o b' x 0 ('*' :: rest)).pieces := by
  obtain ⟨m, rest, rfl, hs⟩ := exists_stars rest
  -- all of it is one run, which yields what its last part yields
  have h : List.replicate (n + 1) '*' ++ '*' :: (List.replicate m '*' ++ rest) =
      List.replicate (n + 1 + m + 1) '*' ++ rest := by
    rw [← List.cons_append, ← List.replicate_succ, ← List.append_assoc,
      List.replicate_append_replicate, ← Nat.add_assoc]
  have hp' : o.extended = true → (List.replicate (n + 1 + m) '*' ++ rest).head? ≠ some '(' := by
    intro _
    rw [Nat.add_right_comm, List.replicate_succ]
    simp
  rw [h, pieces_run_dots hs hp' hg, ← pieces_run_dots hs hp hg, List.replicate_succ,
    List.cons_append]

section Globstars

variable (he : o.extended = false) (hg : o.globstar = true)

include he hg

theorem pieces_run_run (hs : rest.head? ≠ some '*')
    (hn : ¬(n ≠ 0 ∧ atBoundary o.separator b = true ∧ atBoundary o.separator rest.head? = true)) :
    (run o b x 0 (List.replicate (n + 1) '*' ++ rest)).pieces =
      Lexeme.run.piece o.separator :: (run o (some '*') x 0 rest).pieces := by
  rw [List.replicate_succ, List.cons_append, pieces_run_cons, step_stars hs (by simp [he]),
    if_neg (by simp [hg]), if_neg hn]
  rw [← run_replicate n 0]
  rfl

/-- A run of two or more `*` that fills a segment is a globstar, and the character after it is used
up. -/
theorem pieces_run_globstar (hs : rest.head? ≠ some '*')
    (hn : n ≠ 0 ∧ atBoundary o.separator b = true ∧ atBoundary o.separator rest.head? = true) :
    (run o b x 0 (List.replicate (n + 1) '*' ++ rest)).pieces =
      Lexeme.globstar.piece o.separator :: (run o (some '*') x 1 rest).pieces := by
  rw [List.replicate_succ, List.cons_append, pieces_run_cons, step_stars hs (by simp [he]),
    if_neg (by simp [hg]), if_pos hn]
  rw [← run_replicate n 1]

end Globstars

end Stars

theorem pieces_run_separator (hs : o.separator = .posix)
    (hr : o.strict = true ∨ rest.head? ≠ some '/') :
    (run o b x 0 ('/' :: rest)).pieces =
      (Lexeme.separator false).piece o.separator :: (run o (some '/') x 0 rest).pieces := by
  have hstep : step o b x '/' rest = { piece := .separator false, context := x } := by
    have hc : Symbol.ofChar o.separator '/' = .separator := by rw [hs]; rfl
    have hd : o.separator.char = '/' := by rw [hs]; rfl
    simp only [step, hc, separator, hd]
    rcases hr with hr | hr
    · simp [hr, hs]
    · rw [if_neg hr]
  rw [pieces_run_cons, hstep]
  rfl

/-! ### Class names -/

section ClassNames

variable {name after : List Char}

theorem className_of_head? (h : rest.head? ≠ some ':') : className x rest = .escape x '[' := by
  unfold className
  split
  · exact absurd rfl h
  · rfl

theorem className_of_not_mem (h : ':' ∉ rest) : className x (':' :: rest) = .escape x '[' := by
  have hall : ∀ c ∈ rest, (c != ':') = true := fun c hc => bne_iff_ne.2 fun he => h (he ▸ hc)
  have hdrop : rest.dropWhile (· != ':') = [] := by
    rw [← List.append_nil rest, List.dropWhile_append_of_pos hall]
    rfl
  rw [className, hdrop]

theorem className_append (h : ':' ∉ name) :
    className x (':' :: (name ++ ':' :: after)) =
      { piece := .text (classText name), context := x,
        skip := name.length + 2 + if after.head? = some ']' then 1 else 0 } := by
  have hall : ∀ c ∈ name, (c != ':') = true := fun c hc => bne_iff_ne.2 fun he => h (he ▸ hc)
  have hafter : (':' :: after).dropWhile (· != ':') = ':' :: after := rfl
  rw [className, List.dropWhile_append_of_pos hall, hafter, List.takeWhile_append_of_pos hall]
  simp

end ClassNames

end Scan

/-- A glob compiles if something can be computed from its compiled form. -/
theorem Glob.exists_of_toOption_map {o : Options} {text : String} {α : Type} {F : Glob → α} {a : α}
    (h : (compile o text).toOption.map F = some a) : ∃ g, compile o text = .ok g ∧ F g = a := by
  cases hc : compile o text with
  | error e =>
    rw [hc] at h
    cases h
  | ok g =>
    rw [hc] at h
    exact ⟨g, rfl, Option.some.inj h⟩

theorem Glob.exists_compile_iff {o : Options} {text : String} :
    (∃ g, compile o text = .ok g) ↔
      ∃ m, Matcher.compile (translate o text).pattern o.flags = .ok m := by
  simp only [compile]
  cases Matcher.compile (translate o text).pattern o.flags <;> simp

theorem Glob.exists_compile_iff_fits {o : Options} {text : String} :
    (∃ g, compile o text = .ok g) ↔
      ∃ r, Regex.read (o.flags.inlineGroup ++ (translate o text).pattern.toList) = .ok r ∧
        r.fits = true :=
  exists_compile_iff.trans Matcher.exists_compile_iff_fits

theorem Glob.eq_of_compile {o : Options} {text : String} {g : Glob} (h : compile o text = .ok g) :
    g.options = o ∧ g.pattern = (translate o text).pattern ∧
      Matcher.compile (translate o text).pattern o.flags = .ok g.matcher ∧
      g.segments = (translate o text).segments.map (GlobSegment.compile o.flags) := by
  rw [compile] at h
  split at h
  · cases h
  · rename_i m hm
    cases h
    exact ⟨rfl, rfl, hm, rfl⟩

section

variable {o : Options} {text : String} {g : Glob} (h : Glob.compile o text = .ok g)

include h

theorem Glob.options_of_compile : g.options = o := (eq_of_compile h).1

theorem Glob.matcher_of_compile :
    Matcher.compile (translate o text).pattern o.flags = .ok g.matcher :=
  (eq_of_compile h).2.2.1

theorem Glob.segments_of_compile :
    g.segments = (translate o text).segments.map (GlobSegment.compile o.flags) :=
  (eq_of_compile h).2.2.2

end

theorem Glob.exists_compile_and_iff {o : Options} {text : String} (P : Regex → Prop) :
    (∃ g, compile o text = .ok g ∧ P g.matcher.regex) ↔
      ∃ r, Regex.read (o.flags.inlineGroup ++ (translate o text).pattern.toList) = .ok r ∧
        r.fits = true ∧ P r := by
  constructor
  · rintro ⟨g, hg, hP⟩
    obtain ⟨hr, hf⟩ := Matcher.read_and_fits_of_compile (matcher_of_compile hg)
    exact ⟨_, hr, hf, hP⟩
  · rintro ⟨r, hr, hf, hP⟩
    obtain ⟨g, hg⟩ := exists_compile_iff_fits.2 ⟨r, hr, hf⟩
    have hregex := Matcher.read_of_compile (matcher_of_compile hg)
    obtain rfl : r = g.matcher.regex := Except.ok.inj (hr.symm.trans hregex)
    exact ⟨g, hg, hP⟩

/-- Where the regex does not nest too deep, a glob compiles exactly if its pattern for whole paths
is a regex. -/
theorem Glob.exists_compile_iff_read {o : Options} {text : String}
    (h : ∀ p, compile o text ≠ .error (.invalid p .treeTooDeep)) :
    (∃ g, compile o text = .ok g) ↔
      ∃ r, Regex.read (o.flags.inlineGroup ++ (translate o text).pattern.toList) = .ok r := by
  rw [exists_compile_iff_fits]
  refine exists_congr fun r => ⟨fun hr => hr.1, fun hr => ⟨hr, ?_⟩⟩
  by_contra hf
  refine h (translate o text).pattern ?_
  rw [compile]
  simp only [Matcher.compile_of_read hr, if_neg hf]

/-- A glob without the flag `g` compiles if its body between anchors is a regex. -/
theorem Glob.exists_of_body {o : Options} {text : String} {body : List Char} {m : Matcher}
    (hb : Piece.body o.separator (scan o text.toList).pieces = body)
    (hc : Matcher.compile (String.ofList (anchored body)) o.flags = .ok m)
    (hg : o.flags.global = false) :
    ∃ g, compile o text = .ok g ∧ ∀ path, g.accepts path = m.accepts path.toList := by
  have hp : (translate o text).pattern = String.ofList (anchored body) := by
    simp [translate, hb, wholePattern, Flags.anchors, hg]
  refine ⟨⟨o, (translate o text).pattern, m, (translate o text).segments.map
    (GlobSegment.compile o.flags)⟩, ?_, fun path => rfl⟩
  simp only [compile, hp, hc]

/-- **The matcher of a scan.** A glob whose scan yields lexemes that build `rs` compiles, and it
accepts the paths that `rs` match as a whole. -/
theorem Glob.exists_of_lexemes {o : Options} {text : String} {ls : List Lexeme} {rs : List Regex}
    {d : Nat} (hs : (scan o text.toList).pieces = ls.map (Lexeme.piece o.separator))
    (hB : Regex.Builds d (ls.flatMap (Lexeme.tokens o.separator o.flags.inlined)) rs)
    (hd : d ≤ Regex.maxDepth) (hn : ∀ r ∈ rs, r.nesting < Regex.maxNesting)
    (hl : ∀ r ∈ rs, r.looksAhead = false) (hg : o.flags.global = false)
    (hm : o.flags.multiLine = false) :
    ∃ g, compile o text = .ok g ∧
      ∀ path, g.accepts path = true ↔ (Regex.seqs rs).Matches [] path.toList [] := by
  obtain ⟨m, hc, ha⟩ := Matcher.exists_lexemes o.separator ls hB hd hn hl hm
  have hb := (congrArg (Piece.body o.separator) hs).trans (Lexeme.body_map_piece ls)
  obtain ⟨g, hcompile, haccepts⟩ := exists_of_body hb hc hg
  refine ⟨g, hcompile, fun path => ?_⟩
  rw [haccepts]
  exact ha path.toList

end PathGlob
