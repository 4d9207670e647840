import PathGlob.Proofs.Glob.Scanning

/-!
# The scan outside classes

Without bracket classes a character of a glob does one of few things, its `Move`. A move names the
lexeme that the character yields and says what happens to the context, and everything that is true
of all scans without classes can be read off the moves.

* `Scan.move` is the move of a character, and `Scan.step_eq_move` says that the step of the scan
  makes it;
* `Move.Allowed`: a move closes only what is open, and a bar stands inside something open;
* `Scan.run_eq_moves`: the pieces and the context of a whole scan;
* `Lexeme.cut`: the segments of a row of lexemes.
-/

namespace PathGlob

/-- The lexeme opens and closes nothing that other lexemes see. -/
def Lexeme.Inert : Lexeme → Prop
  | opening _ | bar | closing _ => False
  | _ => True

/-- What a character does outside classes. -/
inductive Move where
  /-- Yields an inert lexeme. -/
  | inert (l : Lexeme)
  | openGroup (g : Group)
  | openChoice
  /-- Ends an alternative of a group or a choice. -/
  | bar
  | closeGroup (g : Group)
  | closeChoice
  deriving DecidableEq, Repr

namespace Move

/-- The lexeme that is yielded. -/
def lexeme : Move → Lexeme
  | inert l => l
  | openGroup g => .opening g
  | openChoice => .opening .bare
  | bar => .bar
  | closeGroup g => .closing g
  | closeChoice => .closing .bare

/-- The context after the move. -/
def context (x : Context) : Move → Context
  | inert _ | bar => x
  | openGroup g => { x with groups := g :: x.groups }
  | openChoice => { x with braces := x.braces + 1 }
  | closeGroup _ => { x with groups := x.groups.tail }
  | closeChoice => { x with braces := x.braces - 1 }

/-- The move can be made in the context: it closes only what is open. -/
def Allowed (x : Context) : Move → Prop
  | inert l => l.Inert
  | openGroup _ | openChoice => True
  | bar => x.groups ≠ [] ∨ x.braces ≠ 0
  | closeGroup g => x.groups.head? = some g
  | closeChoice => x.braces ≠ 0

@[simp] theorem inClass_context (x : Context) (m : Move) :
    (m.context x).inClass = x.inClass := by
  cases m <;> rfl

end Move

namespace Scan

/-- The lexeme of a run of `*` that opens no group. -/
def starsLexeme (o : Options) (before : Option Char) (rest : List Char) : Lexeme :=
  let more := (rest.takeWhile (· == '*')).length
  if !o.globstar then .dots
  else if more != 0 && atBoundary o.separator before &&
      atBoundary o.separator (rest.drop more).head? then .globstar
  else .run

/-- The move of the character `c` between `before` and `rest`. -/
def move (o : Options) (before : Option Char) (x : Context) (c : Char) (rest : List Char) : Move :=
  match Symbol.ofChar o.separator c with
  | .plain | .special | .openBracket | .closeBracket => .inert (.char c)
  | .separator => .inert (.separator (rest.head? == some o.separator.char && !o.strict))
  | .openParen => if x.groups = [] then .inert (.char c) else .openGroup .bare
  | .closeParen =>
    match x.groups with
    | [] => .inert (.char c)
    | g :: _ => .closeGroup g
  | .bar => if x.groups = [] then .inert (.char c) else .bar
  | .operator op =>
    if opensGroup o x rest op then .openGroup (.marked op)
    else match op with
      | .anyNumber => .inert (starsLexeme o before rest)
      | .atMostOne => .inert (if o.extended then .dot else .char c)
      | .atLeastOne | .exactlyOne | .negated => .inert (.char c)
  | .openBrace => if o.extended then .openChoice else .inert (.char c)
  | .closeBrace => if x.braces = 0 then .inert (.char c) else .closeChoice
  | .comma => if x.braces = 0 then .inert (.char c) else .bar

variable {o : Options} {b : Option Char} {x : Context} {c : Char} {rest : List Char}

/-- **The step of the scan makes the move**, where no class is open and none is opened. -/
theorem step_eq_move (hx : x.inClass = false) (hc : o.extended = true → c ≠ '[') :
    step o b x c rest =
      { piece := (move o b x c rest).lexeme.piece o.separator
        context := (move o b x c rest).context x
        skip := (step o b x c rest).skip } := by
  have hchar := Symbol.char?_ofChar o.separator c
  cases hs : Symbol.ofChar o.separator c with
  | plain => simp [step, move, hs, Move.lexeme, Move.context, Lexeme.piece, Step.text]
  | special =>
    simp [step, move, hs, Move.lexeme, Move.context, Lexeme.piece, Step.text, Step.escape]
  | separator =>
    simp only [step, move, hs, separator]
    split <;> simp_all [Move.lexeme, Move.context, Lexeme.piece]
  | openParen =>
    obtain rfl := hchar '(' (by rw [hs]; rfl)
    simp only [step, move, hs, openParen]
    split <;> simp [Move.lexeme, Move.context, Lexeme.piece, Step.text, Step.escape, hs]
  | closeParen =>
    obtain rfl := hchar ')' (by rw [hs]; rfl)
    simp only [step, move, hs, closeParen]
    split <;> simp_all [Move.lexeme, Move.context, Lexeme.piece, Step.text, Step.escape]
  | bar =>
    obtain rfl := hchar '|' (by rw [hs]; rfl)
    simp only [step, move, hs]
    split <;> simp [Move.lexeme, Move.context, Lexeme.piece, Step.text, Step.escape, hs]
  | openBracket =>
    obtain rfl := hchar '[' (by rw [hs]; rfl)
    -- only the extended syntax has classes
    have he : o.extended = false := by
      by_contra he
      exact hc (Bool.not_eq_false _ ▸ he) rfl
    simp [step, move, hs, hx, he, Move.lexeme, Move.context, Lexeme.piece, Step.text, Step.escape]
  | closeBracket =>
    simp [step, move, hs, hx, Move.lexeme, Move.context, Lexeme.piece, Step.text, Step.escape]
  | openBrace =>
    obtain rfl := hchar '\x7b' (by rw [hs]; rfl)
    simp only [step, move, hs]
    split <;>
      simp [Move.lexeme, Move.context, Lexeme.piece, Step.text, Step.escape, Group.opening, hs]
  | closeBrace =>
    obtain rfl := hchar '\x7d' (by rw [hs]; rfl)
    simp only [step, move, hs]
    split <;>
      simp [Move.lexeme, Move.context, Lexeme.piece, Step.text, Step.escape, Group.closing, hs]
  | comma =>
    obtain rfl := hchar ',' (by rw [hs]; rfl)
    simp only [step, move, hs]
    split <;> simp [Move.lexeme, Move.context, Lexeme.piece, Step.text, Step.escape, hs]
  | operator op =>
    simp only [step, move, hs]
    split
    · rfl
    · cases op with
      | anyNumber =>
        simp only [operator, stars, starsLexeme]
        split
        · rfl
        · split <;> rfl
      | atMostOne =>
        obtain rfl := hchar '?' (by rw [hs]; rfl)
        simp only [operator]
        split <;> simp [Move.lexeme, Move.context, Lexeme.piece, Step.text, Step.escape, hs]
      | atLeastOne =>
        obtain rfl := hchar '+' (by rw [hs]; rfl)
        simp [operator, Move.lexeme, Move.context, Lexeme.piece, Step.text, Step.escape, hs]
      | exactlyOne =>
        obtain rfl := hchar '@' (by rw [hs]; rfl)
        simp [operator, Move.lexeme, Move.context, Lexeme.piece, Step.text, Step.escape, hs]
      | negated =>
        obtain rfl := hchar '!' (by rw [hs]; rfl)
        simp [operator, hx, Move.lexeme, Move.context, Lexeme.piece, Step.text, Step.escape, hs]

theorem skip_stars (o : Options) (b : Option Char) (x : Context) (rest : List Char) :
    (stars o b x rest).skip = (rest.takeWhile (· == '*')).length +
      if starsLexeme o b rest = .globstar then 1 else 0 := by
  simp only [stars, starsLexeme]
  split
  · rfl
  · split <;> rfl

theorem skip_eq_zero (hx : Symbol.ofChar o.separator c = .openBracket → x.inClass = false)
    (hc : c ≠ o.separator.char) (hop : ∀ op, Symbol.ofChar o.separator c ≠ .operator op) :
    (step o b x c rest).skip = 0 := by
  cases hs : Symbol.ofChar o.separator c with
  | separator => exact absurd (Symbol.ofChar_eq_separator_iff.1 hs) hc
  | operator op => exact absurd hs (hop op)
  | plain | special => simp only [step, hs, Step.text, Step.escape]
  | openParen =>
    simp only [step, hs, openParen]
    split <;> rfl
  | closeParen =>
    simp only [step, hs, closeParen]
    split <;> rfl
  | bar | closeBrace | comma | openBrace | closeBracket =>
    simp only [step, hs]
    split <;> rfl
  | openBracket =>
    simp only [step, hs, hx hs, Bool.false_eq_true, ↓reduceIte]
    split <;> rfl

theorem skip_stars_le (o : Options) (b : Option Char) (x : Context) (rest : List Char) :
    (stars o b x rest).skip ≤ rest.length ∨
      (stars o b x rest).skip = rest.length + 1 ∧ (stars o b x rest).piece = .globstar := by
  have hle := (List.takeWhile_prefix (· == '*') (l := rest)).length_le
  simp only [stars]
  split
  · exact .inl hle
  · split
    · rcases hle.lt_or_eq with h | h
      · exact .inl h
      · exact .inr ⟨congrArg (· + 1) h, rfl⟩
    · exact .inl hle

/-- A character uses up no more than is there, but for a globstar at the end of the glob. -/
theorem skip_le (hx : x.inClass = false) : (step o b x c rest).skip ≤ rest.length ∨
    (step o b x c rest).skip = rest.length + 1 ∧ (step o b x c rest).piece = .globstar := by
  by_cases hc : c = o.separator.char
  · have hs : Symbol.ofChar o.separator c = .separator := Symbol.ofChar_eq_separator_iff.2 hc
    refine .inl ?_
    simp only [step, hs, separator]
    cases rest with
    | nil => exact Nat.le_refl _
    | cons d rest =>
      have hle : (if o.separator = .windows then 1 else 0) ≤ (d :: rest).length := by
        split <;> simp
      split
      · exact hle
      · exact Nat.zero_le _
  by_cases hop : ∃ op, Symbol.ofChar o.separator c = .operator op
  · obtain ⟨op, hs⟩ := hop
    by_cases hg : opensGroup o x rest op = true
    · obtain ⟨rest, rfl⟩ : ∃ rest', rest = '(' :: rest' := by
        simp only [opensGroup, Bool.and_eq_true, beq_iff_eq] at hg
        exact List.head?_eq_some_iff.1 hg.1.2
      refine .inl ?_
      simp [step, hs, hg, openGroup]
    · have hstep : step o b x c rest = operator o b x rest op := by
        simp only [step, hs]
        rw [if_neg hg]
      rw [hstep]
      cases op with
      | anyNumber => exact skip_stars_le o b x rest
      | atMostOne | negated =>
        refine .inl ?_
        simp only [operator]
        split <;> exact Nat.zero_le _
      | atLeastOne | exactlyOne => exact .inl (Nat.zero_le _)
  · rw [skip_eq_zero (fun _ => hx) hc (not_exists.1 hop)]
    exact .inl (Nat.zero_le _)

theorem inert_starsLexeme : (starsLexeme o b rest).Inert := by
  simp only [starsLexeme]
  split
  · trivial
  · split <;> trivial

/-- A character closes only what is open. -/
theorem allowed_move : (move o b x c rest).Allowed x := by
  cases hs : Symbol.ofChar o.separator c with
  | plain | special | openBracket | closeBracket | separator =>
    simp only [move, hs]
    trivial
  | openParen =>
    simp only [move, hs]
    split <;> trivial
  | closeParen =>
    simp only [move, hs]
    split
    · trivial
    · rename_i hg
      rw [Move.Allowed, hg]
      rfl
  | bar =>
    simp only [move, hs]
    split
    · trivial
    · exact Or.inl ‹_›
  | openBrace =>
    simp only [move, hs]
    split <;> trivial
  | closeBrace =>
    simp only [move, hs]
    split
    · trivial
    · assumption
  | comma =>
    simp only [move, hs]
    split
    · trivial
    · exact Or.inr ‹_›
  | operator op =>
    simp only [move, hs]
    split
    · trivial
    · cases op with
      | anyNumber => exact inert_starsLexeme
      | atMostOne =>
        change Lexeme.Inert (if _ then _ else _)
        split <;> trivial
      | atLeastOne | exactlyOne | negated => trivial

/-! ### Whole scans -/

/-- The moves of a scan. -/
def moves (o : Options) (before : Option Char) (x : Context) (skip : Nat) :
    List Char → List Move
  | [] => []
  | c :: rest =>
    match skip with
    | 0 =>
      let m := move o before x c rest
      m :: moves o (some c) (m.context x) (step o before x c rest).skip rest
    | k + 1 => moves o (some c) x k rest

/-- **A scan without classes yields the lexemes of its moves.** -/
theorem run_eq_moves {k : Nat} {cs : List Char} (hx : x.inClass = false)
    (hc : o.extended = true → '[' ∉ cs) :
    run o b x k cs = ⟨(moves o b x k cs).map (·.lexeme.piece o.separator),
      (moves o b x k cs).foldl Move.context x⟩ := by
  induction cs generalizing b x k with
  | nil => rfl
  | cons c rest ih =>
    have hrest : o.extended = true → '[' ∉ rest := fun he h => hc he (List.mem_cons_of_mem c h)
    cases k with
    | zero =>
      have hstep : step o b x c rest = _ := step_eq_move hx
        (fun he h => hc he (h ▸ List.mem_cons_self))
      have hx' : ((move o b x c rest).context x).inClass = false := by
        rw [Move.inClass_context, hx]
      rw [run, hstep, moves]
      simp only [ih hx' hrest, List.map_cons, List.foldl_cons]
    | succ k => exact ih hx hrest

end Scan

/-! ### Segments -/

namespace Lexeme

/-- The segments of a row of lexemes that follows `opened`: the lexemes of each one, and whether a
globstar ends it. -/
def cut (opened : List Lexeme) : List Lexeme → List (List Lexeme × Bool)
  | [] => [(opened, false)]
  | separator _ :: ls => (if opened = [] then [] else [(opened, false)]) ++ cut [] ls
  | globstar :: ls => (opened ++ [globstar], true) :: cut [] ls
  | l :: ls => cut (opened ++ [l]) ls

/-- The segment with given lexemes. -/
def segment (s : Separator) (k : List Lexeme × Bool) : Segment := ⟨k.1.flatMap (write s), k.2⟩

variable {s : Separator}

theorem write_ne_nil (l : Lexeme) : l.write s ≠ [] := by
  cases l with
  | char c =>
    simp only [write, piece, Piece.write]
    split <;> simp
  | separator lenient =>
    cases s <;> simp [write, piece, Piece.write, Separator.token, Separator.escaped]
  | dot | dots | run | globstar | bar =>
    simp [write, piece, Piece.write, Separator.globstar]
  | opening g | closing g =>
    cases g with
    | bare => simp [write, piece, Piece.write, Group.opening, Group.closing]
    | marked op => cases op <;> simp [write, piece, Piece.write, Group.opening, Group.closing]

theorem flatMap_write_eq_nil {ls : List Lexeme} : ls.flatMap (write s) = [] ↔ ls = [] := by
  cases ls with
  | nil => simp
  | cons l ls => simp [write_ne_nil]

/-- **The segments of a row of lexemes** are cut from it before anything is written. -/
theorem cut_map_piece (opened ls : List Lexeme) :
    Piece.cut s (opened.flatMap (write s)) (ls.map (piece s)) =
      (cut opened ls).map (segment s) := by
  induction ls generalizing opened with
  | nil => rfl
  | cons l ls ih =>
    cases l with
    | separator lenient =>
      simp only [List.map_cons, piece, Piece.cut, Segment.close, flatMap_write_eq_nil, cut,
        List.map_append, ← ih]
      split <;> rfl
    | globstar =>
      have hne : opened.flatMap (write s) ++ s.globstar ≠ [] := by simp [Separator.globstar]
      simp only [List.map_cons, piece, Piece.cut, Segment.close, if_neg hne, cut]
      rw [← ih []]
      simp [segment, write, piece, Piece.write]
    | char | dot | dots | run | opening | bar | closing =>
      simp only [cut, ← ih, List.flatMap_append, List.flatMap_singleton]
      rfl

/-- A segment consists of lexemes of the row, but of no separators. -/
theorem mem_or_mem_of_mem_cut {opened ls : List Lexeme} {k : List Lexeme × Bool}
    (hk : k ∈ cut opened ls) {l : Lexeme} (hl : l ∈ k.1) :
    l ∈ opened ∨ l ∈ ls ∧ ∀ lenient, l ≠ separator lenient := by
  induction ls generalizing opened with
  | nil =>
    rw [cut, List.mem_singleton] at hk
    rw [hk] at hl
    exact .inl hl
  | cons l' ls ih =>
    have hlater : l ∈ ls ∧ (∀ lenient, l ≠ separator lenient) →
        l ∈ l' :: ls ∧ ∀ lenient, l ≠ separator lenient :=
      fun h => ⟨List.mem_cons_of_mem l' h.1, h.2⟩
    have hskip : k ∈ cut [] ls → l ∈ l' :: ls ∧ ∀ lenient, l ≠ separator lenient :=
      fun h => hlater ((ih h).resolve_left List.not_mem_nil)
    -- a lexeme that ends no segment comes after those that are there
    have hopened : l ∈ opened ++ [l'] → (∀ lenient, l' ≠ separator lenient) →
        l ∈ opened ∨ l ∈ l' :: ls ∧ ∀ lenient, l ≠ separator lenient := by
      intro h hs
      refine (List.mem_append.1 h).imp_right fun h => ?_
      rw [List.mem_singleton.1 h]
      exact ⟨List.mem_cons_self, hs⟩
    cases l' with
    | separator lenient =>
      rcases List.mem_append.1 hk with hk | hk
      · split at hk
        · cases hk
        · rw [List.mem_singleton.1 hk] at hl
          exact .inl hl
      · exact .inr (hskip hk)
    | globstar =>
      rcases List.mem_cons.1 hk with rfl | hk
      · exact hopened hl nofun
      · exact .inr (hskip hk)
    | char | dot | dots | run | opening | bar | closing =>
      rcases ih hk with h | h
      · exact hopened h nofun
      · exact .inr (hlater h)

theorem mem_of_mem_cut {ls : List Lexeme} {k : List Lexeme × Bool} (hk : k ∈ cut [] ls)
    {l : Lexeme} (hl : l ∈ k.1) : l ∈ ls ∧ ∀ lenient, l ≠ separator lenient :=
  (mem_or_mem_of_mem_cut hk hl).resolve_left List.not_mem_nil

end Lexeme

/-! ### Translations -/

theorem Separator.not_mem_normalize (s : Separator) {c : Char} {glob : List Char} (hc : c ≠ '\\')
    (h : c ∉ glob) : c ∉ s.normalize glob := by
  cases s with
  | posix => exact h
  | windows =>
    intro hm
    obtain ⟨d, hd, hdc⟩ := List.mem_map.1 hm
    split at hdc
    · exact hc hdc.symm
    · exact h (hdc ▸ hd)

/-- The moves of a whole glob. -/
def Scan.movesOf (o : Options) (glob : List Char) : List Move :=
  moves o none {} 0 (o.separator.normalize glob)

/-- The lexemes of a whole glob. -/
def Scan.lexemesOf (o : Options) (glob : List Char) : List Lexeme :=
  (movesOf o glob).map Move.lexeme

namespace Scan

variable {o : Options} {text : String}

theorem scan_eq_moves (hc : o.extended = true → '[' ∉ text.toList) :
    scan o text.toList = ⟨(lexemesOf o text.toList).map (Lexeme.piece o.separator),
      (movesOf o text.toList).foldl Move.context {}⟩ := by
  have hn : o.extended = true → '[' ∉ o.separator.normalize text.toList := fun he =>
    o.separator.not_mem_normalize (by decide) (hc he)
  rw [scan, run_eq_moves rfl hn, lexemesOf, List.map_map]
  rfl

theorem pattern_eq_lexemes (hc : o.extended = true → '[' ∉ text.toList) :
    (translate o text).pattern =
      String.ofList
        (wholePattern o ((lexemesOf o text.toList).flatMap (Lexeme.write o.separator))) := by
  simp only [translate, scan_eq_moves hc, Lexeme.body_map_piece]

theorem segments_eq_lexemes (hc : o.extended = true → '[' ∉ text.toList) :
    (translate o text).segments =
      (Lexeme.cut [] (lexemesOf o text.toList)).map (Lexeme.segment o.separator) := by
  simp only [translate, scan_eq_moves hc]
  exact Lexeme.cut_map_piece [] _

end Scan

end PathGlob
