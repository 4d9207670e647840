import PathGlob.Proofs.Path
import PathGlob.Proofs.Regex.Letters
import PathGlob.Proofs.Glob.Scanning

/-!
# Levels of a glob

Without extended syntax, the separators of a glob cut it into levels, and with globstars on, each
level is either a globstar or takes one component of a path.

* `Level.Fits` says what a level that is no globstar takes;
* `Levels.lexemes` are the lexemes of all levels, and `Scan.pieces_run_levels` says that a scan
  yields them;
* `Level.denotes` and `Lexeme.denotes_globstar` say what they match.
-/

namespace PathGlob

namespace Level

/-- The level consists of two or more `*` and nothing else. -/
def isGlobstar (l : List Char) : Bool := decide (2 ≤ l.length) && l.all (· == '*')

/-- The level takes the text: a `*` stands for any text, and every other character for one that is
the same as it. -/
def Fits (same : Char → Char → Prop) : List Char → List Char → Prop
  | [], w => w = []
  | c :: cs, w =>
    if c = '*' then ∃ v w', w = v ++ w' ∧ Fits same cs w'
    else ∃ d w', w = d :: w' ∧ same c d ∧ Fits same cs w'

/-- A letter of a glob and a character that it matches under the flags. -/
def Alike (f : Flags) (c d : Char) : Prop := (Token.letterSet f c).contains d = true

/-- The lexemes of a level that is no globstar. -/
def lexemes : List Char → List Lexeme
  | [] => []
  | c :: cs =>
    if c = '*' then if cs.head? = some '*' then lexemes cs else .run :: lexemes cs
    else .char c :: lexemes cs

/-! ### Runs of `*` -/

/-- A level is built up from runs of `*` and other characters. -/
@[elab_as_elim]
theorem stars_induction {P : List Char → Prop} (nil : P [])
    (char : ∀ c cs, c ≠ '*' → P cs → P (c :: cs))
    (stars : ∀ n cs, cs.head? ≠ some '*' → P cs → P (List.replicate (n + 1) '*' ++ cs))
    (l : List Char) : P l := by
  induction l using Path.runs_induction (· = '*') with
  | nil => exact nil
  | char c cs hc ih => exact char c cs hc ih
  | run c n cs hc hcs ih =>
    subst hc
    exact stars n cs hcs ih

theorem lexemes_stars (n : Nat) {cs : List Char} (h : cs.head? ≠ some '*') :
    lexemes (List.replicate (n + 1) '*' ++ cs) = .run :: lexemes cs := by
  induction n with
  | zero => simp [lexemes, h]
  | succ n ih =>
    rw [List.replicate_succ, List.cons_append, lexemes, if_pos rfl, if_pos, ih]
    simp [List.replicate_succ]

theorem fits_stars (same : Char → Char → Prop) (n : Nat) (cs w : List Char) :
    Fits same (List.replicate (n + 1) '*' ++ cs) w ↔ ∃ v w', w = v ++ w' ∧ Fits same cs w' := by
  induction n generalizing w with
  | zero => rfl
  | succ n ih =>
    rw [List.replicate_succ, List.cons_append, Fits, if_pos rfl]
    simp only [ih]
    constructor
    · rintro ⟨v, -, rfl, v', w', rfl, h⟩
      exact ⟨v ++ v', w', (List.append_assoc ..).symm, h⟩
    · rintro ⟨v, w', rfl, h⟩
      exact ⟨v, w', rfl, [], w', rfl, h⟩

theorem isGlobstar_stars (n : Nat) {cs : List Char} (h : cs.head? ≠ some '*') :
    isGlobstar (List.replicate (n + 1) '*' ++ cs) = true ↔ n ≠ 0 ∧ cs = [] := by
  cases cs with
  | nil =>
    simp [isGlobstar]
    omega
  | cons c cs =>
    simp [isGlobstar] at h ⊢
    intro _ hc
    exact absurd hc h

theorem exists_replicate_of_isGlobstar {l : List Char} (h : isGlobstar l = true) :
    ∃ n, n ≠ 0 ∧ l = List.replicate (n + 1) '*' := by
  simp only [isGlobstar, Bool.and_eq_true, decide_eq_true_eq, List.all_eq_true, beq_iff_eq] at h
  refine ⟨l.length - 1, by omega, ?_⟩
  rw [Nat.sub_add_cancel (by omega)]
  exact List.eq_replicate_of_mem h.2

end Level

/-! ### Scanning by levels -/

/-- The options under which globs are read level by level. -/
structure Options.ReadsLevels (o : Options) : Prop where
  extended : o.extended = false
  globstar : o.globstar = true
  separator : o.separator = .posix

namespace Levels

/-- The lexemes of the levels of a glob. A globstar takes the separator after it along. -/
def lexemes : List (List Char) → List Lexeme
  | [] => []
  | l :: ls =>
    if Level.isGlobstar l then .globstar :: lexemes ls
    else Level.lexemes l ++ (if ls.isEmpty then [] else [.separator false]) ++ lexemes ls

variable {l : List Char} {ls : List (List Char)}

theorem lexemes_globstar (h : Level.isGlobstar l = true) :
    lexemes (l :: ls) = .globstar :: lexemes ls := by
  rw [lexemes, if_pos h]

theorem lexemes_last (h : Level.isGlobstar l = false) : lexemes [l] = Level.lexemes l := by
  simp [lexemes, h]

theorem lexemes_component (h : Level.isGlobstar l = false) (hls : ls ≠ []) :
    lexemes (l :: ls) = Level.lexemes l ++ .separator false :: lexemes ls := by
  simp [lexemes, h, hls]

end Levels

namespace Scan

variable {o : Options} {b : Option Char}

/-- A level that is no globstar, or does not begin a segment, yields its lexemes. -/
theorem pieces_run_level (ho : o.ReadsLevels) {l rest : List Char} (hl : '/' ∉ l)
    (hr : rest = [] ∨ rest.head? = some '/')
    (hb : atBoundary .posix b = true → Level.isGlobstar l = false) :
    ∃ b', (run o b {} 0 (l ++ rest)).pieces =
      (Level.lexemes l).map (Lexeme.piece o.separator) ++ (run o b' {} 0 rest).pieces := by
  have hr' : rest.head? ≠ some '*' := by
    rcases hr with rfl | hr
    · simp
    · simp [hr]
  induction l using Level.stars_induction generalizing b with
  | nil => exact ⟨b, rfl⟩
  | char c cs hc ih =>
    have hne : c ≠ '/' := fun h => hl (h ▸ List.mem_cons_self)
    have hlit : Literal o {} c (cs ++ rest).head? :=
      { ne_separator := by rwa [ho.separator], ne_star := hc, noClass := rfl,
        ofExtended := by simp [ho.extended],
        ofGroups := by simp, ofBraces := by simp }
    obtain ⟨b', hb'⟩ := ih (fun h => hl (List.mem_cons_of_mem _ h)) (b := some c)
      (fun h => absurd (by simpa [atBoundary, Separator.char] using h) hne)
    refine ⟨b', ?_⟩
    rw [List.cons_append, pieces_run_literal hlit, hb', Level.lexemes, if_neg hc]
    rfl
  | stars n cs hcs ih =>
    have hcs' : '/' ∉ cs := fun h => hl (List.mem_append_right _ h)
    -- a run that fills the level would make a globstar of it
    have hn : ¬(n ≠ 0 ∧ atBoundary o.separator b = true ∧
        atBoundary o.separator (cs ++ rest).head? = true) := by
      rintro ⟨hn, hbb, hbr⟩
      rw [ho.separator] at hbb hbr
      have hnil : cs = [] := by
        cases cs with
        | nil => rfl
        | cons c cs =>
          obtain rfl : c = '/' := by simpa [atBoundary, Separator.char] using hbr
          exact absurd List.mem_cons_self hcs'
      exact Bool.eq_false_iff.1 (hb hbb) ((Level.isGlobstar_stars n hcs).2 ⟨hn, hnil⟩)
    obtain ⟨b', hb'⟩ := ih hcs' (b := some '*') (by simp [atBoundary, Separator.char])
    refine ⟨b', ?_⟩
    rw [List.append_assoc, pieces_run_run ho.extended ho.globstar (head?_append_ne hcs hr') hn,
      hb', Level.lexemes_stars n hcs]
    rfl

/-- **The scan of a glob is the scan of its levels**, where no separator is lenient. -/
theorem pieces_run_levels (ho : o.ReadsLevels) {text : List Char}
    (ht : o.strict = true ∨ ¬['/', '/'] <:+: text) (hb : atBoundary .posix b = true) :
    (run o b {} 0 text).pieces =
      (Levels.lexemes (text.splitOn '/')).map (Lexeme.piece o.separator) := by
  induction text using Path.parts_induction '/' generalizing b with
  | last l hl =>
    rw [List.splitOn_eq_singleton hl]
    cases hglob : Level.isGlobstar l with
    | true =>
      obtain ⟨n, hn, rfl⟩ := Level.exists_replicate_of_isGlobstar hglob
      rw [← List.append_nil (List.replicate (n + 1) '*'),
        pieces_run_globstar ho.extended ho.globstar (by simp) ⟨hn, by rwa [ho.separator], rfl⟩,
        List.append_nil, Levels.lexemes_globstar hglob]
      rfl
    | false =>
      obtain ⟨b', hb'⟩ := pieces_run_level ho hl (Or.inl rfl) fun _ => hglob
      rw [List.append_nil] at hb'
      rw [hb', Levels.lexemes_last hglob]
      simp [run]
  | part l w hl ih =>
    have ht' : o.strict = true ∨ ¬['/', '/'] <:+: w :=
      ht.imp_right fun h hw => h (hw.trans ⟨l ++ ['/'], [], by simp⟩)
    rw [List.splitOn_append_cons_self_of_not_mem hl]
    cases hglob : Level.isGlobstar l with
    | true =>
      obtain ⟨n, hn, rfl⟩ := Level.exists_replicate_of_isGlobstar hglob
      have hw : atBoundary o.separator ('/' :: w).head? = true := by
        rw [ho.separator]
        rfl
      -- the scan goes on after the separator, which the globstar has taken along
      rw [pieces_run_globstar ho.extended ho.globstar (by simp) ⟨hn, by rwa [ho.separator], hw⟩,
        run, ih ht' rfl, Levels.lexemes_globstar hglob]
      rfl
    | false =>
      have hr : '/' :: w = [] ∨ ('/' :: w).head? = some '/' := Or.inr rfl
      obtain ⟨b', hb'⟩ := pieces_run_level ho hl hr fun _ => hglob
      -- a separator that another one follows would be lenient
      have hw : o.strict = true ∨ w.head? ≠ some '/' := by
        refine ht.imp_right fun h hw => h ?_
        obtain ⟨w, rfl⟩ := List.head?_eq_some_iff.1 hw
        exact ⟨l, w, by simp⟩
      rw [hb', pieces_run_separator ho.separator hw, ih ht' rfl,
        Levels.lexemes_component hglob (List.splitOn_ne_nil _ _), List.map_append, List.map_cons]

end Scan

/-! ### Meaning -/

/-- The lexemes make parts of a regex, which have no lookahead, do not nest too deep and match as
`R` says. -/
def Lexeme.Denotes (f : Flags) (ls : List Lexeme)
    (R : List Char → List Char → List Char → Prop) : Prop :=
  ∃ rs, Regex.Builds 3 (ls.flatMap (tokens .posix f)) rs ∧
    (∀ r ∈ rs, r.looksAhead = false ∧ r.nesting < Regex.maxNesting) ∧
    ∀ u w v, (Regex.seqs rs).Matches u w v ↔ R u w v

namespace Lexeme

open Regex

variable {f : Flags} {ls ls' : List Lexeme} {R R' : List Char → List Char → List Char → Prop}

theorem Denotes.congr (h : Denotes f ls R) (hR : ∀ u w v, R u w v ↔ R' u w v) :
    Denotes f ls R' := by
  obtain ⟨rs, hb, hl, hm⟩ := h
  exact ⟨rs, hb, hl, fun u w v => (hm u w v).trans (hR u w v)⟩

theorem denotes_nil : Denotes f [] fun _ w _ => w = [] :=
  ⟨[], Builds.nil.mono (Nat.zero_le _), by simp, fun _ _ _ => Iff.rfl⟩

theorem Denotes.append (h : Denotes f ls R) (h' : Denotes f ls' R') :
    Denotes f (ls ++ ls') fun u w v =>
      ∃ w₁ w₂, w = w₁ ++ w₂ ∧ R u w₁ (w₂ ++ v) ∧ R' (u ++ w₁) w₂ v := by
  obtain ⟨rs, hb, hl, hm⟩ := h
  obtain ⟨rs', hb', hl', hm'⟩ := h'
  refine ⟨rs ++ rs', ?_, ?_, fun u w v => ?_⟩
  · rw [List.flatMap_append]
    exact hb.append hb'
  · exact List.forall_mem_append.2 ⟨hl, hl'⟩
  · simp only [matches_seqs_append, hm, hm']

theorem denotes_of_builds {l : Lexeme} {r : Regex} {d : Nat} (hb : Builds d (l.tokens .posix f) [r])
    (hd : d ≤ 3) (hl : r.looksAhead = false) (hn : r.nesting < maxNesting)
    (hm : ∀ u w v, r.Matches u w v ↔ R u w v) : Denotes f [l] R := by
  refine ⟨[r], ?_, List.forall_mem_singleton.2 ⟨hl, hn⟩, hm⟩
  rw [List.flatMap_singleton]
  exact hb.mono hd

theorem denotes_char (c : Char) :
    Denotes f [.char c] fun _ w _ => ∃ d, w = [d] ∧ (Token.letterSet f c).contains d = true :=
  denotes_of_builds (Builds.set _) (by decide) rfl
    (Nat.lt_of_le_of_lt (nesting_letter_le c) (by decide))
    fun _ _ _ => by simp only [Matches, contains_letter]

theorem denotes_separator : Denotes f [.separator false] fun _ w _ => w = ['/'] := by
  refine denotes_of_builds (Builds.set _) (by decide) rfl (by decide) fun u w v => ?_
  simp only [Matches, CharSet.contains_single, exists_eq_right]
  rfl

theorem builds_others (i : Bool) :
    Builds 0 [.set (Separator.posix.others i), .count 0 none true]
      [.times 0 none true (.set (Separator.posix.others i))] :=
  (Builds.set _).times (Or.inl ⟨_, rfl⟩) true (by simp)

theorem matches_others (i : Bool) (u w v : List Char) :
    (Regex.times 0 none true (.set (Separator.posix.others i))).Matches u w v ↔ '/' ∉ w := by
  simp only [matches_times_set, Separator.contains_others]
  exact ⟨fun h hw => h _ hw rfl, fun h c hc he => h (by rwa [he] at hc)⟩

theorem denotes_run : Denotes f [.run] fun _ w _ => '/' ∉ w := by
  refine denotes_of_builds (Branches.one (builds_others f.ignoreCase)).close (by decide) rfl ?_
    fun u w v => matches_others f.ignoreCase u w v
  cases f.ignoreCase <;> decide

/-- One turn of a globstar. -/
def turn (f : Flags) : Regex :=
  .seq (.times 0 none true (.set (Separator.posix.others f.ignoreCase)))
    (.group (.alt (.set (.single '/')) (.edge .textEnd)))

theorem matches_turn (f : Flags) (u w v : List Char) :
    (turn f).Matches u w v ↔ ('/' ∉ w ∧ v = []) ∨ ∃ x, '/' ∉ x ∧ w = x ++ ['/'] := by
  have hsep : ∀ d, (CharSet.single '/').contains d = true ↔ d = '/' :=
    fun d => CharSet.contains_single
  constructor
  · rintro ⟨w₁, w₂, rfl, h₁, ⟨c, rfl, hc⟩ | ⟨rfl, hv⟩⟩
    · obtain rfl := (hsep c).1 hc
      exact Or.inr ⟨w₁, (matches_others _ _ _ _).1 h₁, rfl⟩
    · rw [List.append_nil]
      exact Or.inl ⟨(matches_others _ _ _ _).1 h₁, hv⟩
  · rintro (⟨hw, rfl⟩ | ⟨x, hx, rfl⟩)
    · exact ⟨w, [], by simp, (matches_others _ _ _ _).2 hw, Or.inr ⟨rfl, rfl⟩⟩
    · exact ⟨x, ['/'], rfl, (matches_others _ _ _ _).2 hx, Or.inl ⟨'/', rfl, (hsep _).2 rfl⟩⟩

theorem builds_globstar (hf : f.multiLine = false) :
    Builds 3 (tokens .posix f .globstar) [.group (.times 0 none true (.group (turn f)))] := by
  have hend : Token.endEdge f = .textEnd := by simp [Token.endEdge, hf]
  have hstop : Builds 1 [.openGroup, .set (.single '/'), .bar, .edge (Token.endEdge f), .close]
      [.group (.alt (.set (.single '/')) (.edge .textEnd))] := by
    rw [hend]
    exact (Branches.more (Builds.set _) (Branches.one (Builds.edge _))).close
  have hturn := (Branches.one
    (((builds_others f.ignoreCase).mono (Nat.zero_le 1)).append hstop)).close
  exact (Branches.one (hturn.times (Or.inr ⟨_, rfl⟩) true (by simp))).close

theorem exists_repeats_turn_cons {u l w v : List Char} (hl : '/' ∉ l)
    (h : ∃ n, Repeats (turn f).Matches n (u ++ (l ++ ['/'])) w v) :
    ∃ n, Repeats (turn f).Matches n u (l ++ '/' :: w) v := by
  obtain ⟨n, hn⟩ := h
  have hturn : (turn f).Matches u (l ++ ['/']) (w ++ v) :=
    (matches_turn f _ _ _).2 (Or.inr ⟨l, hl, rfl⟩)
  exact ⟨n + 1, l ++ ['/'], w, by simp, hturn, hn⟩

/-- Turns in a row take nothing, everything that is left, or a text that ends with a separator. -/
theorem exists_repeats_turn_iff (f : Flags) (u w v : List Char) :
    (∃ n, Repeats (turn f).Matches n u w v) ↔ w = [] ∨ v = [] ∨ ∃ x, w = x ++ ['/'] := by
  constructor
  · rintro ⟨n, h⟩
    induction n generalizing u w with
    | zero => exact Or.inl h
    | succ n ih =>
      obtain ⟨w₁, w₂, rfl, h₁, h₂⟩ := h
      rcases ih _ _ h₂ with rfl | hv | ⟨x, rfl⟩
      · rcases (matches_turn f _ _ _).1 h₁ with ⟨-, hv⟩ | ⟨x, -, rfl⟩
        · exact Or.inr (Or.inl hv)
        · exact Or.inr (Or.inr ⟨x, by simp⟩)
      · exact Or.inr (Or.inl hv)
      · exact Or.inr (Or.inr ⟨w₁ ++ x, by simp⟩)
  · rintro (rfl | rfl | ⟨x, rfl⟩)
    · exact ⟨0, rfl⟩
    · induction w using Path.parts_induction '/' generalizing u with
      | last l hl => exact ⟨1, l, [], by simp, (matches_turn f _ _ _).2 (Or.inl ⟨hl, rfl⟩), rfl⟩
      | part l w hl ih => exact exists_repeats_turn_cons hl (ih _)
    · induction x using Path.parts_induction '/' generalizing u with
      | last l hl => exact exists_repeats_turn_cons hl ⟨0, rfl⟩
      | part l w hl ih =>
        rw [List.append_assoc, List.cons_append]
        exact exists_repeats_turn_cons hl (ih _)

/-- **What a globstar matches**: nothing, everything that is left, or parts of a path with the
separator after each of them. -/
theorem denotes_globstar (hf : f.multiLine = false) :
    Denotes f [.globstar] fun _ w v => w = [] ∨ v = [] ∨ ∃ x, w = x ++ ['/'] := by
  have hn : (Regex.group (.times 0 none true (.group (turn f)))).nesting < maxNesting := by
    rw [turn]
    cases f.ignoreCase <;> decide
  refine denotes_of_builds (builds_globstar hf) (Nat.le_refl _) rfl hn fun u w v => ?_
  rw [← exists_repeats_turn_iff f u w v]
  exact ⟨fun ⟨n, _, _, h⟩ => ⟨n, h⟩, fun ⟨n, h⟩ => ⟨n, Nat.zero_le _, by simp, h⟩⟩

end Lexeme

namespace Level

open Lexeme

/-- The characters of a level that is no globstar match what it takes within one component. -/
theorem denotes {f : Flags} {l : List Char} (hl : '/' ∉ l) :
    Denotes f (lexemes l) fun _ w _ =>
      '/' ∉ w ∧ Fits (Alike f) l w := by
  induction l using stars_induction with
  | nil =>
    refine denotes_nil.congr fun u w v => ?_
    constructor
    · rintro rfl
      exact ⟨by simp, rfl⟩
    · exact fun h => h.2
  | char c cs hc ih =>
    have hne : c ≠ '/' := fun h => hl (h ▸ List.mem_cons_self)
    rw [lexemes, if_neg hc]
    refine ((denotes_char c).append (ih fun h => hl (List.mem_cons_of_mem _ h))).congr
      fun u w v => ?_
    rw [Fits, if_neg hc]
    constructor
    · rintro ⟨-, w₂, rfl, ⟨d, rfl, hd⟩, hw, hfit⟩
      refine ⟨?_, d, w₂, rfl, hd, hfit⟩
      rintro (_ | ⟨_, h⟩)
      · exact hne ((Token.letterSet_contains_separator f .posix c).1 hd)
      · exact hw h
    · rintro ⟨hw, d, w', rfl, hd, hfit⟩
      exact ⟨[d], w', rfl, ⟨d, rfl, hd⟩, fun h => hw (List.mem_cons_of_mem _ h), hfit⟩
  | stars n cs hcs ih =>
    rw [lexemes_stars n hcs]
    refine (denotes_run.append (ih fun h => hl (List.mem_append_right _ h))).congr fun u w v => ?_
    rw [fits_stars]
    constructor
    · rintro ⟨w₁, w₂, rfl, h₁, h₂, hfit⟩
      exact ⟨by simp [h₁, h₂], w₁, w₂, rfl, hfit⟩
    · rintro ⟨hw, w₁, w₂, rfl, hfit⟩
      rw [List.mem_append, not_or] at hw
      exact ⟨w₁, w₂, rfl, hw.1, hw.2, hfit⟩

end Level

end PathGlob
