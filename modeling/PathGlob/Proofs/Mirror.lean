import PathGlob.Proofs.Path
import PathGlob.Proofs.Global
import PathGlob.Proofs.Glob.Similarity
import PathGlob.Proofs.Regex.Mirror

/-!
# The two separators

With `\` as separator a glob does to paths that are written with `\` what it does to paths that are
written with `/` under the other convention. The two scans make the same moves, the regexes that are
read from the two patterns are mirrored, and the two walks see the same components.

* `Scan.moves_mirror`: the moves do not depend on the separator;
* `Lexeme.effects_mirror`: the lexemes build mirrored regexes;
* `GlobSegment.rowAfter_mirror`: mirrored segments take the same walk;
* `Glob.accepts_mirrored`: the two globs compile alike, if neither nests too deep, and accept the
  same paths.
-/

namespace PathGlob

/-- The options with another separator. -/
def Options.under (o : Options) (s : Separator) : Options := { o with separator := s }

@[simp] theorem Options.separator_under (o : Options) (s : Separator) :
    (o.under s).separator = s := rfl

/-! ### Scans -/

theorem Symbol.ofChar_mirror {c : Char} (hc : c ≠ '\\') :
    Symbol.ofChar .windows (PathGlob.mirror c) = Symbol.ofChar .posix c := by
  by_cases h : c = '/'
  · subst h
    rfl
  · rw [mirror_of_ne h]
    unfold Symbol.ofChar
    rw [if_neg (show c ≠ Separator.windows.char from hc),
      if_neg (show c ≠ Separator.posix.char from h)]

theorem head?_map_mirror_iff {rest : List Char} {d : Char} (h₁ : d ≠ '/') (h₂ : d ≠ '\\') :
    (rest.map mirror).head? = some d ↔ rest.head? = some d := by
  cases rest <;> simp [mirror_eq_iff h₁ h₂]

theorem atBoundary_mirror {b : Option Char} (hb : b ≠ some '\\') :
    atBoundary .windows (b.map mirror) = atBoundary .posix b := by
  cases b with
  | none => rfl
  | some c =>
    have hc : c ≠ '\\' := fun h => hb (h ▸ rfl)
    rw [Option.map_some, atBoundary, atBoundary, Bool.eq_iff_iff, beq_iff_eq, beq_iff_eq]
    exact mirror_eq_backslash_iff hc

theorem length_takeWhile_mirror (rest : List Char) :
    ((rest.map mirror).takeWhile (· == '*')).length = (rest.takeWhile (· == '*')).length := by
  induction rest with
  | nil => rfl
  | cons c rest ih =>
    have hc : (PathGlob.mirror c == '*') = (c == '*') := by
      rw [Bool.eq_iff_iff, beq_iff_eq, beq_iff_eq]
      exact mirror_eq_iff (by decide) (by decide)
    rw [List.map_cons, List.takeWhile_cons, List.takeWhile_cons, hc]
    split
    · rw [List.length_cons, List.length_cons, ih]
    · rfl

/-- A lexeme that two separators write with mirrored regexes. -/
def Lexeme.Mirrored : Lexeme → Prop
  | char c => c ≠ '/' ∧ c ≠ '\\'
  | separator lenient => lenient = false
  | _ => True

namespace Scan

variable {o : Options} {b : Option Char} {x : Context} {c : Char} {rest : List Char}

theorem opensGroup_mirror (op : Operator) :
    opensGroup (o.under .windows) x (rest.map mirror) op =
      opensGroup (o.under .posix) x rest op := by
  have h : ((rest.map mirror).head? == some '(') = (rest.head? == some '(') := by
    rw [Bool.eq_iff_iff, beq_iff_eq, beq_iff_eq]
    exact head?_map_mirror_iff (by decide) (by decide)
  rw [opensGroup, opensGroup, h]
  rfl

theorem head?_drop_ne (hr : '\\' ∉ rest) (n : Nat) : (rest.drop n).head? ≠ some '\\' :=
  fun h => hr (List.mem_of_mem_drop (List.mem_of_mem_head? h))

theorem starsLexeme_mirror (hb : b ≠ some '\\') (hr : '\\' ∉ rest) :
    starsLexeme (o.under .windows) (b.map mirror) (rest.map mirror) =
      starsLexeme (o.under .posix) b rest := by
  change (if !o.globstar then _ else if
    ((rest.map mirror).takeWhile (· == '*')).length != 0 &&
      atBoundary .windows (b.map mirror) &&
      atBoundary .windows
        ((rest.map mirror).drop ((rest.map mirror).takeWhile (· == '*')).length).head?
    then _ else _) = _
  rw [length_takeWhile_mirror, ← List.map_drop, List.head?_map, atBoundary_mirror hb,
    atBoundary_mirror (head?_drop_ne hr _)]
  rfl

theorem head?_map_mirror_ne (hc : Mirrorable ('/' :: rest)) :
    (rest.map mirror).head? ≠ some '\\' := by
  cases rest with
  | nil => simp
  | cons d rest =>
    rw [List.map_cons, List.head?_cons, ne_eq, Option.some.injEq,
      mirror_eq_backslash_iff hc.tail.head_ne]
    exact fun h => hc.head?_ne (congrArg some h)

/-- **A character makes the same move** under the other separator. -/
theorem move_mirror (hb : b ≠ some '\\') (hc : Mirrorable (c :: rest)) :
    move (o.under .windows) (b.map mirror) x (PathGlob.mirror c) (rest.map mirror) =
      move (o.under .posix) b x c rest := by
  by_cases hslash : c = '/'
  · subst hslash
    have h : ((rest.map mirror).head? == some '\\') = (rest.head? == some '/') :=
      (beq_false_of_ne (head?_map_mirror_ne hc)).trans (beq_false_of_ne hc.head?_ne).symm
    change Move.inert (.separator ((rest.map mirror).head? == some '\\' && !o.strict)) = _
    rw [h]
    rfl
  · have hsym := Symbol.ofChar_mirror hc.head_ne
    rw [mirror_of_ne hslash] at hsym ⊢
    simp only [move, Options.separator_under, hsym]
    cases hs : Symbol.ofChar .posix c with
    | separator => exact absurd (Symbol.ofChar_eq_separator_iff.1 hs) hslash
    | operator op =>
      simp only [opensGroup_mirror]
      cases op with
      | anyNumber => rw [starsLexeme_mirror hb hc.tail.noBackslash]
      | atMostOne | atLeastOne | exactlyOne | negated => rfl
    | plain | special | openParen | closeParen | bar | openBracket | closeBracket | openBrace
    | closeBrace | comma => rfl

theorem skip_mirror (hx : x.inClass = false) (hb : b ≠ some '\\') (hc : Mirrorable (c :: rest)) :
    (step (o.under .windows) (b.map mirror) x (PathGlob.mirror c) (rest.map mirror)).skip =
      (step (o.under .posix) b x c rest).skip := by
  by_cases hslash : c = '/'
  · subst hslash
    change (separator (o.under .windows) x (rest.map mirror)).skip =
      (separator (o.under .posix) x rest).skip
    rw [separator, separator,
      if_neg (show (rest.map mirror).head? ≠ some (o.under .windows).separator.char from
        head?_map_mirror_ne hc),
      if_neg (show rest.head? ≠ some (o.under .posix).separator.char from hc.head?_ne)]
  · have hsym := Symbol.ofChar_mirror hc.head_ne
    rw [mirror_of_ne hslash] at hsym ⊢
    simp only [step, Options.separator_under, hsym]
    cases hs : Symbol.ofChar .posix c with
    | separator => exact absurd (Symbol.ofChar_eq_separator_iff.1 hs) hslash
    | operator op =>
      simp only [opensGroup_mirror]
      split
      · rfl
      · cases op with
        | anyNumber =>
          simp only [operator, skip_stars, starsLexeme_mirror hb hc.tail.noBackslash,
            length_takeWhile_mirror]
        | atMostOne | atLeastOne | exactlyOne | negated => rfl
    | closeParen =>
      simp only [closeParen]
      split <;> rfl
    | openBracket =>
      simp only [hx, Bool.false_eq_true, ↓reduceIte]
      rfl
    | plain | special | openParen | bar | closeBracket | openBrace | closeBrace | comma => rfl

/-- **A scan makes the same moves** under the other separator. -/
theorem moves_mirror {cs : List Char} {skip : Nat} (hx : x.inClass = false) (hb : b ≠ some '\\')
    (hcs : Mirrorable cs) :
    moves (o.under .windows) (b.map mirror) x skip (cs.map mirror) =
      moves (o.under .posix) b x skip cs := by
  induction cs generalizing b x skip with
  | nil => rfl
  | cons c rest ih =>
    have hb' : some c ≠ some '\\' := fun h => hcs.head_ne (Option.some.inj h)
    cases skip with
    | zero =>
      have hx' : ((move (o.under .posix) b x c rest).context x).inClass = false := by
        rw [Move.inClass_context, hx]
      -- both scans use up as many characters, so they stay in step
      rw [List.map_cons, moves, moves, move_mirror hb hcs, skip_mirror hx hb hcs]
      exact congrArg _ (ih hx' hb' hcs.tail)
    | succ skip => exact ih hx hb' hcs.tail

theorem mirrored_move (hc : Mirrorable (c :: rest)) :
    (move (o.under .posix) b x c rest).lexeme.Mirrored := by
  have hchar : c ≠ '/' → (Lexeme.char c).Mirrored := fun h => ⟨h, hc.head_ne⟩
  by_cases hslash : c = '/'
  · subst hslash
    change (rest.head? == some '/' && !o.strict) = false
    rw [beq_false_of_ne hc.head?_ne, Bool.false_and]
  · simp only [move, Options.separator_under]
    cases hs : Symbol.ofChar .posix c with
    | separator => exact absurd (Symbol.ofChar_eq_separator_iff.1 hs) hslash
    | operator op =>
      simp only
      split
      · trivial
      · cases op with
        | anyNumber =>
          simp only [starsLexeme, Move.lexeme]
          split
          · trivial
          · split <;> trivial
        | atMostOne =>
          simp only [Move.lexeme]
          split
          · trivial
          · exact hchar hslash
        | atLeastOne | exactlyOne | negated => exact hchar hslash
    | plain | special | openBracket | closeBracket => exact hchar hslash
    | openParen | closeParen | bar | openBrace | closeBrace | comma =>
      simp only
      split <;> first | exact hchar hslash | trivial

theorem mirrored_of_mem_moves {cs : List Char} {skip : Nat} (hcs : Mirrorable cs) {m : Move}
    (hm : m ∈ moves (o.under .posix) b x skip cs) : m.lexeme.Mirrored := by
  induction cs generalizing b x skip with
  | nil => cases hm
  | cons c rest ih =>
    cases skip with
    | zero =>
      rcases List.mem_cons.1 hm with rfl | hm
      · exact mirrored_move hcs
      · exact ih hcs.tail hm
    | succ skip => exact ih hcs.tail hm

theorem lexemesOf_mirror {glob : List Char} (hg : Mirrorable glob) :
    lexemesOf (o.under .windows) glob = lexemesOf (o.under .posix) glob :=
  congrArg (List.map Move.lexeme) (moves_mirror (b := none) rfl (by simp) hg)

theorem mirrored_of_mem_lexemesOf {glob : List Char} (hg : Mirrorable glob) {l : Lexeme}
    (hl : l ∈ lexemesOf (o.under .posix) glob) : l.Mirrored := by
  obtain ⟨m, hm, rfl⟩ := List.mem_map.1 hl
  exact mirrored_of_mem_moves hg hm

end Scan

/-! ### Regexes -/

namespace Lexeme

open Regex

variable {f : Flags}

/-- Mirrored sets of characters: `\` is in the second one if `/` is in the first one, and otherwise
they are the same. -/
theorem mirrors_set {a b : CharSet} (hslash : b.contains '\\' = a.contains '/')
    (h : ∀ c, c ≠ '/' → c ≠ '\\' → b.contains c = a.contains c) : Mirrors (.set a) (.set b) := by
  refine .set fun c hc => ?_
  by_cases hs : c = '/'
  · subst hs
    exact hslash
  · rw [mirror_of_ne hs, h c hs hc]

theorem mirrors_char {c : Char} (hc : (char c).Mirrored) :
    Mirrors (.set (letter .posix f c)) (.set (letter .windows f c)) := by
  refine mirrors_set ?_ fun _ _ _ => ?_
  · rw [contains_letter, contains_letter, Bool.eq_iff_iff]
    exact iff_of_false
      (fun h => hc.2 ((Token.letterSet_contains_separator f .windows c).1 h))
      (fun h => hc.1 ((Token.letterSet_contains_separator f .posix c).1 h))
  · rw [contains_letter, contains_letter]

theorem mirrors_dot : Mirrors (.set (Token.dotSet f)) (.set (Token.dotSet f)) := by
  refine mirrors_set ?_ fun _ _ _ => rfl
  unfold Token.dotSet
  split <;> rfl

theorem mirrors_run : Mirrors (runRegex .posix f) (runRegex .windows f) := by
  refine .times 0 none true (.set fun c hc => ?_)
  rw [Bool.eq_iff_iff, Separator.contains_others, Separator.contains_others]
  exact not_congr (mirror_eq_backslash_iff hc)

theorem mirrors_single_separator :
    Mirrors (.set (.single Separator.posix.char)) (.set (.single Separator.windows.char)) := by
  refine .set fun c hc => ?_
  rw [Bool.eq_iff_iff, CharSet.contains_single, CharSet.contains_single]
  exact mirror_eq_backslash_iff hc

theorem mirrors_part {l : Lexeme} (hl : l.Mirrored) :
    Mirrors (l.part .posix f) (l.part .windows f) := by
  cases l with
  | char c => exact mirrors_char hl
  | dot => exact mirrors_dot
  | dots => exact .times 0 none true mirrors_dot
  | run => exact .group mirrors_run
  | separator lenient =>
    obtain rfl : lenient = false := hl
    exact .separator (fun _ => CharSet.contains_single) (fun _ => CharSet.contains_single) true
  | globstar =>
    exact .group (.times 0 none true (.group (.seq mirrors_run
      (.group (.alt mirrors_single_separator (.edge _))))))
  | opening g | closing g => exact .empty
  | bar => exact .empty

theorem similar_mirrors {ls : List Lexeme} (hls : ∀ l ∈ ls, l.Mirrored) :
    List.Forall₂ (Similar Mirrors.similarity .posix .windows f) ls ls :=
  List.forall₂_same.2 fun l hl =>
    similar_of_part (fun _ => trivial) (mirrors_part (hls l hl)) (mirrors_part (l := .run) trivial)

/-- **The lexemes of a glob do the same to mirrored groups** under both separators. -/
theorem effects_mirror {ls : List Lexeme} (hls : ∀ l ∈ ls, l.Mirrored) (f : Flags) :
    Agree (Frames.Similar Mirrors.similarity) (effects .posix f.inlined f.base ls)
      (effects .windows f.inlined f.base ls) :=
  effects_similar (similar_mirrors hls) (similar_base _ f)

/-! ### Nesting -/

theorem letter_windows {c : Char} (hc : (char c).Mirrored) :
    letter .windows f c = letter .posix f c := by
  have h := Symbol.ofChar_mirror hc.2
  rw [mirror_of_ne hc.1] at h
  rw [letter, letter, h]

theorem alike_others (i : Bool) :
    (Regex.set (Separator.posix.others i)).Alike (.set (Separator.windows.others i)) := by
  refine .set ?_
  rw [Separator.nesting_others, Separator.nesting_others]

/-- Only a separator is not written alike under both separators: a run of `\` is a repetition. -/
theorem alike_part {l : Lexeme} (hl : l.Mirrored) (hs : ∀ lenient, l ≠ .separator lenient) :
    (l.part .posix f).Alike (l.part .windows f) := by
  have hrun := (alike_others f.ignoreCase).times 0 none true
  cases l with
  | char c =>
    rw [part, part, letter_windows hl]
    exact .refl _
  | dot | dots | opening | bar | closing => exact .refl _
  | run => exact hrun.group
  | separator lenient => exact absurd rfl (hs lenient)
  | globstar =>
    have hsep : (Regex.set (.single Separator.posix.char)).Alike
        (.set (.single Separator.windows.char)) := .set rfl
    exact ((hrun.seq ((hsep.alt (.refl _)).group)).group.times 0 none true).group

theorem shallower_part {l : Lexeme} (hl : l.Mirrored) :
    (l.part .posix f).Shallower (l.part .windows f) := by
  by_cases hs : ∀ lenient, l ≠ .separator lenient
  · have h := alike_part (f := f) hl hs
    exact ⟨h.isRow, h.isChoice, Nat.le_of_eq h.nesting⟩
  · push Not at hs
    obtain ⟨lenient, rfl⟩ := hs
    obtain rfl : lenient = false := hl
    exact ⟨rfl, rfl, Nat.zero_le _⟩

end Lexeme

/-! ### Matchers -/

/-- The second matcher does to texts with `\` for `/` what the first one does, where neither search
gives up. -/
def Matcher.Mirrors (m m' : Matcher) : Prop :=
  ∀ t, Mirrorable t → m.regex.givesUp t = false → m'.regex.givesUp (t.map mirror) = false →
    m'.accepts (t.map mirror) = m.accepts t

theorem Matcher.mirrors_of_compile {f : Flags} {ls : List Lexeme} (hls : ∀ l ∈ ls, l.Mirrored)
    {m m' : Matcher}
    (hm : compile (String.ofList (f.pattern (ls.flatMap (Lexeme.write .posix)))) f = .ok m)
    (hm' : compile (String.ofList (f.pattern (ls.flatMap (Lexeme.write .windows)))) f = .ok m') :
    m.Mirrors m' := by
  intro t ht hg hg'
  have hr := read_of_compile hm
  have hr' := read_of_compile hm'
  rw [String.toList_ofList] at hr hr'
  have hmirrors : Regex.Mirrors m.regex m'.regex :=
    Lexeme.rel_of_read (Lexeme.effects_mirror hls f) hr hr'
  rw [Bool.eq_iff_iff, accepts_iff_of_givesUp hm' hg', accepts_iff_of_givesUp hm hg,
    hmirrors.matchesIn_iff ht]

namespace GlobSegment

/-- The two segments are both globstars or not, and their matchers are mirrored if there are any. -/
structure Mirrors (s s' : GlobSegment) : Prop where
  globstar : s'.globstar = s.globstar
  matcher : (∃ e e', s.matcher = .error e ∧ s'.matcher = .error e') ∨
    ∃ m m', s.matcher = .ok m ∧ s'.matcher = .ok m' ∧ m.Mirrors m'

theorem exists_matcher_mirror (f : Flags) {k : List Lexeme × Bool} (hk : ∀ l ∈ k.1, l.Mirrored)
    (hs : ∀ l ∈ k.1, ∀ lenient, l ≠ .separator lenient) :
    (∃ m, (compile f (Lexeme.segment .posix k)).matcher = .ok m) ↔
      ∃ m', (compile f (Lexeme.segment .windows k)).matcher = .ok m' := by
  have hsimilar : List.Forall₂ (Lexeme.Similar Regex.Alike.similarity .posix .windows f.inlined)
      k.1 k.1 := List.forall₂_same.2 fun l hl => Lexeme.similar_of_part (fun _ => trivial)
    (Lexeme.alike_part (hk l hl) (hs l hl)) (Lexeme.alike_part (l := .run) trivial nofun)
  have h := Lexeme.effects_similar hsimilar (Lexeme.similar_base _ f.ofComponent)
  rw [Lexeme.exists_segment_iff_fits, Lexeme.exists_segment_iff_fits]
  exact Lexeme.exists_fits_iff_of_alike h

theorem mirrors_compile (f : Flags) {k : List Lexeme × Bool} (hk : ∀ l ∈ k.1, l.Mirrored)
    (hs : ∀ l ∈ k.1, ∀ lenient, l ≠ .separator lenient) :
    (compile f (Lexeme.segment .posix k)).Mirrors (compile f (Lexeme.segment .windows k)) := by
  refine ⟨rfl, ?_⟩
  have hiff := exists_matcher_mirror f hk hs
  cases hm : (compile f (Lexeme.segment .posix k)).matcher with
  | error e =>
    cases hm' : (compile f (Lexeme.segment .windows k)).matcher with
    | error e' => exact Or.inl ⟨e, e', rfl, rfl⟩
    | ok m' =>
      obtain ⟨m, hm'⟩ := hiff.2 ⟨m', hm'⟩
      rw [hm] at hm'
      cases hm'
  | ok m =>
    obtain ⟨m', hm'⟩ := hiff.1 ⟨m, hm⟩
    exact Or.inr ⟨m, m', rfl, hm', Matcher.mirrors_of_compile (f := f.ofComponent) hk hm hm'⟩

theorem map_shape_eq {ss ss' : List GlobSegment} (h : List.Forall₂ Mirrors ss ss') :
    (ss'.map fun s => (s.globstar, s.matcher?.isSome)) =
      ss.map fun s => (s.globstar, s.matcher?.isSome) := by
  induction h with
  | nil => rfl
  | cons hs _ ih =>
    rw [List.map_cons, List.map_cons, ih, hs.globstar, matcher?, matcher?]
    obtain ⟨e, e', he, he'⟩ | ⟨m, m', hm, hm', -⟩ := hs.matcher
    · rw [he, he']
      rfl
    · rw [hm, hm']
      rfl

end GlobSegment

/-! ### Walks -/

theorem Path.split_mirror {t : List Char} (ht : '\\' ∉ t) :
    split Separator.windows.splits (t.map mirror) = split Separator.posix.splits t := by
  induction t with
  | nil => rfl
  | cons c t ih =>
    have hc : c ≠ '\\' := fun h => ht (h ▸ List.mem_cons_self)
    rw [List.map_cons, split_cons, split_cons, ih fun h => ht (List.mem_cons_of_mem c h)]
    by_cases hslash : c = '/'
    · subst hslash
      rfl
    · have hs : Separator.windows.splits c = false := by simp [Separator.splits, hc, hslash]
      have hs' : Separator.posix.splits c = false := by simp [Separator.splits, hslash]
      rw [mirror_of_ne hslash, hs, hs']

theorem Path.components_mirror {t : List Char} (ht : '\\' ∉ t) :
    components .windows (t.map mirror) = components .posix t := by
  rw [components, split_mirror ht, components]

theorem Path.component_of_mem {t c : List Char} (ht : '\\' ∉ t)
    (hc : c ∈ components .posix t) : '/' ∉ c ∧ '\\' ∉ c := by
  have hmem : ∀ d ∈ c, d ∈ t ∧ Separator.posix.splits d = false := fun d hd =>
    mem_of_mem_split (List.mem_of_mem_filter hc) hd
  refine ⟨fun h => ?_, fun h => ht (hmem _ h).1⟩
  have := (hmem _ h).2
  simp [Separator.splits] at this

namespace Walk

variable {cs : List (List Char)} {last : Bool} {row : List Bool} {a a' : List Char → Bool}

theorem advance_congr (h : ∀ t ∈ ((row.zip cs).filter (·.1)).map (·.2), a' t = a t) :
    advance a' row cs = advance a row cs := by
  rw [advance, advance, ← List.map_uncurry_zip_eq_zipWith, ← List.map_uncurry_zip_eq_zipWith]
  refine congrArg (false :: ·) (List.map_congr_left fun q hq => ?_)
  obtain ⟨b, t⟩ := q
  cases b with
  | false => rfl
  | true => exact h t (List.mem_map_of_mem (List.mem_filter.2 ⟨hq, rfl⟩))

/-- A stage does the same if the answers to what it is asked are the same. -/
theorem next_one_congr (h : ∀ t ∈ asked cs last row (.one a), a' t = a t) :
    next cs last row (.one a') = next cs last row (.one a) := by
  rw [asked, List.forall_mem_append] at h
  have hempty : (last && row.getLastD false && a' []) = (last && row.getLastD false && a []) := by
    cases hl : last && row.getLastD false with
    | false => rfl
    | true => exact h.2 [] (by rw [if_pos hl]; exact List.mem_singleton_self _)
  simp only [next, advance_congr h.1, hempty]

theorem mem_of_mem_asked {s : Stage} {t : List Char} (ht : t ∈ asked cs last row s) :
    t ∈ cs ∨ t = [] := by
  cases s with
  | any | never => cases ht
  | one a =>
    rw [asked] at ht
    rcases List.mem_append.1 ht with ht | ht
    · obtain ⟨⟨b, t⟩, hq, rfl⟩ := List.mem_map.1 ht
      exact Or.inl (List.of_mem_zip (List.mem_of_mem_filter hq)).2
    · split at ht
      · exact Or.inr (List.mem_singleton.1 ht)
      · cases ht

end Walk

namespace GlobSegment

variable {cs : List (List Char)} {row : List Bool} {s s' : GlobSegment} {ss ss' : List GlobSegment}

/-- The searches that give up in a walk from a row. -/
def givenUp (cs : List (List Char)) (row : List Bool) (ss : List GlobSegment) : List MatcherError :=
  (ss.zip (Walk.questions cs row (ss.map stage))).flatMap fun (s, ts) =>
    match s.matcher with
    | .ok m => ts.filterMap (Glob.giveUp? m)
    | .error _ => []

theorem givenUp_cons (h : givenUp cs row (s :: ss) = []) :
    (∀ m, s.matcher = .ok m → ∀ t ∈ Walk.asked cs ss.isEmpty row s.stage,
      m.regex.givesUp t = false) ∧
    givenUp cs (Walk.next cs ss.isEmpty row s.stage) ss = [] := by
  have he : (ss.map stage).isEmpty = ss.isEmpty := List.isEmpty_map
  simp only [givenUp, List.map_cons, Walk.questions, List.zip_cons_cons, List.flatMap_cons,
    List.append_eq_nil_iff, he] at h
  refine ⟨fun m hm t ht => ?_, h.2⟩
  have h₁ := h.1
  simp only [hm, List.filterMap_eq_nil_iff] at h₁
  exact Glob.giveUp?_eq_none_iff.1 (h₁ t ht)

theorem Mirrors.next_eq (h : s.Mirrors s') (hcs : ∀ c ∈ cs, '/' ∉ c ∧ '\\' ∉ c) {last : Bool}
    (hg : ∀ m, s.matcher = .ok m → ∀ t ∈ Walk.asked cs last row s.stage,
      m.regex.givesUp t = false)
    (hg' : ∀ m, s'.matcher = .ok m → ∀ t ∈ Walk.asked cs last row s'.stage,
      m.regex.givesUp t = false) :
    Walk.next cs last row s'.stage = Walk.next cs last row s.stage := by
  cases hs : s.globstar with
  | true => simp [stage, h.globstar, hs]
  | false =>
    obtain ⟨e, e', he, he'⟩ | ⟨m, m', hm, hm', hmm⟩ := h.matcher
    · simp [stage, h.globstar, hs, he, he']
    · have hstage : s.stage = .one m.accepts := by simp [stage, hs, hm]
      have hstage' : s'.stage = .one m'.accepts := by simp [stage, h.globstar, hs, hm']
      rw [hstage] at hg ⊢
      rw [hstage'] at hg' ⊢
      refine Walk.next_one_congr fun t ht => ?_
      -- what is asked for has no separators, so it is the same text under both of them
      have ht' : '/' ∉ t ∧ '\\' ∉ t := by
        rcases Walk.mem_of_mem_asked ht with hc | rfl
        · exact hcs t hc
        · simp
      have hmap := map_mirror_of_component ht'.1
      have := hmm t (.of_component ht'.1 ht'.2) (hg m hm t ht) (hmap.symm ▸ hg' m' hm' t ht)
      rwa [hmap] at this

/-- **Mirrored segments take the same walk** over components. -/
theorem rowAfter_mirror (h : List.Forall₂ Mirrors ss ss') (hcs : ∀ c ∈ cs, '/' ∉ c ∧ '\\' ∉ c)
    (hg : givenUp cs row ss = []) (hg' : givenUp cs row ss' = []) :
    Walk.rowAfter cs row (ss'.map stage) = Walk.rowAfter cs row (ss.map stage) := by
  induction h generalizing row with
  | nil => rfl
  | @cons s s' ss ss' hs h ih =>
    have he : ss'.isEmpty = ss.isEmpty := by
      cases h <;> rfl
    obtain ⟨hs₁, hg⟩ := givenUp_cons hg
    obtain ⟨hs₁', hg'⟩ := givenUp_cons hg'
    rw [he] at hs₁' hg'
    have hnext := hs.next_eq hcs hs₁ hs₁'
    rw [hnext] at hg'
    simp only [List.map_cons, Walk.rowAfter, List.isEmpty_map, he, hnext]
    exact ih hg hg'

end GlobSegment

/-! ### Globs -/

namespace Glob

/-- A path with `\` for `/`. -/
def mirrored (path : String) : String := String.ofList (path.toList.map mirror)

variable {o : Options} {text : String} {g w : Glob}

theorem pattern_under (ht : Mirrorable text.toList) (hc : '[' ∉ text.toList) (s : Separator) :
    (translate (o.under s) text).pattern = String.ofList (o.flags.pattern
      ((Scan.lexemesOf (o.under .posix) text.toList).flatMap (Lexeme.write s))) := by
  rw [Scan.pattern_eq_lexemes fun _ => hc]
  cases s with
  | posix => rfl
  | windows =>
    rw [Scan.lexemesOf_mirror ht]
    rfl

theorem exists_compile_mirror (ht : Mirrorable text.toList) (hc : '[' ∉ text.toList)
    (hn : ∀ s p, compile (o.under s) text ≠ .error (.invalid p .treeTooDeep)) :
    (∃ w, compile (o.under .windows) text = .ok w) ↔
      ∃ g, compile (o.under .posix) text = .ok g := by
  rw [exists_compile_iff_read (hn .windows), exists_compile_iff_read (hn .posix),
    pattern_under ht hc, pattern_under ht hc, String.toList_ofList, String.toList_ofList]
  exact (Lexeme.exists_read_iff_of_agree (Lexeme.effects_mirror
    (fun l hl => Scan.mirrored_of_mem_lexemesOf ht hl) o.flags)).symm

/-- Without lookahead the pattern for `/` nests no deeper than the one for `\`. -/
theorem exists_compile_posix (ht : Mirrorable text.toList) (hc : '[' ∉ text.toList)
    (hn : o.extended = true → ¬['!', '('] <:+: text.toList)
    (h : ∃ w, compile (o.under .windows) text = .ok w) :
    ∃ g, compile (o.under .posix) text = .ok g := by
  rw [exists_compile_iff_fits, pattern_under ht hc, String.toList_ofList] at h ⊢
  have hsimilar : List.Forall₂
      (Lexeme.Similar Regex.Shallower.similarity .posix .windows o.flags.inlined)
      (Scan.lexemesOf (o.under .posix) text.toList)
      (Scan.lexemesOf (o.under .posix) text.toList) :=
    List.forall₂_same.2 fun l hl => Lexeme.similar_of_part (fun _ => trivial)
      (Lexeme.shallower_part (Scan.mirrored_of_mem_lexemesOf ht hl))
      (Lexeme.shallower_part (l := .run) trivial)
  exact Lexeme.exists_fits_of_shallower
    (Lexeme.effects_similar hsimilar (Lexeme.similar_base _ o.flags))
    (fun l hl => Scan.ne_negated_of_mem_lexemesOf (o := o.under .posix) hn hl) h

theorem mirrors_of_compile (ht : Mirrorable text.toList) (hc : '[' ∉ text.toList)
    (hg : compile (o.under .posix) text = .ok g) (hw : compile (o.under .windows) text = .ok w) :
    g.matcher.Mirrors w.matcher := by
  have hm := matcher_of_compile hg
  have hm' := matcher_of_compile hw
  rw [pattern_under ht hc] at hm hm'
  exact Matcher.mirrors_of_compile (fun l hl => Scan.mirrored_of_mem_lexemesOf ht hl) hm hm'

theorem mirrors_segments (ht : Mirrorable text.toList) (hc : '[' ∉ text.toList)
    (hg : compile (o.under .posix) text = .ok g) (hw : compile (o.under .windows) text = .ok w) :
    List.Forall₂ GlobSegment.Mirrors g.segments w.segments := by
  rw [segments_of_compile hg, segments_of_compile hw, Scan.segments_eq_lexemes fun _ => hc,
    Scan.segments_eq_lexemes fun _ => hc, Scan.lexemesOf_mirror ht, List.map_map, List.map_map,
    List.forall₂_map_left_iff, List.forall₂_map_right_iff, List.forall₂_same]
  intro k hk
  have hmem := fun l hl => Lexeme.mem_of_mem_cut (l := l) hk hl
  exact GlobSegment.mirrors_compile o.flags
    (fun l hl => Scan.mirrored_of_mem_lexemesOf ht (hmem l hl).1) fun l hl => (hmem l hl).2

theorem acceptsSegments_mirrored (ht : Mirrorable text.toList) (hc : '[' ∉ text.toList)
    (hg : compile (o.under .posix) text = .ok g) (hw : compile (o.under .windows) text = .ok w)
    {path : String} (hp : Mirrorable path.toList) (hgive : g.givenUp true path = [])
    (hgive' : w.givenUp true (mirrored path) = []) :
    w.acceptsSegments (mirrored path) = g.acceptsSegments path := by
  have hcomponents : w.components (mirrored path) = g.components path := by
    rw [components, components, options_of_compile hg, options_of_compile hw, mirrored,
      String.toList_ofList]
    exact Path.components_mirror hp.noBackslash
  have hcs : ∀ c ∈ g.components path, '/' ∉ c ∧ '\\' ∉ c := by
    rw [components, options_of_compile hg]
    exact fun c hc => Path.component_of_mem hp.noBackslash hc
  change GlobSegment.givenUp (g.components path) _ g.segments = [] at hgive
  change GlobSegment.givenUp (w.components (mirrored path)) _ w.segments = [] at hgive'
  rw [hcomponents] at hgive'
  rw [acceptsSegments, acceptsSegments, hcomponents, Walk.arrives, Walk.arrives, stages, stages,
    GlobSegment.rowAfter_mirror (mirrors_segments ht hc hg hw) hcs hgive hgive']

/-- **The two separators are alike.** A glob without classes that can be written under both
separators compiles under both or under neither, if its regex does not nest too deep under one of
them; without lookahead it compiles under `/` if it does so under `\`. Its segments are globstars
and have matchers alike, and where no search gives up, it accepts a path under one of them exactly
if it accepts the path with `\` for `/` under the other one, as a whole and by segments. -/
theorem accepts_mirrored (o : Options) (text : String) (ht : Mirrorable text.toList)
    (hc : '[' ∉ text.toList) :
    ((∀ s p, compile (o.under s) text ≠ .error (.invalid p .treeTooDeep)) →
      ((∃ w, compile (o.under .windows) text = .ok w) ↔
        ∃ g, compile (o.under .posix) text = .ok g)) ∧
    ((o.extended = true → ¬['!', '('] <:+: text.toList) →
      (∃ w, compile (o.under .windows) text = .ok w) →
        ∃ g, compile (o.under .posix) text = .ok g) ∧
    ∀ g w, compile (o.under .posix) text = .ok g → compile (o.under .windows) text = .ok w →
      (w.segments.map fun s => (s.globstar, s.matcher?.isSome)) =
        (g.segments.map fun s => (s.globstar, s.matcher?.isSome)) ∧
      ∀ path : String, Mirrorable path.toList →
        (g.givenUp false path = [] → w.givenUp false (mirrored path) = [] →
          w.accepts (mirrored path) = g.accepts path) ∧
        (g.givenUp true path = [] → w.givenUp true (mirrored path) = [] →
          w.acceptsSegments (mirrored path) = g.acceptsSegments path) := by
  refine ⟨exists_compile_mirror ht hc, exists_compile_posix ht hc, fun g w hg hw => ⟨?_,
    fun path hp => ⟨fun hgive hgive' => ?_, acceptsSegments_mirrored ht hc hg hw hp⟩⟩⟩
  · exact GlobSegment.map_shape_eq (mirrors_segments ht hc hg hw)
  · have h₁ := givesUp_of_givenUp hgive
    have h₂ := givesUp_of_givenUp hgive'
    rw [accepts, accepts, mirrored, String.toList_ofList]
    rw [mirrored, String.toList_ofList] at h₂
    exact mirrors_of_compile ht hc hg hw _ hp h₁ h₂

/-- `src/**/!(x)*.rs` accepts `src/a/b.rs` under `/`, and so it accepts `src\a\b.rs` under `\`. -/
theorem accepts_mirrored_globstar :
    Mirrorable "src/**/!(x)*.rs".toList ∧ '[' ∉ "src/**/!(x)*.rs".toList ∧
      Mirrorable "src/a/b.rs".toList ∧
      ∃ g w,
        compile (.under { extended := true, globstar := true } .posix) "src/**/!(x)*.rs" = .ok g ∧
        compile (.under { extended := true, globstar := true } .windows) "src/**/!(x)*.rs" = .ok w ∧
        g.accepts "src/a/b.rs" = true ∧ w.accepts "src\\a\\b.rs" = true := by
  have ht : Mirrorable "src/**/!(x)*.rs".toList := ⟨by decide, by decide⟩
  have hp : Mirrorable "src/a/b.rs".toList := ⟨by decide, by decide⟩
  have hc : '[' ∉ "src/**/!(x)*.rs".toList := by decide
  obtain ⟨-, -, h⟩ :=
    accepts_mirrored { extended := true, globstar := true } "src/**/!(x)*.rs" ht hc
  have hg : (compile (.under { extended := true, globstar := true } .posix)
      "src/**/!(x)*.rs").toOption.map
      (fun g => (g.givenUp false "src/a/b.rs", g.accepts "src/a/b.rs")) = some ([], true) := by
    decide +kernel
  have hw : (compile (.under { extended := true, globstar := true } .windows)
      "src/**/!(x)*.rs").toOption.map (·.givenUp false "src\\a\\b.rs") = some [] := by
    decide +kernel
  generalize compile (.under _ .posix) _ = a at hg h ⊢
  generalize compile (.under _ .windows) _ = b at hw h ⊢
  cases a with
  | error e => cases hg
  | ok g =>
    cases b with
    | error e => cases hw
    | ok w =>
      obtain ⟨hgive, hacc⟩ := Prod.mk.inj (Option.some.inj hg)
      have hm := ((h g w rfl rfl).2 "src/a/b.rs" hp).1 hgive (Option.some.inj hw)
      exact ⟨ht, hc, hp, g, w, rfl, rfl, hacc, hm.trans hacc⟩

theorem readsAs_separator {o : Options} (he : o.extended = true) :
    Scan.ReadsAs o (o.separator.normalize "\x7b/\x7d".toList)
      [.opening .bare, .separator false, .closing .bare] := by
  refine fun b x rest => ⟨some '\x7d', ?_⟩
  cases hs : o.separator <;>
    simp [Separator.normalize, Scan.moves, Scan.move, Scan.step, Symbol.ofChar, hs, Separator.char,
      he, Scan.separator, Move.lexeme, Move.context, Step.text]

/-- A separator in 62 groups nests as deep as it may under `/`. Under `\` it is a repetition, and
nests too deep. -/
theorem compile_windows_ne_ok :
    Mirrorable (tower "\x7b/\x7d".toList 62) ∧ '[' ∉ tower "\x7b/\x7d".toList 62 ∧
      (∃ g, compile (.under { extended := true } .posix)
        (String.ofList (tower "\x7b/\x7d".toList 62)) = .ok g) ∧
      ¬∃ w, compile (.under { extended := true } .windows)
        (String.ofList (tower "\x7b/\x7d".toList 62)) = .ok w := by
  have hclass : '[' ∉ "\x7b/\x7d".toList := by decide
  have hsingle : ¬['/', '/'] <:+: tower "\x7b/\x7d".toList 62 := by
    intro h
    have hcount := h.sublist.count_le '/'
    rw [count_tower (by decide)] at hcount
    exact absurd hcount (by decide)
  refine ⟨⟨(mem_tower (by decide) _).not.2 (by decide), hsingle⟩,
    (mem_tower (by decide) _).not.2 hclass, ?_, ?_⟩
  · rw [exists_compile_tower_iff rfl rfl rfl hclass (readsAs_separator rfl)
      (Lexeme.adds_row [.separator false] (by simp [Lexeme.Inert]) (by decide)) (by decide) rfl
      rfl]
    decide
  · rw [exists_compile_tower_iff rfl rfl rfl hclass (readsAs_separator rfl)
      (Lexeme.adds_row [.separator false] (by simp [Lexeme.Inert]) (by decide)) (by decide) rfl
      rfl]
    decide

end Glob

end PathGlob
