import PathGlob.Proofs.Anchors
import PathGlob.Proofs.Glob.Tower
import PathGlob.Proofs.Regex.Ends

/-!
# Matching anywhere in a path

With the flag `g` a pattern is not anchored, and a glob accepts the paths that it matches somewhere.
Without the flag it accepts the paths that it matches from end to end. The two are tied to one
another, although a globstar asks for the end of the path: it does so only in its last turn, and a
globstar may stop before that turn. Between the anchors a regex may not nest as deep as without.

* `Scan.run_flags`: a scan does not see the flags;
* `Lexeme.endOptional_effects`: the lexemes of a glob without lookaheads build a regex that asks for
  the end only where that may be left out;
* `Glob.accepts_global_iff`: with `g` a glob accepts the paths that have a part which it accepts
  without `g`.
-/

namespace PathGlob

/-- The options with the flag `g` put in or taken out. -/
def Options.global (o : Options) (on : Bool) : Options := { o with flags := o.flags.set .global on }

/-! ### Scans -/

theorem Separator.infix_of_infix_normalize (s : Separator) {l glob : List Char} (hl : '\\' ∉ l)
    (h : l <:+: s.normalize glob) : l <:+: glob := by
  cases s with
  | posix => exact h
  | windows =>
    obtain ⟨as, bs, h⟩ := h
    obtain ⟨xs, bs', rfl, hxs, -⟩ := List.map_eq_append_iff.1 h.symm
    obtain ⟨as', l', rfl, -, hl'⟩ := List.map_eq_append_iff.1 hxs
    have hfix : ∀ c ∈ l', (if c = '/' then '\\' else c) = c := by
      intro c hc
      by_cases hslash : c = '/'
      · exact absurd (hl' ▸ List.mem_map.2 ⟨c, hc, if_pos hslash⟩) hl
      · exact if_neg hslash
    rw [List.map_congr_left hfix, List.map_id'] at hl'
    exact ⟨as', bs', by rw [hl']⟩

namespace Scan

variable {o : Options} {b : Option Char} {x : Context} {c : Char} {k : Nat} {cs rest : List Char}

theorem run_flags (f : Flags) : run { o with flags := f } b x k cs = run o b x k cs := by
  induction cs generalizing b x k with
  | nil => rfl
  | cons c rest ih =>
    cases k with
    | zero =>
      have hstep : step { o with flags := f } b x c rest = step o b x c rest := rfl
      simp only [run, hstep, ih]
    | succ k => exact ih

theorem scan_global (on : Bool) (cs : List Char) : scan (o.global on) cs = scan o cs :=
  run_flags _

theorem exists_of_mem_moves {m : Move} (hm : m ∈ moves o b x k cs) :
    ∃ b' x' c rest, c :: rest <:+ cs ∧ m = move o b' x' c rest := by
  induction cs generalizing b x k with
  | nil => cases hm
  | cons c rest ih =>
    have hskip : ∀ {b x k}, m ∈ moves o b x k rest →
        ∃ b' x' d us, d :: us <:+ c :: rest ∧ m = move o b' x' d us := by
      intro b x k hm
      obtain ⟨b', x', d, us, hs, rfl⟩ := ih hm
      exact ⟨b', x', d, us, hs.trans (List.suffix_cons c rest), rfl⟩
    cases k with
    | zero =>
      rw [moves] at hm
      rcases List.mem_cons.1 hm with rfl | hm
      · exact ⟨b, x, c, rest, List.suffix_refl _, rfl⟩
      · exact hskip hm
    | succ k => exact hskip hm

/-- Only `!` before `(` opens a negated group. -/
theorem prefix_of_move_negated (hm : move o b x c rest = .openGroup (.marked .negated)) :
    o.extended = true ∧ ['!', '('] <+: c :: rest := by
  have hc := Symbol.char?_ofChar o.separator c
  cases hs : Symbol.ofChar o.separator c with
  | operator op =>
    simp only [move, hs] at hm
    split at hm
    · rename_i hop
      cases hm
      obtain rfl := hc '!' (by rw [hs]; rfl)
      simp only [opensGroup, Bool.and_eq_true, beq_iff_eq] at hop
      obtain ⟨rest, rfl⟩ := List.head?_eq_some_iff.1 hop.1.2
      exact ⟨hop.1.1, rest, rfl⟩
    · cases op <;> cases hm
  | plain | special | openBracket | closeBracket | separator =>
    simp only [move, hs] at hm
    cases hm
  | openParen | closeParen | bar | openBrace | closeBrace | comma =>
    simp only [move, hs] at hm
    split at hm <;> cases hm

theorem ne_negated_of_mem_lexemesOf {glob : List Char}
    (h : o.extended = true → ¬['!', '('] <:+: glob) {l : Lexeme} (hl : l ∈ lexemesOf o glob) :
    l ≠ .opening (.marked .negated) := by
  intro hneg
  obtain ⟨m, hm, hlex⟩ := List.mem_map.1 hl
  obtain ⟨b, x, c, rest, hs, hmove⟩ := exists_of_mem_moves hm
  have ha : m.Allowed x := hmove ▸ allowed_move
  have hopen : m = .openGroup (.marked .negated) := by
    rw [hneg] at hlex
    cases m with
    | inert l =>
      obtain rfl : l = .opening (.marked .negated) := hlex
      exact ha.elim
    | openGroup g =>
      obtain rfl : g = .marked .negated := Lexeme.opening.inj hlex
      rfl
    | openChoice | bar | closeGroup | closeChoice => cases hlex
  obtain ⟨he, hp⟩ := prefix_of_move_negated (hmove.symm.trans hopen)
  exact h he (o.separator.infix_of_infix_normalize (by decide) (hp.isInfix.trans hs.isInfix))

end Scan

/-! ### Regexes without lookaheads -/

namespace Regex

/-- No group is a lookahead, and all parts and branches so far ask for the end of the text only
where that may be left out. -/
structure Frame.EndOptional (k : Frame) : Prop where
  negated : k.negated = false
  parts : ∀ r ∈ k.parts, r.EndOptional
  branches : ∀ r ∈ k.branches, r.EndOptional

namespace Frame.EndOptional

variable {k : Frame} (h : k.EndOptional)

include h

theorem branch : k.branch.EndOptional :=
  endOptional_seqs.2 fun r hr => h.parts r (List.mem_reverse.1 hr)

theorem body : k.body.EndOptional := by
  refine endOptional_alts.2 fun r hr => ?_
  rcases List.mem_cons.1 (List.mem_reverse.1 hr) with rfl | hr
  · exact h.branch
  · exact h.branches r hr

theorem close : k.close.EndOptional := by
  rw [Frame.close, h.negated]
  exact h.body

theorem append {rs : List Regex} (hr : ∀ r ∈ rs, r.EndOptional) :
    Frame.EndOptional { k with parts := rs ++ k.parts } :=
  ⟨h.negated, List.forall_mem_append.2 ⟨hr, h.parts⟩, h.branches⟩

theorem split : k.split.EndOptional :=
  ⟨h.negated, by simp [Frame.split], List.forall_mem_cons.2 ⟨h.branch, h.branches⟩⟩

end Frame.EndOptional

/-- All open groups are of this kind. -/
def Frames.EndOptional (k : Frames) : Prop := ∀ i ∈ k.inner :: k.outer, i.EndOptional

theorem endOptional_of_finish {k : Frames} (h : k.EndOptional) {r : Regex}
    (hr : k.finish = .ok r) : r.EndOptional := by
  rw [Frames.finish] at hr
  split at hr
  · cases hr
    exact (h _ List.mem_cons_self).body
  · cases hr

end Regex

namespace Lexeme

open Regex

variable {s : Separator} {f : Flags} {k k' : Frames}

/-- Only a globstar asks for the end of the text, in turns that it need not take. -/
theorem endOptional_part (hm : f.multiLine = false) (l : Lexeme) :
    (l.part s f).EndOptional := by
  have he : Token.endEdge f = .textEnd := by rw [Token.endEdge, hm]; rfl
  cases l with
  | char | dot | opening | bar | closing => trivial
  | dots | run => exact Or.inl trivial
  | separator lenient => cases s <;> cases lenient <;> first | trivial | exact Or.inl trivial
  | globstar => exact Or.inr ⟨rfl, trivial, trivial, he⟩

theorem endOptional_counted {r : Regex} (h : r.EndOptional) (g : Group) :
    (r.counted g).EndOptional := by
  cases g with
  | bare => exact h
  | marked op => cases op <;> first | exact h | exact Or.inl h

theorem endOptional_closed (g : Group) {r : Regex} (h : r.EndOptional) :
    ∀ a ∈ closed s f g r, a.EndOptional := by
  intro a ha
  rw [closed] at ha
  split at ha
  · rcases List.mem_pair.1 ha with rfl | rfl
    · exact h
    · exact Or.inl trivial
  · rw [List.mem_singleton.1 ha]
    exact endOptional_counted h g

/-- **A lexeme that opens no lookahead** adds only parts of this kind. -/
theorem endOptional_effect (hm : f.multiLine = false) {l : Lexeme}
    (hl : l ≠ .opening (.marked .negated)) (h : k.EndOptional) (hk : l.effect s f k = .ok k') :
    k'.EndOptional := by
  obtain ⟨hi, ho⟩ := List.forall_mem_cons.1 h
  cases l using inert_cases with
  | inert l hinert =>
    rw [effect_inert hinert] at hk
    split at hk
    · cases hk
      have hpart : ∀ r ∈ [l.part s f], r.EndOptional :=
        List.forall_mem_singleton.2 (endOptional_part hm l)
      exact List.forall_mem_cons.2 ⟨hi.append hpart, ho⟩
    · cases hk
  | opening g =>
    have hg : (g == .marked .negated) = false := beq_false_of_ne fun hg => hl (hg ▸ rfl)
    rw [effect, hg, Frames.openGroup] at hk
    split at hk
    · cases hk
      exact List.forall_mem_cons.2 ⟨⟨rfl, by simp, by simp⟩, h⟩
    · cases hk
  | bar =>
    cases hk
    exact List.forall_mem_cons.2 ⟨hi.split, ho⟩
  | closing g =>
    obtain ⟨i, _ | ⟨j, js⟩⟩ := k
    · cases hk
    · obtain ⟨hj, hjs⟩ := List.forall_mem_cons.1 ho
      rw [effect] at hk
      split at hk
      · cases hk
      · cases hk
        refine List.forall_mem_cons.2 ⟨hj.append fun r hr => ?_, hjs⟩
        exact endOptional_closed g hi.close r (List.mem_reverse.1 hr)

theorem endOptional_effects (hm : f.multiLine = false) {ls : List Lexeme}
    (hl : ∀ l ∈ ls, l ≠ .opening (.marked .negated)) (h : k.EndOptional)
    (hk : effects s f k ls = .ok k') : k'.EndOptional := by
  induction ls generalizing k with
  | nil =>
    cases hk
    exact h
  | cons l ls ih =>
    obtain ⟨hl, hls⟩ := List.forall_mem_cons.1 hl
    rw [effects] at hk
    cases he : l.effect s f k with
    | error e =>
      rw [he] at hk
      cases hk
    | ok k₁ =>
      rw [he] at hk
      exact ih hls (endOptional_effect hm hl h he) hk

end Lexeme

/-! ### Globs -/

namespace Glob

open Regex

variable {o : Options} {text : String} {g w : Glob}

theorem endOptional_of_read (hm : o.flags.multiLine = false)
    (hc : o.extended = true → '[' ∉ text.toList)
    (hn : ∀ l ∈ Scan.lexemesOf o text.toList, l ≠ .opening (.marked .negated)) {r : Regex}
    (hr : Regex.read (o.flags.inlineGroup ++ Piece.body o.separator (scan o text.toList).pieces) =
      .ok r) : r.EndOptional := by
  rw [Scan.scan_eq_moves hc, Lexeme.body_map_piece, Lexeme.read_flatMap_write] at hr
  cases he : Lexeme.effects o.separator o.flags.inlined {} (Scan.lexemesOf o text.toList) with
  | error e =>
    rw [he] at hr
    cases hr
  | ok k =>
    rw [he] at hr
    have hbegin : Frames.EndOptional {} := by
      intro i hi
      rw [List.mem_singleton.1 hi]
      exact ⟨rfl, by simp, by simp⟩
    exact endOptional_of_finish (Lexeme.endOptional_effects (by exact hm) hn hbegin he) hr

theorem toList_pattern_global (o : Options) (text : String) :
    (translate (o.global true) text).pattern.toList =
      Piece.body o.separator (scan o text.toList).pieces := by
  rw [translate, Scan.scan_global, String.toList_ofList]
  rfl

theorem read_of_compile_global (h : compile (o.global true) text = .ok g) :
    Regex.read (o.flags.inlineGroup ++ Piece.body o.separator (scan o text.toList).pieces) =
      .ok g.matcher.regex := by
  have hm := Matcher.read_of_compile (matcher_of_compile h)
  rw [toList_pattern_global] at hm
  exact hm

theorem segments_translate_global (o : Options) (text : String) :
    (translate (o.global true) text).segments = (translate (o.global false) text).segments := by
  rw [translate, translate, Scan.scan_global, Scan.scan_global]
  rfl

/-- The anchors make no difference to whether the body of a pattern is a regex, but they are a level
of it. -/
theorem exists_compile_global_iff (hm : o.flags.multiLine = false)
    (hc : o.extended = true → '[' ∉ text.toList)
    (hn : ∀ l ∈ Scan.lexemesOf o text.toList, l ≠ .opening (.marked .negated)) :
    (∃ w, compile (o.global false) text = .ok w) ↔
      ∃ g, compile (o.global true) text = .ok g ∧
        g.matcher.regex.endNesting ≤ maxNesting := by
  have hs := Flags.startEdge_inlined hm
  have he := Flags.endEdge_inlined hm
  have hreads := read_body_and_pattern (o.global false) text hc rfl
  rw [Scan.scan_global] at hreads
  have hbodies : Regex.read ((o.global true).flags.inlineGroup ++
      Piece.body o.separator (scan o text.toList).pieces) =
        Regex.read ((o.global false).flags.inlineGroup ++
          Piece.body (o.global false).separator (scan o text.toList).pieces) := rfl
  rw [exists_compile_iff_fits, exists_compile_and_iff (·.endNesting ≤ maxNesting),
    toList_pattern_global, hbodies]
  rcases hreads with ⟨rs, hflat, hbody, hpattern⟩ | ⟨e, hbody, hpattern⟩
  · have hl : ∀ r ∈ rs, r.looksAhead = false :=
      looksAhead_seqs.1 (endOptional_of_read hm hc hn hbody).endEdged.looksAhead_eq_false
    have hpattern' : Regex.read ((o.global false).flags.inlineGroup ++
        (translate (o.global false) text).pattern.toList) =
          .ok (seqs (.edge .textStart :: rs ++ [.edge .textEnd])) := by
      rw [hpattern, ← hs, ← he]
      rfl
    rw [hpattern', hbody]
    simp only [Except.ok.injEq, exists_eq_left']
    rw [fits_of_not_looksAhead (looksAhead_anchored hl), nesting_seqs_anchored hflat,
      ← endNesting_seqs hflat, decide_eq_true_iff]
    exact ⟨fun h => ⟨fits_of_nesting_le ((le_endNesting _).trans h), h⟩, And.right⟩
  · rw [hpattern, hbody]
    simp

/-- With `g` a glob accepts the paths that the body of its pattern matches somewhere, and without it
those that the body matches from end to end. -/
theorem exists_read_global (hm : o.flags.multiLine = false)
    (hc : o.extended = true → '[' ∉ text.toList)
    (hn : ∀ l ∈ Scan.lexemesOf o text.toList, l ≠ .opening (.marked .negated))
    (hg : compile (o.global true) text = .ok g) (hw : compile (o.global false) text = .ok w) :
    ∃ r : Regex, r.EndOptional ∧
      (∀ path, g.accepts path = true ↔ ∃ u p v, path.toList = u ++ p ++ v ∧ r.Matches u p v) ∧
      ∀ path, w.accepts path = true ↔ r.Matches [] path.toList [] := by
  have hread := read_of_compile_global hg
  obtain ⟨rs, hr, hregex⟩ := regex_eq_of_compile (o := o.global false) hc rfl hw
  rw [Scan.scan_global] at hr
  obtain hrs : g.matcher.regex = seqs rs := Except.ok.inj (hread.symm.trans hr)
  have hends : g.matcher.regex.EndOptional := endOptional_of_read hm hc hn hread
  have hahead : ∀ r ∈ rs, r.looksAhead = false := fun r h =>
    ((endOptional_seqs.1 (hrs ▸ hends)) r h).endEdged.looksAhead_eq_false
  have hs := Flags.startEdge_inlined hm
  have he := Flags.endEdge_inlined hm
  refine ⟨g.matcher.regex, hends, fun path => ?_, fun path => ?_⟩
  · exact Matcher.accepts_iff_matches (matcher_of_compile hg) hends.endEdged.looksAhead_eq_false _
  · have hl : w.matcher.regex.looksAhead = false := by
      rw [hregex, looksAhead_seqs]
      refine List.forall_mem_append.2 ⟨List.forall_mem_cons.2 ⟨rfl, hahead⟩, ?_⟩
      exact List.forall_mem_singleton.2 rfl
    rw [accepts, Matcher.accepts_iff_matches (matcher_of_compile hw) hl, hregex, hrs,
      ← exists_matches_anchored, ← hs, ← he]
    rfl

/-- **The flag `g` means a search.** A glob without classes and lookaheads compiles without `g`
exactly if it compiles with it and its regex does not nest too deep between two anchors, and it has
the same segments. With `g` it accepts the paths that have a part which it accepts without `g`, if
`m` is not set. -/
theorem accepts_global_iff (o : Options) (text : String) (hm : o.flags.multiLine = false)
    (hc : o.extended = true → '[' ∉ text.toList ∧ ¬['!', '('] <:+: text.toList) :
    ((∃ w, compile (o.global false) text = .ok w) ↔
        ∃ g, compile (o.global true) text = .ok g ∧ g.matcher.regex.endNesting ≤ 250) ∧
      (translate (o.global true) text).segments = (translate (o.global false) text).segments ∧
      ∀ g w, compile (o.global true) text = .ok g → compile (o.global false) text = .ok w →
        (∀ path : String, g.accepts path = true ↔
          ∃ u q v : String, path = u ++ q ++ v ∧ w.accepts q = true) ∧
        g.segments = w.segments ∧ ∀ path, g.acceptsSegments path = w.acceptsSegments path := by
  have hclass : o.extended = true → '[' ∉ text.toList := fun he => (hc he).1
  have hn : ∀ l ∈ Scan.lexemesOf o text.toList, l ≠ .opening (.marked .negated) := fun l hl =>
    Scan.ne_negated_of_mem_lexemesOf (fun he => (hc he).2) hl
  refine ⟨exists_compile_global_iff hm hclass hn, segments_translate_global o text,
    fun g w hg hw => ?_⟩
  have hsegments : g.segments = w.segments := by
    rw [segments_of_compile hg, segments_of_compile hw, segments_translate_global]
    rfl
  obtain ⟨r, hends, hga, hwa⟩ := exists_read_global hm hclass hn hg hw
  refine ⟨fun path => ?_, hsegments, fun path => ?_⟩
  · rw [hga, hends.exists_matches_iff]
    constructor
    · rintro ⟨u, q, v, hpath, h⟩
      refine ⟨String.ofList u, String.ofList q, String.ofList v, ?_, ?_⟩
      · rw [← String.toList_inj]
        simpa using hpath
      · rwa [hwa, String.toList_ofList]
    · rintro ⟨u, q, v, rfl, h⟩
      exact ⟨u.toList, q.toList, v.toList, by simp, (hwa q).1 h⟩
  · rw [acceptsSegments, acceptsSegments, stages, stages, hsegments, components, components,
      options_of_compile hg, options_of_compile hw]
    rfl

/-- `@(a|b)/**` accepts `a/x` as a whole, and so it accepts `da/x/y` with `g`. -/
theorem accepts_global_iff_globstar :
    ∃ g w,
      compile (Options.global { extended := true, globstar := true } true) "@(a|b)/**" = .ok g ∧
      compile (Options.global { extended := true, globstar := true } false) "@(a|b)/**" = .ok w ∧
      w.accepts "a/x" = true ∧ g.accepts "da/x/y" = true := by
  obtain ⟨hiff, -, h⟩ := accepts_global_iff { extended := true, globstar := true } "@(a|b)/**" rfl
    (fun _ => by decide)
  have hw : (compile (Options.global { extended := true, globstar := true } false)
      "@(a|b)/**").toOption.map (·.accepts "a/x") = some true := by decide +kernel
  obtain ⟨w, hw, hacc⟩ := exists_of_toOption_map hw
  obtain ⟨g, hg, -⟩ := hiff.1 ⟨w, hw⟩
  exact ⟨g, w, hg, hw, hacc, ((h g w hg hw).1 "da/x/y").2 ⟨"d", "a/x", "/y", by decide, hacc⟩⟩

/-- A choice in 62 groups nests as deep as it may. Between two anchors it nests too deep. -/
theorem compile_global_ne_ok :
    (∃ g, compile (Options.global { extended := true } true)
        (String.ofList (tower "\x7ba,b\x7d".toList 62)) = .ok g) ∧
      ¬∃ w, compile (Options.global { extended := true } false)
        (String.ofList (tower "\x7ba,b\x7d".toList 62)) = .ok w := by
  have hclass : '[' ∉ "\x7ba,b\x7d".toList := by decide
  constructor
  · rw [exists_compile_tower_iff rfl rfl rfl hclass (Scan.readsAs_choice rfl)
      (Lexeme.adds_choice (g := .bare) nofun) (by decide) rfl rfl]
    decide
  · rw [exists_compile_tower_iff rfl rfl rfl hclass (Scan.readsAs_choice rfl)
      (Lexeme.adds_choice (g := .bare) nofun) (by decide) rfl rfl]
    decide

end Glob

end PathGlob
