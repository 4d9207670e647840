import PathGlob.Proofs.Walk
import PathGlob.Proofs.Global
import PathGlob.Proofs.Glob.Similarity

/-!
# Segments that cannot be built

A separator inside a group or a choice cuts it in two, and then some segment is no regex. Where the
scan of a glob that compiles reads no separator inside something, all segments are regexes, and a
segment has a matcher unless it nests too deep between its anchors.

* `Scan.separatorContexts`: what is open where the scan reads a separator;
* `Scan.cutOutside_iff`: the pattern is cut outside all groups exactly if the separators are read
  there;
* `Glob.matchers_of_separators`: when all segments can be built, and what follows if one cannot.
-/

namespace PathGlob

namespace Scan

/-- The contexts in which a scan reads a separator. -/
def separatorContexts (o : Options) (before : Option Char) (x : Context) (skip : Nat) :
    List Char → List Context
  | [] => []
  | c :: rest =>
    match skip with
    | 0 =>
      let a := step o before x c rest
      (if Symbol.ofChar o.separator c = .separator then [x] else []) ++
        separatorContexts o (some c) a.context a.skip rest
    | k + 1 => separatorContexts o (some c) x k rest

/-- The contexts in which the scan of a whole glob reads a separator. -/
def separatorContextsOf (o : Options) (glob : List Char) : List Context :=
  separatorContexts o none {} 0 (o.separator.normalize glob)

/-! ### Beginnings of segments -/

variable {o : Options} {b : Option Char} {x : Context} {c : Char} {k : Nat} {rest cs : List Char}

theorem ends_of_separator (hs : Symbol.ofChar o.separator c = .separator) :
    (move o b x c rest).lexeme.Ends := by
  simp only [move, hs]
  trivial

theorem ofChar_or_globstar (h : (move o b x c rest).lexeme.Ends) :
    Symbol.ofChar o.separator c = .separator ∨ (move o b x c rest).lexeme = .globstar := by
  cases hs : Symbol.ofChar o.separator c with
  | separator => exact .inl rfl
  | operator op =>
    simp only [move, hs] at h ⊢
    split at h
    · exact h.elim
    · rename_i hg
      cases op with
      | anyNumber =>
        refine .inr ?_
        simp only [hg, Move.lexeme, starsLexeme] at h ⊢
        split at h
        · exact h.elim
        · split at h
          · simp_all
          · exact h.elim
      | atMostOne =>
        exfalso
        simp only [Move.lexeme] at h
        split at h <;> exact h
      | atLeastOne | exactlyOne | negated => exact h.elim
  | plain | special | openBracket | closeBracket =>
    simp only [move, hs] at h
    exact h.elim
  | openParen | closeParen | bar | openBrace | closeBrace | comma =>
    simp only [move, hs] at h
    split at h <;> exact h.elim

/-! ### Cuts -/

theorem separatorContexts_eq_nil (h : o.separator.char ∉ cs) :
    separatorContexts o b x k cs = [] := by
  induction cs generalizing b x k with
  | nil => rfl
  | cons c rest ih =>
    obtain ⟨hc, hrest⟩ := List.ne_and_not_mem_of_not_mem_cons h
    cases k with
    | zero =>
      have hs : Symbol.ofChar o.separator c ≠ .separator := fun hs =>
        hc (Symbol.ofChar_eq_separator_iff.1 hs).symm
      rw [separatorContexts, if_neg hs]
      exact ih hrest
    | succ k => exact ih hrest

theorem forall_separatorContext_iff {l : Lexeme} (hc : l.Precedes (move o b x c rest).lexeme)
    (hl : l.Ends → x.opened = 0) :
    (∀ y ∈ if Symbol.ofChar o.separator c = .separator then [x] else [], y.opened = 0) ↔
      ((move o b x c rest).lexeme.Ends → x.opened = 0) := by
  by_cases hs : Symbol.ofChar o.separator c = .separator
  · have hends : (move o b x c rest).lexeme.Ends := ends_of_separator hs
    simp [hs, hends]
  · rw [if_neg hs]
    refine iff_of_true (by simp) fun hm => hl (hc ?_)
    exact (ofChar_or_globstar hm).resolve_left hs

/-- **A pattern is cut outside all groups** exactly if the separators are read there. -/
theorem cutOutside_iff (hx : x.inClass = false) (hn : o.extended = true → '[' ∉ cs) {l : Lexeme}
    (hc : (l :: (moves o b x k cs).map Move.lexeme).IsChain Lexeme.Precedes)
    (hl : l.Ends → x.opened = 0) :
    Lexeme.CutOutside x.opened ((moves o b x k cs).map Move.lexeme) ↔
      ∀ y ∈ separatorContexts o b x k cs, y.opened = 0 := by
  induction cs generalizing b x k l with
  | nil => simp [moves, separatorContexts, Lexeme.CutOutside]
  | cons c rest ih =>
    have hrest : o.extended = true → '[' ∉ rest := fun he h => hn he (List.mem_cons_of_mem c h)
    cases k with
    | zero =>
      rw [moves, List.map_cons, List.isChain_cons_cons] at hc
      have hstep : step o b x c rest = _ :=
        step_eq_move hx fun he h => hn he (h ▸ List.mem_cons_self)
      have hcontext : (step o b x c rest).context = (move o b x c rest).context x :=
        congrArg Step.context hstep
      have hx' : ((move o b x c rest).context x).inClass = false := by rw [Move.inClass_context, hx]
      have hopened := Move.opened_context (allowed_move : (move o b x c rest).Allowed x)
      rw [moves, List.map_cons, Lexeme.CutOutside, separatorContexts, List.forall_mem_append,
        forall_separatorContext_iff hc.1 hl, hcontext, ← hopened, Int.natCast_eq_zero]
      refine and_congr_right fun h => ih hx' hrest hc.2 fun hm => ?_
      rw [Lexeme.balance_inert hm.inert, h hm] at hopened
      omega
    | succ k => exact ih hx hrest hc hl

section

variable {glob : List Char} (hn : o.extended = true → '[' ∉ glob)

include hn

theorem isChain_lexemesOf : (.separator false :: lexemesOf o glob).IsChain Lexeme.Precedes := by
  have hn' : o.extended = true → '[' ∉ o.separator.normalize glob := fun he =>
    o.separator.not_mem_normalize (by decide) (hn he)
  have hpieces : (run o none {} 0 (o.separator.normalize glob)).pieces =
      (lexemesOf o glob).map (Lexeme.piece o.separator) := by
    rw [run_eq_moves rfl hn', lexemesOf, List.map_map]
    rfl
  exact isChain_lexemes (fun _ => trivial) hpieces

theorem cutOutside_lexemesOf_iff :
    Lexeme.CutOutside 0 (lexemesOf o glob) ↔ ∀ x ∈ separatorContextsOf o glob, x.opened = 0 := by
  have hn' : o.extended = true → '[' ∉ o.separator.normalize glob := fun he =>
    o.separator.not_mem_normalize (by decide) (hn he)
  exact cutOutside_iff rfl hn' (isChain_lexemesOf hn) fun _ => rfl

end

end Scan

/-! ### Matchers of segments -/

theorem Context.opened_eq_zero_iff {x : Context} :
    x.opened = 0 ↔ x.groups = [] ∧ x.braces = 0 := by
  rw [opened, Nat.add_eq_zero_iff, List.length_eq_zero_iff]

namespace Glob

open Regex

variable {o : Options} {text : String} {g : Glob}

theorem exists_matcher_iff_fits {s : Segment} {r : Regex}
    (h : Regex.read (o.flags.ofComponent.inlineGroup ++ s.pattern.toList) = .ok r) :
    (∃ m, (GlobSegment.compile o.flags s).matcher = .ok m) ↔ r.fits = true := by
  refine Matcher.exists_compile_iff_fits.trans ?_
  rw [h]
  simp

/-- The parts of a pattern that compiles nest less deep than it does between two anchors. -/
theorem exists_effects_of_compile (hc : o.extended = true → '[' ∉ text.toList)
    (h : compile o text = .ok g) :
    ∃ k, Lexeme.effects o.separator o.flags.inlined {} (Scan.lexemesOf o text.toList) = .ok k ∧
      k.outer = [] ∧ ∀ r ∈ k.inner.parts, r.nesting < g.matcher.regex.endNesting := by
  have hregex := Matcher.read_of_compile (matcher_of_compile h)
  rw [Scan.pattern_eq_lexemes hc, String.toList_ofList,
    show wholePattern o _ = o.flags.pattern _ from rfl,
    Lexeme.read_pattern_of_barsInside (Scan.barsInside_lexemesOf o text.toList)] at hregex
  cases hk : Lexeme.effects o.separator o.flags.inlined {} (Scan.lexemesOf o text.toList) with
  | error e =>
    rw [hk] at hregex
    cases hregex
  | ok k =>
    have hflat : k.Flat :=
      Frames.flat_empty.steps ((Lexeme.steps_flatMap_tokens _ (Nat.zero_le _)).trans hk)
    rw [hk] at hregex
    change (if _ then _ else _) = _ at hregex
    split at hregex
    · rename_i ho
      refine ⟨k, rfl, ho, fun r hr => ?_⟩
      rw [← Except.ok.inj hregex]
      refine nesting_lt_endNesting_seqs (fun r hr => ?_) ?_
      · rcases List.mem_append.1 hr with hr | hr
        · exact (o.flags.flat_base).1 r (List.mem_reverse.1 hr)
        · exact (hflat.top o.flags).1 r (List.mem_reverse.1 hr)
      · refine List.mem_append_right _ (List.mem_reverse.2 ?_)
        exact o.flags.parts_subset_top k hr
    · cases hregex

/-- **The segments are regexes** if all separators are read where nothing is open. They nest no
deeper than the pattern does between two anchors. -/
theorem exists_read_of_separators (hc : o.extended = true → '[' ∉ text.toList)
    (h : compile o text = .ok g)
    (hs : ∀ x ∈ Scan.separatorContextsOf o text.toList, x.opened = 0) :
    ∀ s ∈ (translate o text).segments,
      ∃ r, Regex.read (o.flags.ofComponent.inlineGroup ++ s.pattern.toList) = .ok r ∧
        (g.matcher.regex.endNesting ≤ maxNesting → r.nesting ≤ maxNesting) := by
  obtain ⟨k, hk, ho, hparts⟩ := exists_effects_of_compile hc h
  have hbegin : Lexeme.InStep o.separator o.flags.inlined
      [.edge (Token.startEdge o.flags.inlined)] [] {} :=
    ⟨{}, _, [], rfl, Frames.rests_empty _, Frames.rests_empty []⟩
  intro s hmem
  rw [Scan.segments_eq_lexemes hc, List.mem_map] at hmem
  obtain ⟨c, hcut, rfl⟩ := hmem
  obtain ⟨ps, hps, hsub⟩ := Lexeme.exists_effects_of_cutOutside hbegin
    ((Scan.cutOutside_lexemesOf_iff hc).2 hs) (Scan.barsInside_lexemesOf o text.toList) hk ho c hcut
  refine ⟨seqs (.edge (Token.startEdge o.flags.inlined) :: ps.reverse ++
    [.edge (Token.endEdge o.flags.inlined)]), ?_, fun hle => ?_⟩
  · have hread := Lexeme.read_pattern (s := o.separator) c.1 o.flags.ofComponent
    have hbase : Lexeme.effects o.separator o.flags.ofComponent.inlined o.flags.ofComponent.base
        c.1 = .ok _ := hps
    rw [hbase] at hread
    rw [Segment.pattern, String.toList_ofList]
    refine hread.trans ?_
    change Except.ok (seqs (Regex.edge _ :: (ps ++ [Regex.edge _])).reverse) = _
    rw [List.reverse_cons, List.reverse_append]
    rfl
  · have hedge : ∀ e : Edge, (Regex.edge e).nesting < maxNesting := fun e => by
      cases e <;> exact of_decide_eq_true rfl
    refine nesting_seqs_le (List.forall_mem_append.2 ⟨List.forall_mem_cons.2 ⟨hedge _, ?_⟩,
      List.forall_mem_singleton.2 (hedge _)⟩)
    intro r hr
    exact (hparts r (hsub (List.mem_reverse.1 hr))).trans_le hle

/-- The anchors of a pattern are a level of it, so a segment nests no deeper. -/
theorem endNesting_le_of_compile (hc : o.extended = true → '[' ∉ text.toList)
    (hn : o.extended = true → ¬['!', '('] <:+: text.toList) (hg : o.flags.global = false)
    (h : compile o text = .ok g) : g.matcher.regex.endNesting ≤ maxNesting := by
  obtain ⟨hr, hf⟩ := Matcher.read_and_fits_of_compile (matcher_of_compile h)
  obtain ⟨rs, -, hregex⟩ := regex_eq_of_compile hc hg h
  have hrow : g.matcher.regex.endNesting = g.matcher.regex.nesting := by
    rw [hregex]
    cases rs <;> rfl
  rw [Scan.pattern_eq_lexemes hc, String.toList_ofList] at hr
  have hl : g.matcher.regex.looksAhead = false :=
    Lexeme.looksAhead_of_read (fun l hl => Scan.ne_negated_of_mem_lexemesOf hn hl) hr
  rw [fits_of_not_looksAhead hl, decide_eq_true_iff] at hf
  exact hrow.trans_le hf

/-- **Some segment cannot be built** if a separator is read where something is open. -/
theorem exists_unbuilt_of_separator (hc : o.extended = true → '[' ∉ text.toList) {x : Context}
    (hx : x ∈ Scan.separatorContextsOf o text.toList) (hopen : x.opened ≠ 0) :
    ∃ s ∈ (translate o text).segments, s.globstar = false ∧
      ∀ m, Matcher.compile s.pattern o.flags.ofComponent ≠ .ok m := by
  by_contra hall
  push Not at hall
  rw [Scan.segments_eq_lexemes hc] at hall
  -- then all segments are balanced
  have htotal : ∀ c ∈ Lexeme.cut [] (Scan.lexemesOf o text.toList), Lexeme.total c.1 = 0 := by
    intro c hcut
    cases hglobstar : c.2 with
    | true =>
      rw [Lexeme.cut_globstar (Scan.isChain_lexemesOf hc) (fun _ => rfl) c hcut hglobstar]
      rfl
    | false =>
      obtain ⟨m, hm⟩ := hall _ (List.mem_map_of_mem hcut) hglobstar
      obtain ⟨r, hr, -⟩ := Lexeme.exists_segment_iff_fits.1 ⟨m, hm⟩
      obtain ⟨k, hk, ho⟩ := Lexeme.exists_read_iff.1 ⟨r, hr⟩
      have hlen := Lexeme.length_outer_effects hk
      rw [ho] at hlen
      simpa using hlen.symm
  exact hopen ((Scan.cutOutside_lexemesOf_iff hc).1 (Lexeme.cutOutside_of_balanced htotal) x hx)

theorem acceptsSegments_eq_false_of_unbuilt (h : compile o text = .ok g) {s : Segment}
    (hs : s ∈ (translate o text).segments) (hglobstar : s.globstar = false)
    (hm : ∀ m, Matcher.compile s.pattern o.flags.ofComponent ≠ .ok m) (path : String) :
    g.acceptsSegments path = false := by
  rw [Bool.eq_false_iff]
  intro ha
  obtain ⟨last, block, ht⟩ := ((acceptsSegments_iff_cuts h path).1 ha).exists_takes hs
  rcases ht with ht | ⟨m, hm', -⟩
  · rw [hglobstar] at ht
    cases ht
  · exact hm m hm'

/-- **When a segment cannot be built.** In a glob without classes the text of every segment is a
regex if the scan reads no separator inside a group or a choice, and the segment can be built
exactly if that regex does not nest too deep. All of them can be built if the whole pattern does not
nest too deep between two anchors, as it never does without lookahead and the flag `g`. If the scan
reads a separator inside something, some segment has no matcher and no path is accepted by segments,
while whole paths are tested against the pattern. -/
theorem matchers_of_separators (hc : o.extended = true → '[' ∉ text.toList)
    (h : compile o text = .ok g) :
    ((∀ x ∈ Scan.separatorContextsOf o text.toList, x.groups = [] ∧ x.braces = 0) →
      (∀ s ∈ (translate o text).segments,
        ∃ r, Regex.read (o.flags.ofComponent.inlineGroup ++ s.pattern.toList) = .ok r ∧
          ((∃ m, (GlobSegment.compile o.flags s).matcher = .ok m) ↔ r.fits = true)) ∧
      (g.matcher.regex.endNesting ≤ 250 ∨
          o.flags.global = false ∧ (o.extended = true → ¬['!', '('] <:+: text.toList) →
        ∀ s ∈ g.segments, ∃ m, s.matcher = .ok m)) ∧
    ((∃ x ∈ Scan.separatorContextsOf o text.toList, ¬(x.groups = [] ∧ x.braces = 0)) →
      (∃ s ∈ g.segments, s.matcher? = none) ∧ ∀ path, g.acceptsSegments path = false) ∧
    Regex.read (o.flags.inlineGroup ++ (translate o text).pattern.toList) = .ok g.matcher.regex ∧
    ∀ path, g.givenUp false path = [] →
      (g.accepts path = true ↔ g.matcher.regex.MatchesIn path.toList) := by
  have hm := matcher_of_compile h
  refine ⟨fun hs => ?_, ?_, Matcher.read_of_compile hm, fun path hp => ?_⟩
  · have hreads := exists_read_of_separators hc h fun x hx => Context.opened_eq_zero_iff.2 (hs x hx)
    refine ⟨fun s hs => ?_, fun hnest s hs => ?_⟩
    · obtain ⟨r, hr, -⟩ := hreads s hs
      exact ⟨r, hr, exists_matcher_iff_fits hr⟩
    · have hle : g.matcher.regex.endNesting ≤ 250 :=
        hnest.elim id fun hn => endNesting_le_of_compile hc hn.2 hn.1 h
      rw [segments_of_compile h] at hs
      obtain ⟨t, ht, rfl⟩ := List.mem_map.1 hs
      obtain ⟨r, hr, hn⟩ := hreads t ht
      exact (exists_matcher_iff_fits hr).2 (fits_of_nesting_le (hn hle))
  · rintro ⟨x, hx, hopen⟩
    rw [← Context.opened_eq_zero_iff] at hopen
    obtain ⟨s, hs, hglobstar, hun⟩ := exists_unbuilt_of_separator hc hx hopen
    refine ⟨⟨GlobSegment.compile o.flags s, ?_, ?_⟩,
      acceptsSegments_eq_false_of_unbuilt h hs hglobstar hun⟩
    · rw [segments_of_compile h]
      exact List.mem_map_of_mem hs
    · cases hun' : Matcher.compile s.pattern o.flags.ofComponent with
      | error e => simp [GlobSegment.matcher?, GlobSegment.compile, hun', Except.toOption]
      | ok m => exact absurd hun' (hun m)
  · rw [accepts, Matcher.accepts_iff_of_givesUp hm (givesUp_of_givenUp hp)]

/-- The separator of `{a/b,c}` is inside a choice, so `c` is accepted as a whole only. -/
theorem matchers_of_separators_choice :
    ∃ g, compile { extended := true, separator := .posix } "\x7ba/b,c\x7d" = .ok g ∧
      (∃ s ∈ g.segments, s.matcher? = none) ∧ g.acceptsSegments "c" = false ∧
      g.accepts "c" = true := by
  have hc : (compile { extended := true, separator := .posix } "\x7ba/b,c\x7d").toOption.map
      (·.accepts "c") = some true := by decide +kernel
  obtain ⟨g, h, hacc⟩ := exists_of_toOption_map hc
  have hs : ({ braces := 1 } : Context) ∈ Scan.separatorContextsOf
      { extended := true, separator := .posix } "\x7ba/b,c\x7d".toList := by decide
  obtain ⟨hnone, hfalse⟩ := (matchers_of_separators (fun _ => by decide) h).2.1 ⟨_, hs, by simp⟩
  exact ⟨g, h, hnone, hfalse "c", hacc⟩

/-- A choice in 62 groups nests as deep as it may with the flag `g`. As a segment it stands between
two anchors, and nests too deep. -/
theorem matcher_ne_ok :
    '[' ∉ tower "\x7ba,b\x7d".toList 62 ∧
      (∀ x ∈ Scan.separatorContextsOf
        { extended := true, flags := { global := true }, separator := .posix }
        (tower "\x7ba,b\x7d".toList 62), x.groups = [] ∧ x.braces = 0) ∧
      ∃ g, compile { extended := true, flags := { global := true }, separator := .posix }
          (String.ofList (tower "\x7ba,b\x7d".toList 62)) = .ok g ∧
        ∃ s ∈ g.segments, ¬∃ m, s.matcher = .ok m := by
  have hclass : '[' ∉ "\x7ba,b\x7d".toList := by decide
  have hc : '[' ∉ (String.ofList (tower "\x7ba,b\x7d".toList 62)).toList := by
    rwa [String.toList_ofList, mem_tower (by decide)]
  have hs : '/' ∉ tower "\x7ba,b\x7d".toList 62 := (mem_tower (by decide) _).not.2 (by decide)
  obtain ⟨g, hg⟩ : ∃ g,
      compile { extended := true, flags := { global := true }, separator := .posix }
        (String.ofList (tower "\x7ba,b\x7d".toList 62)) = .ok g := by
    rw [exists_compile_tower_iff rfl rfl rfl hclass (Scan.readsAs_choice rfl)
      (Lexeme.adds_choice (g := .bare) nofun) (by decide) rfl rfl]
    decide
  -- no separator cuts the glob, so it is its only segment
  have hsegments : g.segments = [GlobSegment.compile { global := true } (Lexeme.segment .posix
      (Scan.towerLexemes [.opening .bare, .char 'a', .bar, .char 'b', .closing .bare] 62,
        false))] := by
    rw [segments_of_compile hg, Scan.segments_eq_lexemes fun _ => hc, String.toList_ofList,
      Scan.lexemesOf_tower rfl (Scan.readsAs_choice rfl),
      Lexeme.cut_of_not_ends (Scan.not_ends_towerLexemes (by decide) 62)]
    rfl
  refine ⟨(mem_tower (by decide) _).not.2 hclass, ?_, g, hg, _,
    hsegments ▸ List.mem_singleton_self _, ?_⟩
  · rw [Scan.separatorContextsOf, Scan.separatorContexts_eq_nil hs]
    simp
  · rw [Lexeme.exists_segment_iff_fits,
      Lexeme.exists_fits_tower_iff rfl rfl (Lexeme.adds_choice (g := .bare) nofun) (by decide) rfl
        rfl]
    decide

end Glob

end PathGlob
