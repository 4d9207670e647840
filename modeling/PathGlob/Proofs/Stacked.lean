import PathGlob.Proofs.Joined
import PathGlob.Proofs.Glob.Stack
import PathGlob.Proofs.Glob.Similarity
import PathGlob.Proofs.Walk

/-!
# Stacked globstars

A globstar stands for any number of whole segments, so two of them in a row say no more than one.
This is so wherever they stand, even in groups, in choices and under lookaheads.

* `Scan.exists_stacked`: the scans of the two globs differ in one globstar only;
* `Lexeme.effects_stacked`: two globstars build what one builds, up to what it matches;
* `Walk.rowAfter_stacked`: a walk goes through two globstars as through one;
* `Glob.accepts_stacked_eq`: the two globs compile alike and agree in both tests of a path.
-/

namespace PathGlob

/-! ### Scans -/

theorem Separator.normalize_nil (s : Separator) : s.normalize [] = [] := by cases s <;> rfl

theorem Separator.normalize_stars (s : Separator) : s.normalize ['*', '*'] = ['*', '*'] := by
  cases s <;> rfl

theorem Scan.atBoundary_normalize {s : Separator} {cs : List Char}
    (h : ∀ d ∈ cs.head?, s.splits d = true) : atBoundary s (s.normalize cs).head? = true := by
  cases cs with
  | nil =>
    rw [s.normalize_nil]
    rfl
  | cons d cs =>
    rw [Separator.normalize_cons (h d rfl)]
    exact atBoundary_char s

theorem Piece.exists_cut_globstar (s : Separator) (opened : List Char) (ps : List Piece) :
    ∃ ss body, ∀ qs, cut s opened (ps ++ .globstar :: qs) = ss ++ ⟨body, true⟩ :: cut s [] qs := by
  induction ps generalizing opened with
  | nil =>
    refine ⟨[], opened ++ s.globstar, fun qs => ?_⟩
    have hne : opened ++ s.globstar ≠ [] := by simp [Separator.globstar]
    rw [List.nil_append, cut, Segment.close, if_neg hne]
    rfl
  | cons p ps ih =>
    cases p with
    | text cs => exact ih (opened ++ cs)
    | separator lenient =>
      obtain ⟨ss, body, h⟩ := ih []
      refine ⟨Segment.close opened false ++ ss, body, fun qs => ?_⟩
      rw [List.cons_append, cut, h, List.append_assoc]
    | globstar =>
      obtain ⟨ss, body, h⟩ := ih []
      refine ⟨Segment.close (opened ++ s.globstar) true ++ ss, body, fun qs => ?_⟩
      rw [List.cons_append, cut, h, List.append_assoc]

namespace Scan

variable {o : Options} {b : Option Char} {x : Context} {k : Nat} {cs rest : List Char}

theorem step_before_separator (hx : x.inClass = false) (b : Option Char) (c : Char)
    (cs rest : List Char) :
    step o b x c (cs ++ o.separator.char :: rest) = step o b x c (cs ++ [o.separator.char]) ∧
      (step o b x c (cs ++ [o.separator.char])).skip ≤ cs.length + 1 := by
  by_cases hend : c = o.separator.char ∧ cs = []
  · obtain ⟨rfl, rfl⟩ := hend
    simp only [step, Symbol.ofChar_char, separator, List.nil_append, List.head?_cons, ↓reduceIte,
      true_and]
    split <;> simp
  · have hne : c = o.separator.char → cs ≠ [] := fun hc h => hend ⟨hc, h⟩
    rw [step_append hx hne, step_append hx hne]
    refine ⟨rfl, ?_⟩
    have hskip : (step o b x c cs).skip ≤ cs.length ∨ _ := skip_le hx
    rcases hskip with h | h
    · exact Nat.le_succ_of_le h
    · exact Nat.le_of_eq h.1

/-- **A scan that has passed a separator does not see what follows**, unless it is another one. -/
theorem pieces_run_append (hx : x.inClass = false) (hn : o.extended = true → '[' ∉ cs)
    (hr : rest.head? ≠ some o.separator.char) (hk : k ≤ cs.length + 1) :
    (run o b x k (cs ++ o.separator.char :: rest)).pieces =
      (run o b x k (cs ++ [o.separator.char])).pieces ++
        (run o (some o.separator.char) (run o b x k (cs ++ [o.separator.char])).context 0
          rest).pieces := by
  induction cs generalizing b x k with
  | nil =>
    obtain rfl | rfl : k = 0 ∨ k = 1 := Nat.le_one_iff_eq_zero_or_eq_one.mp hk
    · have hstep : ∀ tail : List Char, tail.head? ≠ some o.separator.char →
          step o b x o.separator.char tail = { piece := .separator false, context := x } := by
        intro tail ht
        simp only [step, Symbol.ofChar_char]
        exact if_neg ht
      rw [List.nil_append, List.nil_append, pieces_run_cons, pieces_run_cons, hstep rest hr,
        hstep [] (by simp), context_run_separator]
      rfl
    · rfl
  | cons c cs ih =>
    have hcs : o.extended = true → '[' ∉ cs := fun he h => hn he (List.mem_cons_of_mem c h)
    cases k with
    | succ k => exact ih hx hcs (Nat.le_of_succ_le_succ hk)
    | zero =>
      obtain ⟨hstep, hskip⟩ := step_before_separator hx b c cs rest
      have hx' : (step o b x c (cs ++ [o.separator.char])).context.inClass = false := by
        have hc : o.extended = true → c ≠ '[' := fun he h => hn he (h ▸ List.mem_cons_self)
        rw [step_eq_move hx hc, Move.inClass_context, hx]
      rw [List.cons_append, List.cons_append, pieces_run_cons, pieces_run_cons, hstep,
        ih hx' hcs hskip]
      rfl

theorem pieces_run_pair (hg : o.globstar = true) (hb : atBoundary o.separator b = true)
    (hr : atBoundary o.separator rest.head? = true) :
    (run o b x 0 ('*' :: '*' :: rest)).pieces =
      .globstar :: (run o (some '*') x 1 rest).pieces := by
  have hs : rest.head? ≠ some '*' := by
    intro h
    rw [h] at hr
    exact o.separator.char_ne_star (eq_of_beq hr).symm
  have hstep : step o b x '*' (List.replicate 1 '*' ++ rest) = _ := step_stars hs (by simp)
  rw [if_neg (by simp [hg]), if_pos ⟨Nat.one_ne_zero, hb, hr⟩] at hstep
  rw [pieces_run_cons]
  exact hstep ▸ rfl

/-- A text that is empty or ends with a separator yields some lexemes, whatever follows it. -/
theorem exists_pieces_before (o : Options) {text : List Char}
    (hx : ∀ d ∈ text.getLast?, o.separator.splits d = true) (hn : o.extended = true → '[' ∉ text) :
    ∃ (ls : List Lexeme) (x : Context), x.inClass = false ∧ (ls = [] → x = {}) ∧
      ∀ rest, rest.head? ≠ some o.separator.char →
        (run o none {} 0 (o.separator.normalize text ++ rest)).pieces =
          ls.map (Lexeme.piece o.separator) ++ (run o (some o.separator.char) x 0 rest).pieces := by
  have hnormal : o.extended = true → '[' ∉ o.separator.normalize text := fun he =>
    o.separator.not_mem_normalize (by decide) (hn he)
  rcases List.eq_nil_or_concat' text with rfl | ⟨front, d, rfl⟩
  · refine ⟨[], {}, rfl, fun _ => rfl, fun rest _ => ?_⟩
    have hstart : run o none {} 0 rest = run o (some o.separator.char) {} 0 rest :=
      run_before (atBoundary_char o.separator).symm
    rw [o.separator.normalize_nil, List.nil_append, hstart]
    rfl
  · have hd : o.separator.splits d = true := hx d (by simp)
    have hlast : o.separator.normalize (front ++ [d]) =
        o.separator.normalize front ++ [o.separator.char] := by
      rw [Separator.normalize_append, Separator.normalize_cons hd, o.separator.normalize_nil]
    rw [hlast] at hnormal ⊢
    generalize o.separator.normalize front = normal at hnormal ⊢
    have hfront : o.extended = true → '[' ∉ normal := fun he h =>
      hnormal he (List.mem_append_left _ h)
    have hpieces : (run o none {} 0 (normal ++ [o.separator.char])).pieces = _ :=
      congrArg Scan.pieces (run_eq_moves rfl hnormal)
    refine ⟨(moves o none {} 0 (normal ++ [o.separator.char])).map Move.lexeme,
      (run o none {} 0 (normal ++ [o.separator.char])).context, inClass_run rfl hnormal, ?_,
      fun rest hr => ?_⟩
    · intro hnil
      cases normal <;> cases hnil
    rw [List.append_assoc, List.singleton_append, pieces_run_append rfl hfront hr (Nat.zero_le _),
      hpieces, List.map_map]
    rfl

/-- **The scans of the two globs** differ in one globstar only. -/
theorem exists_stacked (hg : o.globstar = true) {x y : String} {c : Char}
    (hc : o.separator.splits c = true)
    (hx : ∀ d ∈ x.toList.getLast?, o.separator.splits d = true)
    (hy : ∀ d ∈ y.toList.head?, o.separator.splits d = true)
    (hn : o.extended = true → '[' ∉ x.toList ∧ '[' ∉ y.toList) :
    ∃ ls ls' : List Lexeme,
      (ls = [] → Lexeme.BarsInside 0 ls') ∧
      (scan o (x ++ "**" ++ String.singleton c ++ "**" ++ y).toList).pieces =
        (ls ++ .globstar :: .globstar :: ls').map (Lexeme.piece o.separator) ∧
      (scan o (x ++ "**" ++ y).toList).pieces =
        (ls ++ .globstar :: ls').map (Lexeme.piece o.separator) := by
  obtain ⟨ls, ctx, hctx, hfirst, hbefore⟩ := exists_pieces_before o hx fun he => (hn he).1
  have hstar : '*' ≠ o.separator.char := o.separator.char_ne_star.symm
  have hstars : o.separator.normalize "**".toList = ['*', '*'] := o.separator.normalize_stars
  have hbound : atBoundary o.separator (o.separator.normalize y.toList).head? = true :=
    atBoundary_normalize hy
  have hnormal : o.extended = true → '[' ∉ o.separator.normalize y.toList := fun he =>
    o.separator.not_mem_normalize (by decide) (hn he).2
  have hafter := congrArg Scan.pieces (run_eq_moves (b := some '*') (k := 1) hctx hnormal)
  have hpair : ∀ tail : List Char, ('*' :: '*' :: tail).head? ≠ some o.separator.char := by
    intro tail
    simpa using hstar
  refine ⟨ls, (moves o (some '*') ctx 1 (o.separator.normalize y.toList)).map Move.lexeme,
    fun hls => ?_, ?_, ?_⟩
  · rw [hfirst hls]
    exact barsInside_moves (x := {})
  · have htext : o.separator.normalize (x ++ "**" ++ String.singleton c ++ "**" ++ y).toList =
        o.separator.normalize x.toList ++
          '*' :: '*' :: o.separator.char :: '*' :: '*' :: o.separator.normalize y.toList := by
      simp only [String.toList_append, String.toList_singleton, Separator.normalize_append, hstars,
        Separator.normalize_cons hc, List.append_assoc, List.cons_append, List.nil_append]
    have hone : (run o (some o.separator.char) ctx 0
        ('*' :: '*' :: o.separator.char :: '*' :: '*' :: o.separator.normalize y.toList)).pieces =
          _ := pieces_run_pair hg (atBoundary_char o.separator) (atBoundary_char o.separator)
    have htwo : (run o (some '*') ctx 1
        (o.separator.char :: '*' :: '*' :: o.separator.normalize y.toList)).pieces = _ :=
      pieces_run_pair hg (atBoundary_char o.separator) hbound
    rw [scan, htext, hbefore _ (hpair _), hone, htwo, hafter, List.map_append, List.map_cons,
      List.map_cons, List.map_map]
    rfl
  · have htext : o.separator.normalize (x ++ "**" ++ y).toList =
        o.separator.normalize x.toList ++ '*' :: '*' :: o.separator.normalize y.toList := by
      simp only [String.toList_append, Separator.normalize_append, hstars, List.append_assoc,
        List.cons_append, List.nil_append]
    rw [scan, htext, hbefore _ (hpair _), pieces_run_pair hg (atBoundary_char o.separator) hbound,
      hafter, List.map_append, List.map_cons, List.map_map]
    rfl

theorem ends_of_pieces {text : String} {ls ls' : List Lexeme}
    (h : (scan o text.toList).pieces = (ls ++ .globstar :: ls').map (Lexeme.piece o.separator)) :
    ∀ l ∈ ls.getLast?, l.Ends := by
  have hchain : (.separator false :: (ls ++ .globstar :: ls')).IsChain Lexeme.Precedes :=
    isChain_lexemes (fun _ => trivial) h
  intro l hl
  exact (List.isChain_append.1 hchain.tail).2.2 l hl .globstar rfl rfl

end Scan

/-! ### Regexes -/

namespace Lexeme

open Regex

variable {s : Separator} {f : Flags} {ls ls' : List Lexeme}

theorem width?_part_globstar : (part s f .globstar).width? = none := rfl

theorem parts_ne_nil_of_effects (hls : ∀ l ∈ ls.getLast?, l.Inert)
    (hb : ls = [] → f.anchors = true) {k : Frames} (h : effects s f.inlined f.base ls = .ok k) :
    k.inner.parts ≠ [] := by
  rcases List.eq_nil_or_concat' ls with rfl | ⟨front, l, rfl⟩
  · cases h
    simp [Flags.base, hb rfl]
  · have hl : l.Inert := hls l (by simp)
    rw [effects_append] at h
    cases hk : effects s f.inlined f.base front with
    | error e =>
      rw [hk] at h
      cases h
    | ok k₁ =>
      rw [hk] at h
      change (l.effect s f.inlined k₁).bind _ = _ at h
      rw [effect_inert hl] at h
      split at h
      · cases h
        exact List.cons_ne_nil _ _
      · cases h

/-- **Two globstars build what one builds**, up to a relation for which one of them is as good as
two, after the lexemes `ls`. -/
theorem effects_stacked (S : Similarity) (hS : ∀ r, S.Rel r r) (ha : S.Ahead)
    (hrow : ∀ k, effects s f.inlined f.base ls = .ok k →
      S.Row (k.inner.parts.reverse ++ [part s f.inlined .globstar, part s f.inlined .globstar])
        (k.inner.parts.reverse ++ [part s f.inlined .globstar])) :
    Agree (Frames.Similar S) (effects s f.inlined f.base (ls ++ .globstar :: .globstar :: ls'))
      (effects s f.inlined f.base (ls ++ .globstar :: ls')) := by
  have hsame : ∀ ls : List Lexeme, List.Forall₂ (Similar S s s f.inlined) ls ls := fun ls =>
    List.forall₂_same.2 fun l _ => similar_of_part (fun _ => ha) (hS _) (hS _)
  have hbefore := effects_similar (hsame ls) (similar_base S f)
  rw [effects_append, effects_append]
  cases hk : effects s f.inlined f.base ls with
  | error e => exact .error e
  | ok k =>
    have hparts := hrow k hk
    rw [hk] at hbefore
    obtain ⟨k', hk', hsim⟩ := hbefore.exists_ok
    obtain rfl := Except.ok.inj hk'
    have hinert : Inert .globstar := trivial
    simp only [Except.bind, effects, effect_inert hinert]
    by_cases hd : k.outer.length + depth .globstar ≤ maxDepth
    · have hd' : (k.modify (·.add (part s f.inlined .globstar))).outer.length + depth .globstar ≤
          maxDepth := hd
      simp only [if_pos hd, if_pos hd']
      refine effects_similar (hsame ls')
        ⟨⟨rfl, hsim.inner.ahead, hsim.inner.branches, ?_⟩, hsim.outer⟩
      simpa [Frames.modify, Frame.add] using hparts
    · simp only [if_neg hd]
      exact .error _

theorem effects_stacked_within : Agree (Frames.Similar (Within.similarity True))
    (effects s f.inlined f.base (ls ++ .globstar :: .globstar :: ls'))
    (effects s f.inlined f.base (ls ++ .globstar :: ls')) :=
  effects_stacked _ (fun _ => .refl nofun) trivial fun _ _ =>
    Within.seqs_append (.refl nofun) (.repeated_twice true nofun)

/-- After an anchor or another segment, two globstars nest like one. -/
theorem effects_stacked_alike (hls : ∀ l ∈ ls.getLast?, l.Inert) (hb : ls = [] → f.anchors = true) :
    Agree (Frames.Similar Alike.similarity)
      (effects s f.inlined f.base (ls ++ .globstar :: .globstar :: ls'))
      (effects s f.inlined f.base (ls ++ .globstar :: ls')) := by
  refine effects_stacked _ Alike.refl trivial fun k hk => ?_
  refine Alike.row_twice width?_part_globstar rfl (nesting_part_lt _) ?_
  simpa using parts_ne_nil_of_effects hls hb hk

section Beginning

variable (hf : f.anchors = false) (hb : BarsInside 0 ls')

include hf hb

theorem read_replicate_globstar (n : Nat) :
    Regex.read (f.inlineGroup ++
        f.pattern ((List.replicate n globstar ++ ls').flatMap (write s))) =
      (effects s f.inlined {} ls').bind fun k =>
        if k.outer = [] then
          .ok (seqs (List.replicate n (part s f.inlined .globstar) ++ k.inner.parts.reverse))
        else .error .unclosedGroup := by
  have hinert : ∀ l ∈ List.replicate n globstar, l.Inert := fun l hl =>
    List.eq_of_mem_replicate hl ▸ trivial
  have hbase : f.base = {} := by simp [Flags.base, hf]
  have htop : ∀ k, f.top k = k := fun k => by simp [Flags.top, hf]
  have hrests : Agree _ (effects s f.inlined {} ls') _ :=
    effects_rests (Frames.rests_empty (List.replicate n (part s f.inlined .globstar))) hb
  rw [read_pattern, effects_append, hbase, effects_of_inert hinert (fun l _ => l.depth_le)
    (by decide)]
  simp only [Except.bind, htop, Frames.modify, List.map_replicate, List.reverse_replicate,
    List.append_nil]
  generalize effects s f.inlined {} ls' = a at *
  generalize effects _ _ _ ls' = b at *
  cases hrests with
  | error e => rfl
  | ok h => exact h.finish_eq.trans (by rw [List.reverse_replicate])

/-- At the beginning of a pattern without anchors, a second globstar nests no deeper. -/
theorem exists_fits_globstars :
    (∃ r, Regex.read (f.inlineGroup ++
        f.pattern ((globstar :: globstar :: ls').flatMap (write s))) = .ok r ∧ r.fits = true) ↔
      ∃ r, Regex.read (f.inlineGroup ++
        f.pattern ((globstar :: ls').flatMap (write s))) = .ok r ∧ r.fits = true := by
  have htwo := read_replicate_globstar (s := s) hf hb 2
  have hone := read_replicate_globstar (s := s) hf hb 1
  change Regex.read (_ ++ f.pattern ((globstar :: globstar :: ls').flatMap _)) = _ at htwo
  change Regex.read (_ ++ f.pattern ((globstar :: ls').flatMap _)) = _ at hone
  rw [htwo, hone]
  cases effects s f.inlined {} ls' with
  | error e => simp [Except.bind]
  | ok k =>
    by_cases ho : k.outer = []
    · have hfits : ∀ rs : List Regex, (seqs (part s f.inlined globstar ::
          part s f.inlined globstar :: rs)).fits = (seqs (part s f.inlined globstar :: rs)).fits :=
        fun rs => Alike.fits_twice width?_part_globstar rfl (nesting_part_lt _)
      simp [Except.bind, ho, List.replicate_succ, hfits]
    · simp [Except.bind, ho]

end Beginning

theorem exists_fits_stacked (hfirst : ls = [] → BarsInside 0 ls')
    (hls : ∀ l ∈ ls.getLast?, l.Inert) :
    (∃ r, Regex.read (f.inlineGroup ++
        f.pattern ((ls ++ globstar :: globstar :: ls').flatMap (write s))) = .ok r ∧
          r.fits = true) ↔
      ∃ r, Regex.read (f.inlineGroup ++
        f.pattern ((ls ++ globstar :: ls').flatMap (write s))) = .ok r ∧ r.fits = true := by
  by_cases hb : ls = [] ∧ f.anchors = false
  · obtain ⟨rfl, hf⟩ := hb
    exact exists_fits_globstars hf (hfirst rfl)
  · refine exists_fits_iff_of_alike (effects_stacked_alike hls fun h => ?_)
    simpa [h] using hb

end Lexeme

/-! ### Walks -/

namespace Walk

variable {cs : List (List Char)}

theorem absorb_absorb (seen : Bool) (row : List Bool) :
    absorb seen (absorb seen row) = absorb seen row := by
  induction row generalizing seen with
  | nil => rfl
  | cons b row ih =>
    have hseen : (seen || (seen || b)) = (seen || b) := by cases seen <;> rfl
    rw [absorb, absorb, hseen, ih]

/-- **A walk goes through two globstars as through one.** -/
theorem rowAfter_stacked (row : List Bool) (ss ss' : List Stage) :
    rowAfter cs row (ss ++ .any :: .any :: ss') = rowAfter cs row (ss ++ .any :: ss') := by
  induction ss generalizing row with
  | nil =>
    show rowAfter cs (absorb false (absorb false row)) ss' = rowAfter cs (absorb false row) ss'
    rw [absorb_absorb]
  | cons s ss ih =>
    have hlast : ∀ ts : List Stage, (ss ++ .any :: ts).isEmpty = false := by
      intro ts
      cases ss <;> rfl
    rw [List.cons_append, List.cons_append, rowAfter, rowAfter, hlast, hlast, ih]

end Walk

/-! ### Globs -/

namespace Glob

theorem pattern_of_pieces {o : Options} {text : String} {ls : List Lexeme}
    (h : (scan o text.toList).pieces = ls.map (Lexeme.piece o.separator)) :
    (translate o text).pattern =
      String.ofList (o.flags.pattern (ls.flatMap (Lexeme.write o.separator))) := by
  rw [translate, h, Lexeme.body_map_piece]
  rfl

theorem exists_stages_globstar (o : Options) (ps : List Piece) :
    ∃ ss : List Stage, ∀ {g : Glob} {text : String} {qs : List Piece},
      compile o text = .ok g → (scan o text.toList).pieces = ps ++ .globstar :: qs →
        g.stages = ss ++ .any :: (Piece.cut o.separator [] qs).map
          (GlobSegment.stage ∘ GlobSegment.compile o.flags) := by
  obtain ⟨ss, body, hcut⟩ := Piece.exists_cut_globstar o.separator [] ps
  refine ⟨ss.map (GlobSegment.stage ∘ GlobSegment.compile o.flags), ?_⟩
  intro g text qs hg hscan
  rw [stages, segments_of_compile hg, translate, hscan, hcut, List.map_map, List.map_append,
    List.map_cons]
  rfl

/-- **Stacked globstars.** Where globstars are on, `**` and `**` with a separator between them are
as good as a single `**`, in any place between separators or ends of a glob without classes: with
both the glob compiles or with neither, and they agree in the tests of a path by segments and, where
no search gives up, as a whole. -/
theorem accepts_stacked_eq (o : Options) (hg : o.globstar = true) {x y : String} {c : Char}
    (hc : o.separator.splits c = true)
    (hx : ∀ d ∈ x.toList.getLast?, o.separator.splits d = true)
    (hy : ∀ d ∈ y.toList.head?, o.separator.splits d = true)
    (hn : o.extended = true → '[' ∉ x.toList ∧ '[' ∉ y.toList) :
    ((∃ g, compile o (x ++ "**" ++ String.singleton c ++ "**" ++ y) = .ok g) ↔
        ∃ w, compile o (x ++ "**" ++ y) = .ok w) ∧
      ∀ g w, compile o (x ++ "**" ++ String.singleton c ++ "**" ++ y) = .ok g →
        compile o (x ++ "**" ++ y) = .ok w → ∀ path,
          (g.givenUp false path = [] → w.givenUp false path = [] →
            g.accepts path = w.accepts path) ∧
          g.acceptsSegments path = w.acceptsSegments path := by
  obtain ⟨ls, ls', hfirst, hscan, hscan'⟩ := Scan.exists_stacked hg hc hx hy hn
  generalize x ++ "**" ++ String.singleton c ++ "**" ++ y = text at *
  generalize x ++ "**" ++ y = text' at *
  have hpattern := pattern_of_pieces hscan
  have hpattern' := pattern_of_pieces hscan'
  constructor
  · have hlast : ∀ l ∈ ls.getLast?, l.Inert := fun l hl => (Scan.ends_of_pieces hscan' l hl).inert
    rw [exists_compile_iff_fits, exists_compile_iff_fits, hpattern, hpattern', String.toList_ofList,
      String.toList_ofList]
    exact Lexeme.exists_fits_stacked hfirst hlast
  · intro g w hg hw path
    obtain ⟨hoptions, -, hm, -⟩ := eq_of_compile hg
    obtain ⟨hoptions', -, hm', -⟩ := eq_of_compile hw
    rw [hpattern] at hm
    rw [hpattern'] at hm'
    constructor
    · intro hgives hgives'
      have hr := Matcher.read_of_compile hm
      have hr' := Matcher.read_of_compile hm'
      rw [String.toList_ofList] at hr hr'
      have hwithin : g.matcher.regex.Within True w.matcher.regex :=
        Lexeme.rel_of_read Lexeme.effects_stacked_within hr hr'
      exact Matcher.accepts_eq_of_within hwithin trivial hm hm' (givesUp_of_givenUp hgives)
        (givesUp_of_givenUp hgives')
    · obtain ⟨ss, hstages⟩ := exists_stages_globstar o (ls.map (Lexeme.piece o.separator))
      rw [List.map_append] at hscan hscan'
      unfold acceptsSegments components Walk.arrives
      rw [hstages hg hscan, hstages hw hscan', hoptions, hoptions']
      exact congrArg (List.getLastD · false) (Walk.rowAfter_stacked _ _ _)

/-- `@(a/**/**/b|c)` accepts `a/x/y/b`, as `@(a/**/b|c)` does. -/
theorem accepts_stacked_eq_group :
    ∃ g w, compile { extended := true, globstar := true, separator := .posix } "@(a/**/**/b|c)" =
        .ok g ∧
      compile { extended := true, globstar := true, separator := .posix } "@(a/**/b|c)" = .ok w ∧
      w.accepts "a/x/y/b" = true ∧ g.accepts "a/x/y/b" = true := by
  obtain ⟨-, heq⟩ := accepts_stacked_eq (x := "@(a/") (y := "/b|c)") (c := '/')
    { extended := true, globstar := true, separator := .posix } rfl rfl
    (by simp [Separator.splits]) (by simp [Separator.splits]) (by simp)
  have hg : (compile { extended := true, globstar := true, separator := .posix }
      "@(a/**/**/b|c)").toOption.map (·.givenUp false "a/x/y/b") = some [] := by decide +kernel
  have hw : (compile { extended := true, globstar := true, separator := .posix }
      "@(a/**/b|c)").toOption.map (fun w => (w.givenUp false "a/x/y/b", w.accepts "a/x/y/b")) =
        some ([], true) := by decide +kernel
  obtain ⟨g, hg, hgives⟩ := exists_of_toOption_map hg
  obtain ⟨w, hw, h⟩ := exists_of_toOption_map hw
  obtain ⟨hgives', hpath⟩ := Prod.mk.inj h
  exact ⟨g, w, hg, hw, hpath, ((heq g w hg hw "a/x/y/b").1 hgives hgives').trans hpath⟩

end Glob

end PathGlob
