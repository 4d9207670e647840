import PathGlob.Proofs.Glob.Stack

/-!
# The anchors of a pattern

The pattern for whole paths is written without a group around its body, so the two anchors hold for
all of the body only if no alternation stands outside every group. Without classes this is so: a bar
is written only where something is open, and then a parenthesis is open in the pattern too.

* `Glob.read_body_and_pattern`: the regex of the pattern is that of the body between two edges;
* `Glob.accepts_iff_body`: a glob without classes accepts the paths that its body matches from end
  to end.
-/

namespace PathGlob

namespace Glob

open Regex

variable {g : Glob} {path : String}

/-- The regex of an anchored pattern is that of its body between two edges, if there is one. -/
theorem read_body_and_pattern (o : Options) (text : String)
    (hc : o.extended = true → '[' ∉ text.toList) (hg : o.flags.global = false) :
    (∃ rs, (∀ r ∈ rs, r.isRow = false) ∧
      Regex.read (o.flags.inlineGroup ++ Piece.body o.separator (scan o text.toList).pieces) =
        .ok (seqs rs) ∧
      Regex.read (o.flags.inlineGroup ++ (translate o text).pattern.toList) =
        .ok (seqs (.edge (Token.startEdge o.flags.inlined) :: rs ++
          [.edge (Token.endEdge o.flags.inlined)]))) ∨
    ∃ e, Regex.read (o.flags.inlineGroup ++ Piece.body o.separator (scan o text.toList).pieces) =
        .error e ∧
      Regex.read (o.flags.inlineGroup ++ (translate o text).pattern.toList) = .error e := by
  have ha : o.flags.anchors = true := by rw [Flags.anchors, hg, Bool.not_false]
  have hbars := Scan.barsInside_lexemesOf o text.toList
  rw [Scan.pattern_eq_lexemes hc, String.toList_ofList, Scan.scan_eq_moves hc,
    Lexeme.body_map_piece, Lexeme.read_flatMap_write_of_barsInside hbars,
    show wholePattern o _ = o.flags.pattern _ from rfl, Lexeme.read_pattern_of_barsInside hbars]
  cases hk : Lexeme.effects o.separator o.flags.inlined {} (Scan.lexemesOf o text.toList) with
  | error e => exact .inr ⟨e, rfl, rfl⟩
  | ok k =>
    have hflat : k.Flat :=
      Frames.flat_empty.steps ((Lexeme.steps_flatMap_tokens _ (Nat.zero_le _)).trans hk)
    by_cases ho : k.outer = []
    · refine .inl ⟨k.inner.parts.reverse, fun r hr => hflat.1 r (List.mem_reverse.1 hr), ?_, ?_⟩
      · simp [Except.bind, ho]
      · simp [Except.bind, ho, Flags.base, Flags.top, ha, Frames.modify, Frame.add]
    · exact .inr ⟨_, if_neg ho, if_neg ho⟩

theorem regex_eq_of_compile {o : Options} {text : String}
    (hc : o.extended = true → '[' ∉ text.toList) (hg : o.flags.global = false)
    (h : compile o text = .ok g) :
    ∃ rs, Regex.read (o.flags.inlineGroup ++ Piece.body o.separator (scan o text.toList).pieces) =
        .ok (seqs rs) ∧
      g.matcher.regex =
        seqs (.edge (Token.startEdge o.flags.inlined) :: rs ++
          [.edge (Token.endEdge o.flags.inlined)]) := by
  have hm := Matcher.read_of_compile (matcher_of_compile h)
  rcases read_body_and_pattern o text hc hg with ⟨rs, -, hr, hp⟩ | ⟨e, -, hp⟩
  · exact ⟨rs, hr, Except.ok.inj (hm.symm.trans hp)⟩
  · cases hm.symm.trans hp

/-- **The anchors hold for all of the pattern.** A glob without classes, compiled without the flags
that take the anchors away or let them match inside a path, accepts the paths that the body of its
pattern matches from end to end, if the search does not give up. -/
theorem accepts_iff_body (o : Options) (text : String) (hc : o.extended = true → '[' ∉ text.toList)
    (hg : o.flags.global = false) (hm : o.flags.multiLine = false) (h : compile o text = .ok g) :
    ∃ r, Regex.read (o.flags.inlineGroup ++ Piece.body o.separator (scan o text.toList).pieces) =
        .ok r ∧
      g.pattern.toList = anchored (Piece.body o.separator (scan o text.toList).pieces) ∧
      ∀ path, g.givenUp false path = [] →
        (g.accepts path = true ↔ r.Matches [] path.toList []) := by
  obtain ⟨rs, hr, hregex⟩ := regex_eq_of_compile hc hg h
  obtain ⟨-, hpattern, hmatcher, -⟩ := eq_of_compile h
  have hs := Flags.startEdge_inlined hm
  have he := Flags.endEdge_inlined hm
  refine ⟨seqs rs, hr, ?_, fun path hp => ?_⟩
  · rw [hpattern, translate, String.toList_ofList, wholePattern, Flags.anchors, hg]
    rfl
  · rw [accepts, Matcher.accepts_iff_of_givesUp hmatcher (givesUp_of_givenUp hp),
      matchesIn_iff_matches, hregex, hs, he, exists_matches_anchored]

/-- `+(a|b)` accepts `ab`, which its body matches. -/
theorem accepts_iff_body_group :
    ∃ g r, compile { extended := true } "+(a|b)" = .ok g ∧ g.accepts "ab" = true ∧
      Regex.read "(a|b)+".toList = .ok r ∧ r.Matches [] "ab".toList [] := by
  have hc : (compile { extended := true } "+(a|b)").toOption.map
      (fun g => (g.givenUp false "ab", g.accepts "ab")) = some ([], true) := by decide +kernel
  cases h : compile { extended := true } "+(a|b)" with
  | error e => rw [h] at hc; cases hc
  | ok g =>
    rw [h] at hc
    obtain ⟨hgive, hacc⟩ := Prod.mk.inj (Option.some.inj hc)
    obtain ⟨r, hr, -, ha⟩ := accepts_iff_body _ _ (fun _ => by decide) rfl rfl h
    exact ⟨g, r, rfl, hacc, hr, (ha "ab" hgive).1 hacc⟩

/-- A `{` inside a class counts as an open choice, so a comma after the class writes a bar outside
every group: `[{],b` accepts `xb`, although its body `[(]|b` matches single characters only. -/
theorem accepts_of_brace_in_class :
    ∃ g r, compile { extended := true, separator := .posix } "[\x7b],b" = .ok g ∧
      g.pattern = "^[(]|b$" ∧ g.givenUp false "xb" = [] ∧
      Regex.read (Piece.body .posix
        (scan { extended := true, separator := .posix } "[\x7b],b".toList).pieces) = .ok r ∧
      ¬(g.accepts "xb" = true ↔ r.Matches [] "xb".toList []) := by
  have hc : (compile { extended := true, separator := .posix } "[\x7b],b").toOption.map
      (fun g => (g.pattern, g.givenUp false "xb", g.accepts "xb")) =
        some ("^[(]|b$", [], true) := by decide +kernel
  have hr : (Regex.read (Piece.body .posix
      (scan { extended := true, separator := .posix } "[\x7b],b".toList).pieces)).toOption =
        some (.alt (.set (.union .empty (.single '('))) (.set (.single 'b'))) := by decide +kernel
  cases h : compile { extended := true, separator := .posix } "[\x7b],b" with
  | error e => rw [h] at hc; cases hc
  | ok g =>
    rw [h] at hc
    simp only [Except.toOption, Option.map_some, Option.some.injEq, Prod.mk.injEq] at hc
    obtain ⟨hpattern, hgive, hacc⟩ := hc
    generalize Regex.read _ = a at hr ⊢
    cases a with
    | error e => cases hr
    | ok r =>
      obtain rfl := Option.some.inj hr
      refine ⟨g, _, rfl, hpattern, hgive, rfl, fun hm => ?_⟩
      -- neither branch matches two characters
      obtain ⟨c, hw, -⟩ | ⟨c, hw, -⟩ := hm.1 hacc
      · cases hw
      · cases hw

end Glob

end PathGlob
