import PathGlob.Proofs.Basic
import PathGlob.Proofs.Glob.Level

/-!
# Negated groups

A negated group is a lookahead and the run of segment characters after it. So `!(a|b)` leaves out
not only the paths `a` and `b`, but all that begin with one of them.

* `Regex.givesUp_eq_false_of_matchesIn`: where an anchored regex that looks ahead first matches, the
  search does not give up;
* `Negated.reads`: a negated group of words is read as its lexemes;
* `Glob.accepts_negated_iff`: the paths that a negated group of words accepts.
-/

namespace PathGlob

/-! ### Searches -/

theorem Plan.search_of_found {n left left' : Nat} {r : Plan}
    (h : r.run n (fun _ left => .found left) 0 left = .found left') :
    r.search n n left = .found left' := by
  cases n with
  | zero => exact h
  | succ n =>
    rw [Plan.search, Nat.sub_self, h]
    rfl

namespace Regex

variable {a b : Regex} {t : List Char}

/-- The plan for a lookahead at the beginning of a text, and what comes after it. -/
theorem plan_lookahead (ha : a.looksAhead = false) (hb : b.looksAhead = false) :
    plan t (seq (edge .textStart) (seq (notAhead a) b)) { last := true } =
      .seq (.jump ((edge .textStart).starts t) 0)
        (.seq (.notAhead (.rest (a.starts t))) (.rest (b.starts t))) := by
  simp [plan, Place.decides, looksAhead, fixedWidth?, width?, ha, hb]

/-- **A match at the beginning of the text is found at once**, with one choice taken back. -/
theorem givesUp_eq_false_of_matchesIn (ha : a.looksAhead = false) (hb : b.looksAhead = false)
    (hpa : a.Proper) (hpb : b.Proper)
    (h : (seq (edge .textStart) (seq (notAhead a) b)).MatchesIn t) :
    givesUp t (seq (edge .textStart) (seq (notAhead a) b)) = false := by
  obtain ⟨p, q, hp, _, ⟨rfl, hstart⟩, _, ⟨rfl, hno⟩, hq⟩ := h
  obtain rfl : p = 0 := hstart
  have hbegin : ((edge .textStart).starts t).testBit 0 = true :=
    (testBit_starts t (r := edge .textStart) trivial 0).2 ⟨0, ⟨rfl, rfl⟩, Nat.zero_le _⟩
  have hahead : (a.starts t).testBit 0 = false := by
    rw [Bool.eq_false_iff]
    intro hbit
    obtain ⟨q, hq, -⟩ := (testBit_starts t hpa 0).1 hbit
    exact hno ⟨q, hq⟩
  have hrest : (b.starts t).testBit 0 = true :=
    (testBit_starts t hpb 0).2 ⟨q, hq, le_length_of_spans hq hp⟩
  have hfound : (plan t (seq (edge .textStart) (seq (notAhead a) b)) { last := true }).run t.length
      (fun _ left => .found left) 0 backtrackLimit = .found (backtrackLimit - 1) := by
    rw [plan_lookahead ha hb]
    simp [Plan.run, hbegin, hahead, hrest, backtrackLimit, Trial.negate]
  rw [givesUp, Plan.search_of_found hfound]
  simp

end Regex

/-! ### Words -/

/-- No character of the word means anything inside a group. -/
def Negated.IsWord (w : List Char) : Prop :=
  ∀ c ∈ w, c ∉ ['/', '*', '?', '[', '\x7b', '(', ')', '|']

namespace Negated

open Scan

/-- The lexemes of words with bars between them. -/
def lexemes (ws : List (List Char)) : List Lexeme :=
  List.intercalate [.bar] (ws.map (List.map Lexeme.char))

/-- The lexemes of a negated group of words. -/
def groupLexemes (ws : List (List Char)) : List Lexeme :=
  .opening (.marked .negated) :: lexemes ws ++ [.closing (.marked .negated)]

section Reading

variable {o : Options} {x : Context} {rest : List Char}

theorem reads_word (hs : o.separator = .posix) (hx : x.inClass = false) (hb : x.braces = 0)
    {w : List Char} (hw : IsWord w) (hr : rest.head? ≠ some '(') :
    Reads o x x w rest (w.map .char) := by
  induction w with
  | nil => exact Reads.nil
  | cons c w ih =>
    obtain ⟨hc, hw⟩ := List.forall_mem_cons.1 hw
    show Reads o x x ([c] ++ w) rest ([.char c] ++ w.map .char)
    refine (Reads.of_step fun b => ?_).append (ih hw)
    have hnext : (w ++ rest).head? ≠ some '(' := by
      refine head?_append_ne ?_ hr
      intro hopen
      exact hw _ (List.mem_of_mem_head? hopen) (by simp)
    have hlit : Literal o x c (w ++ rest).head? := by
      simp only [List.mem_cons, List.not_mem_nil, or_false, not_or] at hc
      obtain ⟨hslash, hstar, hone, hclass, hbrace, hopen, hclose, hbar⟩ := hc
      exact {
        ne_separator := by rwa [hs]
        ne_star := hstar
        noClass := hx
        ofExtended := fun _ => ⟨by simp [hone, hclass, hbrace], fun _ => hnext⟩
        ofGroups := fun _ => by simp [hopen, hclose, hbar]
        ofBraces := fun h => absurd hb h }
    exact step_literal hlit

theorem lexemes_cons (w : List Char) {ws : List (List Char)} (h : ws ≠ []) :
    lexemes (w :: ws) = w.map .char ++ .bar :: lexemes ws := by
  rw [lexemes, List.map_cons, List.intercalate_cons_of_ne_nil (by simpa using h)]
  simp [lexemes]

theorem reads_words (hs : o.separator = .posix) (hx : x.inClass = false) (hb : x.braces = 0)
    (hg : x.inGroup = true) {ws : List (List Char)} (hw : ∀ w ∈ ws, IsWord w)
    (hr : rest.head? ≠ some '(') :
    Reads o x x (['|'].intercalate ws) rest (lexemes ws) := by
  induction ws with
  | nil => exact Reads.nil
  | cons w ws ih =>
    obtain ⟨hword, hws⟩ := List.forall_mem_cons.1 hw
    by_cases hne : ws = []
    · subst hne
      simpa [lexemes] using reads_word hs hx hb hword hr
    · rw [List.intercalate_cons_of_ne_nil hne, lexemes_cons w hne, List.append_assoc]
      exact (reads_word hs hx hb hword (by simp)).append ((reads_bar hs hg).append (ih hws))

/-- **A negated group of words is read as its lexemes.** -/
theorem reads (he : o.extended = true) (hs : o.separator = .posix) {ws : List (List Char)}
    (hw : ∀ w ∈ ws, IsWord w) :
    Reads o {} {} (['!', '('] ++ ['|'].intercalate ws ++ [')']) []
      (groupLexemes ws) := by
  have hopen : ∀ rest, Reads o {} { groups := [.marked .negated] } ['!', '('] rest
      [.opening (.marked .negated)] := fun _ => reads_opening (x := {}) he hs rfl nofun
  refine Reads.append (Reads.append (hopen _) ?_) (reads_closing (x := {}) hs _)
  exact reads_words hs rfl rfl rfl hw (by simp)

end Reading

/-! ### Regexes -/

section Building

open Regex

variable {f : Flags}

theorem spells_word (hf : f.ignoreCase = false) (w : List Char) :
    Lexeme.Spells f (w.map .char) {w} := by
  induction w with
  | nil => exact Lexeme.spells_nil
  | cons c w ih =>
    have hcons : ({c :: w} : Language Char) = {[c]} * {w} := by
      ext v
      rw [Language.mem_mul]
      constructor
      · rintro rfl
        exact ⟨[c], rfl, w, rfl, rfl⟩
      · rintro ⟨_, rfl, _, rfl, rfl⟩
        rfl
    rw [hcons]
    exact (Lexeme.spells_char hf c).append ih

theorem exists_branches (hf : f.ignoreCase = false) {ws : List (List Char)} (hne : ws ≠ []) :
    ∃ bs, Branches 0 ((lexemes ws).flatMap (Lexeme.tokens .posix f)) bs ∧
      (∀ b ∈ bs, b.Free ∧ b.nesting < 4) ∧ ∀ w, w ∈ (alts bs).language ↔ w ∈ ws := by
  induction ws with
  | nil => exact absurd rfl hne
  | cons w ws ih =>
    obtain ⟨rs, hb, hrs, hl⟩ := spells_word hf w
    have hword : (seqs rs).Free ∧ (seqs rs).nesting < 4 :=
      ⟨free_seqs.2 fun r hr => (hrs r hr).1,
        Nat.lt_succ_of_le (nesting_seqs_le fun r hr => Nat.lt_succ_of_le (hrs r hr).2)⟩
    by_cases hws : ws = []
    · subst hws
      refine ⟨[seqs rs], ?_, List.forall_mem_singleton.2 hword, fun v => ?_⟩
      · simpa [lexemes] using Branches.one hb
      · rw [alts, hl, List.mem_singleton]
        rfl
    · obtain ⟨bs, hbs, hwords, hls⟩ := ih hws
      refine ⟨seqs rs :: bs, ?_, List.forall_mem_cons.2 ⟨hword, hwords⟩, fun v => ?_⟩
      · rw [lexemes_cons w hws, List.flatMap_append, List.flatMap_cons]
        exact Branches.more hb hbs
      · rw [language_alts_cons _ hbs.ne_nil, Language.mem_add, hl, hls, List.mem_cons]
        rfl

theorem builds {ws : List (List Char)} {bs : List Regex}
    (hb : Branches 0 ((lexemes ws).flatMap (Lexeme.tokens .posix f)) bs) :
    Builds 1 ((groupLexemes ws).flatMap (Lexeme.tokens .posix f))
      [notAhead (alts bs), .group (Lexeme.runRegex .posix f)] := by
  have hrun : Builds 1 (Lexeme.runTokens .posix f) [.group (Lexeme.runRegex .posix f)] :=
    (Branches.one (Lexeme.builds_others f.ignoreCase)).close
  simpa [groupLexemes, Lexeme.tokens, Lexeme.quantifier] using hb.closeNotAhead.append hrun

theorem matches_iff {bs : List Regex} (hfree : (alts bs).Free) {ws : List (List Char)}
    (hl : ∀ w, w ∈ (alts bs).language ↔ w ∈ ws) (t : List Char) :
    (seqs [notAhead (alts bs), .group (Lexeme.runRegex .posix f)]).Matches [] t [] ↔
      '/' ∉ t ∧ ∀ w ∈ ws, ¬w <+: t := by
  have halts : ∀ u w v, (alts bs).Matches u w v ↔ w ∈ ws := fun u w v =>
    (matches_iff_mem_language hfree u w v).trans (hl w)
  have hrun : ∀ u w v, (group (Lexeme.runRegex .posix f)).Matches u w v ↔ '/' ∉ w :=
    Lexeme.matches_others f.ignoreCase
  constructor
  · rintro ⟨w₁, w₂, rfl, ⟨rfl, hno⟩, hw₂⟩
    refine ⟨(hrun _ _ _).1 hw₂, ?_⟩
    rintro w hw ⟨v, hv⟩
    exact hno ⟨w, v, by simpa using hv.symm, (halts _ _ _).2 hw⟩
  · rintro ⟨hslash, hno⟩
    refine ⟨[], t, rfl, ⟨rfl, ?_⟩, (hrun _ _ _).2 hslash⟩
    rintro ⟨v₁, v₂, hv, hm⟩
    rw [List.append_nil] at hv
    exact hno v₁ ((halts _ _ _).1 hm) ⟨v₂, hv.symm⟩

end Building

end Negated

/-! ### Globs -/

open Regex in
/-- A matcher that looks ahead first accepts what its regex matches. -/
theorem Matcher.accepts_iff_of_lookahead {source : String} {f : Flags} {m : Matcher}
    (h : compile source f = .ok m) {a b : Regex}
    (hr : m.regex = seqs [.edge .textStart, .notAhead a, b, .edge .textEnd])
    (ha : a.looksAhead = false) (hb : b.looksAhead = false) (t : List Char) :
    m.accepts t = true ↔ (seqs [.notAhead a, b]).Matches [] t [] := by
  have hp := proper_of_compile h
  rw [hr] at hp
  have hb' : (seq b (edge .textEnd)).looksAhead = false := by simp [looksAhead, hb]
  have hgive : m.regex.MatchesIn t → m.regex.givesUp t = false := by
    rw [hr]
    exact givesUp_eq_false_of_matchesIn ha hb' hp.2.1 hp.2.2
  have hm : m.regex.MatchesIn t ↔ (seqs [.notAhead a, b]).Matches [] t [] := by
    rw [matchesIn_iff_matches, hr]
    exact exists_matches_anchored [.notAhead a, b] t
  rw [← hm]
  constructor
  · intro hacc
    rw [accepts, Bool.and_eq_true] at hacc
    exact (matchesIn_iff t (proper_of_compile h)).1 hacc.2
  · intro hmatch
    exact (accepts_iff_of_givesUp h (hgive hmatch)).2 hmatch

/-- **A negated group leaves out all that begins with one of its words.** The glob `!(w₁|...|wₙ)`
compiles, and it accepts the paths of one component that begin with none of the words. -/
theorem Glob.accepts_negated_iff (o : Options) (he : o.extended = true) (hs : o.separator = .posix)
    (hf : o.flags = {}) {ws : List String} (hne : ws ≠ [])
    (hw : ∀ w ∈ ws, Negated.IsWord w.toList) :
    ∃ g, compile o ("!(" ++ "|".intercalate ws ++ ")") = .ok g ∧
      ∀ path : String, g.accepts path = true ↔
        '/' ∉ path.toList ∧ ∀ w ∈ ws, ¬w.toList <+: path.toList := by
  have hf' : o.flags.inlined.ignoreCase = false := by rw [hf]; rfl
  have hne' : ws.map String.toList ≠ [] := by simpa using hne
  have hw' : ∀ w ∈ ws.map String.toList, Negated.IsWord w := List.forall_mem_map.2 hw
  have hscan : (scan o ("!(" ++ "|".intercalate ws ++ ")").toList).pieces =
      (Negated.groupLexemes (ws.map String.toList)).map (Lexeme.piece o.separator) := by
    obtain ⟨b, hread⟩ := Negated.reads he hs hw' none
    rw [List.append_nil] at hread
    rw [Scan.scan_eq_run hs, String.toList_append, String.toList_append, String.toList_intercalate]
    refine hread.trans ?_
    simp [Scan.run]
  have hbody : Piece.body o.separator (scan o ("!(" ++ "|".intercalate ws ++ ")").toList).pieces =
      (Negated.groupLexemes (ws.map String.toList)).flatMap (Lexeme.write .posix) := by
    rw [hscan, Lexeme.body_map_piece, hs]
  obtain ⟨bs, hbs, hwords, hl⟩ := Negated.exists_branches hf' hne'
  have hfree : (Regex.alts bs).Free := Regex.free_alts.2 fun b hb => (hwords b hb).1
  have hahead : (Regex.notAhead (.alts bs)).nesting < Regex.maxNesting :=
    Nat.lt_of_le_of_lt (Nat.succ_le_succ (Regex.nesting_alts_le fun b hb => (hwords b hb).2))
      (by decide)
  have hrun : (Regex.group (Lexeme.runRegex .posix o.flags.inlined)).nesting < Regex.maxNesting :=
    Lexeme.nesting_part_lt .run
  obtain ⟨m, hm, hregex⟩ := Matcher.exists_compile_lexemes .posix _ (Negated.builds hbs)
    (by decide) (List.forall_mem_cons.2 ⟨hahead, List.forall_mem_singleton.2 hrun⟩) (by rw [hf])
  obtain ⟨g, hg, hacc⟩ := exists_of_body hbody hm (by rw [hf])
  refine ⟨g, hg, fun path => ?_⟩
  rw [hacc, Matcher.accepts_iff_of_lookahead hm hregex
    (Regex.looksAhead_eq_false_of_free hfree) rfl, Negated.matches_iff hfree hl,
    List.forall_mem_map]

/-- `!(foo|ba)` accepts `fob`, which begins with neither of the words. -/
theorem Glob.accepts_negated_iff_prefix :
    ∃ g, compile { extended := true, separator := .posix } "!(foo|ba)" = .ok g ∧
      g.accepts "fob" = true ∧ g.accepts "bar" = false := by
  have hw : ∀ w ∈ ["foo", "ba"], Negated.IsWord w.toList := by simp [Negated.IsWord]
  obtain ⟨g, hg, h⟩ := accepts_negated_iff { extended := true, separator := .posix } rfl rfl rfl
    (List.cons_ne_nil _ _) hw
  have ht : "!(" ++ "|".intercalate ["foo", "ba"] ++ ")" = "!(foo|ba)" := by decide
  rw [ht] at hg
  refine ⟨g, hg, (h "fob").2 (by decide), ?_⟩
  rw [Bool.eq_false_iff, ne_eq, h]
  decide

/-- `!(foo)` does not accept `foobar`, although this is not one of its words. -/
theorem Glob.not_accepts_negated_of_prefix :
    Negated.IsWord "foo".toList ∧ '/' ∉ "foobar".toList ∧
      ∃ g, compile { extended := true, separator := .posix } "!(foo)" = .ok g ∧
        g.givenUp false "foobar" = [] ∧
        ¬(g.accepts "foobar" = true ↔ ∀ w ∈ ["foo"], "foobar" ≠ w) := by
  refine ⟨by simp [Negated.IsWord], by decide, ?_⟩
  have hc : (compile { extended := true, separator := .posix } "!(foo)").toOption.map
      (fun g => (g.givenUp false "foobar", g.accepts "foobar")) = some ([], false) := by
    decide +kernel
  obtain ⟨g, hg, h⟩ := exists_of_toOption_map hc
  obtain ⟨hgive, hacc⟩ := Prod.mk.inj h
  refine ⟨g, hg, hgive, fun hiff => ?_⟩
  have hdiffers : ∀ w ∈ ["foo"], "foobar" ≠ w := by decide
  rw [hiff.2 hdiffers] at hacc
  cases hacc

end PathGlob
