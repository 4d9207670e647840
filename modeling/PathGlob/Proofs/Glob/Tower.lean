import PathGlob.Proofs.Glob.Stack

/-!
# Globs that nest deep

A group with a choice and a row in it is four levels of a regex: the repetition, the group, the
choice and the row. So a glob inside of many such groups comes to the limit of `Regex.maxNesting`
while there are still fewer groups than `Regex.maxDepth`, and then it matters how deep the glob in
the middle nests.

* `Glob.tower`: a glob inside of groups;
* `Scan.ReadsAs`: a glob whose lexemes do not depend on where it stands;
* `Glob.exists_compile_tower_iff`: how deep the glob in the middle may nest.
-/

namespace PathGlob

/-- A glob inside of `n` groups, each with a choice and a row of two parts. -/
def Glob.tower (glob : List Char) : Nat → List Char
  | 0 => glob
  | n + 1 => ['+', '(', 'a', '|', 'b'] ++ tower glob n ++ [')']

namespace Glob

theorem normalize_tower (s : Separator) (glob : List Char) (n : Nat) :
    s.normalize (tower glob n) = tower (s.normalize glob) n := by
  induction n with
  | zero => rfl
  | succ n ih =>
    cases s with
    | posix => rfl
    | windows => simpa [tower, Separator.normalize] using ih

theorem count_tower {c : Char} {glob : List Char} (hc : c ∉ ['+', '(', 'a', '|', 'b', ')'])
    (n : Nat) : (tower glob n).count c = glob.count c := by
  induction n with
  | zero => rfl
  | succ n ih =>
    simp only [List.mem_cons, not_or] at hc
    simp [tower, ih, hc, eq_comm]

theorem mem_tower {c : Char} {glob : List Char} (hc : c ∉ ['+', '(', 'a', '|', 'b', ')'])
    (n : Nat) : c ∈ tower glob n ↔ c ∈ glob := by
  rw [← List.count_pos_iff, count_tower hc, List.count_pos_iff]

end Glob

/-! ### Scans -/

namespace Scan

/-- The glob `cs` is read as the lexemes `ls` wherever it stands, and closes what it opens. -/
def ReadsAs (o : Options) (cs : List Char) (ls : List Lexeme) : Prop :=
  ∀ b x rest, ∃ b',
    (moves o b x 0 (cs ++ rest)).map Move.lexeme = ls ++ (moves o b' x 0 rest).map Move.lexeme

variable {o : Options} {glob : List Char} {ls : List Lexeme}

/-- The lexemes of a tower around the lexemes `ls`. -/
def towerLexemes (ls : List Lexeme) : Nat → List Lexeme
  | 0 => ls
  | n + 1 => [.opening (.marked .atLeastOne), .char 'a', .bar, .char 'b'] ++ towerLexemes ls n ++
      [.closing (.marked .atLeastOne)]

theorem readsAs_tower (he : o.extended = true) (h : ReadsAs o glob ls) (n : Nat) :
    ReadsAs o (Glob.tower glob n) (towerLexemes ls n) := by
  induction n with
  | zero => exact h
  | succ n ih =>
    intro b x rest
    obtain ⟨b', hb⟩ := ih (some 'b') { x with groups := .marked .atLeastOne :: x.groups }
      (')' :: rest)
    refine ⟨some ')', ?_⟩
    have hopen : ∀ cs, (moves o b x 0 ('+' :: '(' :: 'a' :: '|' :: 'b' :: cs)).map Move.lexeme =
        .opening (.marked .atLeastOne) :: .char 'a' :: .bar :: .char 'b' ::
          (moves o (some 'b') { x with groups := .marked .atLeastOne :: x.groups } 0 cs).map
            Move.lexeme := by
      intro cs
      cases hs : o.separator <;>
        simp [moves, move, step, Symbol.ofChar, hs, Separator.char, opensGroup, he, openGroup,
          Move.lexeme, Move.context, Step.text]
    have hclose : ∀ b, (moves o b { x with groups := .marked .atLeastOne :: x.groups } 0
        (')' :: rest)).map Move.lexeme = .closing (.marked .atLeastOne) ::
          (moves o (some ')') x 0 rest).map Move.lexeme := by
      intro b
      cases hs : o.separator <;>
        simp [moves, move, step, Symbol.ofChar, hs, Separator.char, closeParen, Move.lexeme,
          Move.context, Step.text]
    simp only [Glob.tower, towerLexemes, List.cons_append, List.nil_append, List.append_assoc,
      hopen, hb, hclose]

theorem lexemesOf_tower (he : o.extended = true)
    (h : ReadsAs o (o.separator.normalize glob) ls) (n : Nat) :
    lexemesOf o (Glob.tower glob n) = towerLexemes ls n := by
  obtain ⟨b, hb⟩ := readsAs_tower he h n none {} []
  rw [List.append_nil, ← Glob.normalize_tower] at hb
  exact hb.trans (List.append_nil _)

theorem not_ends_towerLexemes (h : ∀ l ∈ ls, ¬l.Ends) (n : Nat) :
    ∀ l ∈ towerLexemes ls n, ¬l.Ends := by
  induction n with
  | zero => exact h
  | succ n ih =>
    refine List.forall_mem_append.2 ⟨List.forall_mem_append.2 ⟨?_, ih⟩, ?_⟩
    · simp [Lexeme.Ends]
    · simp [Lexeme.Ends]

theorem readsAs_choice (he : o.extended = true) :
    ReadsAs o "\x7ba,b\x7d".toList
      [.opening .bare, .char 'a', .bar, .char 'b', .closing .bare] := by
  refine fun b x rest => ⟨some '\x7d', ?_⟩
  cases hs : o.separator <;>
    simp [moves, move, step, Symbol.ofChar, hs, Separator.char, he, Move.lexeme,
      Move.context, Step.text]

end Scan

/-! ### Regexes -/

namespace Lexeme

open Regex

variable {s : Separator} {f : Flags} {ls : List Lexeme} {r : Regex} {n : Nat}

/-- The regex of a tower around the regex `r`. -/
def towerRegex (s : Separator) (f : Flags) (r : Regex) : Nat → Regex
  | 0 => r
  | n + 1 =>
    .times 1 none true (.group (.alt (part s f (.char 'a'))
      (.seq (part s f (.char 'b')) (towerRegex s f r n))))

/-- The lexemes add the part `r` wherever they stand, if `d` more groups can be open there. -/
def Adds (s : Separator) (f : Flags) (d : Nat) (ls : List Lexeme) (r : Regex) : Prop :=
  ∀ k : Frames, k.outer.length + d ≤ maxDepth → effects s f k ls = .ok (k.modify (·.add r))

theorem adds_tower {d : Nat} (h : Adds s f d ls r) (n : Nat) :
    Adds s f (d + n) (Scan.towerLexemes ls n) (towerRegex s f r n) := by
  induction n with
  | zero => exact h
  | succ n ih =>
    intro k hk
    have hopen : k.outer.length < maxDepth := by omega
    have hchar : k.outer.length + 1 ≤ maxDepth := hopen
    have hbegin : ∀ rest, effects s f k
        (.opening (.marked .atLeastOne) :: .char 'a' :: .bar :: .char 'b' :: rest) =
          effects s f ⟨{ branches := [part s f (.char 'a')], parts := [part s f (.char 'b')] },
            k.inner :: k.outer⟩ rest := by
      intro rest
      have hmark : (Group.marked .atLeastOne == Group.marked .negated) = false := rfl
      simp [effects, effect, Frames.openGroup, hmark, hopen, hchar, Except.bind, depth,
        Frames.modify, Frame.add, Frame.split, Frame.branch, seqs]
    have hmiddle := ih ⟨{ branches := [part s f (.char 'a')], parts := [part s f (.char 'b')] },
      k.inner :: k.outer⟩ (by rw [List.length_cons]; omega)
    rw [Scan.towerLexemes, List.append_assoc]
    refine (hbegin (Scan.towerLexemes ls n ++ [_])).trans ?_
    rw [effects_append, hmiddle]
    rfl

theorem adds_row (ls : List Lexeme) (h : ∀ l ∈ ls, l.Inert) (hd : ∀ l ∈ ls, l.depth = 0) :
    Adds s f 1 (.opening .bare :: ls ++ [.closing .bare]) (.group (seqs (ls.map (part s f)))) := by
  intro k hk
  have hopen : effect s f k (.opening .bare) = .ok ⟨{}, k.inner :: k.outer⟩ := if_pos hk
  rw [List.cons_append, effects, hopen]
  change effects s f ⟨{}, k.inner :: k.outer⟩ (ls ++ _) = _
  rw [effects_append, effects_of_inert h (fun l hl => (hd l hl).le)
    (by rw [List.length_cons]; exact hk)]
  simp [effects, effect, Except.bind, Frames.modify, Frame.add, Frame.branch, Frame.close,
    Frame.body, alts, closed, counted, Group.Counted]

/-- The regex of a choice of two characters. -/
def choiceRegex (s : Separator) (f : Flags) : Regex :=
  .group (.alt (part s f (.char 'a')) (part s f (.char 'b')))

theorem adds_choice {g : Group} (hg : g ≠ .marked .negated) :
    Adds s f 1 [.opening g, .char 'a', .bar, .char 'b', .closing g]
      ((choiceRegex s f).counted g) := by
  intro k hk
  have hopen : k.outer.length < maxDepth := hk
  have hchar : k.outer.length + 1 ≤ maxDepth := hk
  simp [effects, effect, Frames.openGroup, hopen, hchar, hg, Except.bind, depth, Frames.modify,
    Frame.add, Frame.split, Frame.branch, Frame.close, Frame.body, seqs, alts, closed, choiceRegex]

theorem isRow_towerRegex (hr : r.isRow = false) (n : Nat) :
    (towerRegex s f r n).isRow = false := by
  cases n with
  | zero => exact hr
  | succ n => rfl

theorem looksAhead_towerRegex (hl : r.looksAhead = false) (n : Nat) :
    (towerRegex s f r n).looksAhead = false := by
  induction n with
  | zero => exact hl
  | succ n ih => exact ih

theorem nesting_towerRegex (hf : f.ignoreCase = false) (hr : r.isRow = false) (n : Nat) :
    (towerRegex s f r n).nesting = r.nesting + 4 * n := by
  induction n with
  | zero => rfl
  | succ n ih =>
    have hrow := isRow_towerRegex (s := s) (f := f) hr n
    have hsingle : ∀ c, (CharSet.single c).nesting = 0 := fun _ => rfl
    simp only [towerRegex, nesting, isChoice, hrow, ih, part, letter_eq_single hf, hsingle,
      Bool.false_eq_true, ↓reduceIte]
    omega

/-- **How deep the regex in a tower may nest.** With each of the groups around it, the limit comes
four levels nearer, and with the anchors one. -/
theorem exists_fits_tower_iff {d : Nat} (hi : f.ignoreCase = false) (hm : f.multiLine = false)
    (ha : Adds s f.inlined d ls r) (hd : d + n ≤ maxDepth) (hr : r.isRow = false)
    (hl : r.looksAhead = false) :
    (∃ t, Regex.read (f.inlineGroup ++
        f.pattern ((Scan.towerLexemes ls n).flatMap (write s))) = .ok t ∧ t.fits = true) ↔
      r.nesting + 4 * n + f.anchors.toNat ≤ maxNesting := by
  have hk : f.base.outer.length + (d + n) ≤ maxDepth := by
    rwa [f.outer_base, List.length_nil, Nat.zero_add]
  have hnest := nesting_towerRegex (s := s) (f := f.inlined) hi hr n
  have hrow := isRow_towerRegex (s := s) (f := f.inlined) hr n
  have hahead := looksAhead_towerRegex (s := s) (f := f.inlined) hl n
  rw [read_pattern, adds_tower ha n _ hk]
  generalize towerRegex s f.inlined r n = t at *
  cases hg : f.anchors with
  | false =>
    have hread : (f.top (f.base.modify (·.add t))).finish = .ok t := by
      rw [Flags.top, Flags.base, hg]
      rfl
    simp [Except.bind, hread, fits_of_not_looksAhead hahead, hnest]
  | true =>
    have hs := Flags.startEdge_inlined hm
    have he := Flags.endEdge_inlined hm
    have hread : (f.top (f.base.modify (·.add t))).finish =
        .ok (seqs (.edge .textStart :: [t] ++ [.edge .textEnd])) := by
      rw [Flags.top, Flags.base, hg, hs, he]
      rfl
    have hfits := fits_of_not_looksAhead (looksAhead_anchored (List.forall_mem_singleton.2 hahead))
    rw [nesting_seqs_anchored (List.forall_mem_singleton.2 hrow), deepest, deepest, hnest,
      Nat.max_zero] at hfits
    simp only [Except.bind, hread, Except.ok.injEq, exists_eq_left', hfits, decide_eq_true_iff,
      Bool.toNat_true]

end Lexeme

/-! ### Globs -/

namespace Glob

open Regex

/-- A tower compiles exactly if the regex of the glob in it does not nest too deep there. -/
theorem exists_compile_tower_iff {o : Options} {glob : List Char} {ls : List Lexeme} {r : Regex}
    {d n : Nat} (he : o.extended = true) (hi : o.flags.ignoreCase = false)
    (hm : o.flags.multiLine = false) (hc : '[' ∉ glob)
    (hls : Scan.ReadsAs o (o.separator.normalize glob) ls)
    (ha : Lexeme.Adds o.separator o.flags.inlined d ls r) (hd : d + n ≤ maxDepth)
    (hr : r.isRow = false) (hl : r.looksAhead = false) :
    (∃ g, compile o (String.ofList (tower glob n)) = .ok g) ↔
      r.nesting + 4 * n + o.flags.anchors.toNat ≤ maxNesting := by
  have hclass : o.extended = true → '[' ∉ (String.ofList (tower glob n)).toList := fun _ => by
    rwa [String.toList_ofList, mem_tower (by decide)]
  rw [exists_compile_iff_fits, Scan.pattern_eq_lexemes hclass, String.toList_ofList,
    String.toList_ofList, Scan.lexemesOf_tower he hls]
  exact Lexeme.exists_fits_tower_iff hi hm ha hd hr hl

end Glob

end PathGlob
