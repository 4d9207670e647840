import PathGlob.Proofs.Basic

/-!
# Globs joined at a separator

A separator ends a segment, and nothing before it matters for the segments after it. So the segments
of two globs with a separator between them are those of the first glob, without an empty last one,
and those of the second.

* `Scan.step_append`: a step of the scan does not see a separator that follows the glob;
* `Scan.cut_run_separator`: where a segment begins, separators are passed over, in whatever way the
  scan takes them in;
* `Scan.cut_run_append`: the scan of the first glob ends where that of the second begins;
* `Translation.segments_join`: the segments of joined globs.
-/

namespace PathGlob

/-- The segments without the last one, if that one is empty. -/
def Segment.dropEmptyLast : List Segment → List Segment
  | [] => []
  | [s] => if s.body = [] then [] else [s]
  | s :: t :: ss => s :: dropEmptyLast (t :: ss)

theorem Segment.dropEmptyLast_append (ss : List Segment) {ts : List Segment} (h : ts ≠ []) :
    dropEmptyLast (ss ++ ts) = ss ++ dropEmptyLast ts := by
  induction ss with
  | nil => rfl
  | cons s ss ih =>
    obtain ⟨t, us, ht⟩ := List.exists_cons_of_ne_nil (List.append_ne_nil_of_right_ne_nil ss h)
    rw [List.cons_append, ht, dropEmptyLast, ← ht, ih, List.cons_append]

theorem Piece.cut_ne_nil (s : Separator) (opened : List Char) (ps : List Piece) :
    cut s opened ps ≠ [] := by
  induction ps generalizing opened with
  | nil => simp [cut]
  | cons p ps ih =>
    cases p with
    | text cs => exact ih _
    | separator lenient => exact List.append_ne_nil_of_right_ne_nil _ (ih _)
    | globstar => exact List.append_ne_nil_of_right_ne_nil _ (ih _)

theorem Piece.cut_cons_congr {s : Separator} {ps qs : List Piece}
    (h : ∀ opened, cut s opened ps = cut s opened qs) (p : Piece) (opened : List Char) :
    cut s opened (p :: ps) = cut s opened (p :: qs) := by
  cases p <;> simp only [cut, h]

theorem atBoundary_char (s : Separator) : atBoundary s (some s.char) = true := by
  rw [atBoundary, beq_self_eq_true]

namespace Scan

variable {o : Options} {b b' : Option Char} {x : Context} {c : Char} {cs rest : List Char} {k : Nat}

/-! ### What a step sees of the text around it -/

/-- Of the text before it, a step sees only whether a separator or nothing is next to it. -/
theorem step_before (h : atBoundary o.separator b = atBoundary o.separator b') :
    step o b x c rest = step o b' x c rest := by
  have hop : ∀ op, operator o b x rest op = operator o b' x rest op := by
    intro op
    cases op <;> simp only [operator, stars, h]
  simp only [step, hop]

theorem run_before (h : atBoundary o.separator b = atBoundary o.separator b') :
    run o b x k cs = run o b' x k cs := by
  cases cs with
  | nil => rfl
  | cons c rest =>
    cases k with
    | zero => simp only [run, step_before h]
    | succ k => rfl

theorem opensGroup_append (op : Operator) :
    opensGroup o x (cs ++ o.separator.char :: rest) op = opensGroup o x cs op := by
  by_cases h : cs = []
  · subst h
    have hne := o.separator.char_ne_openParen
    rw [List.nil_append, opensGroup_eq_false (by simpa using hne), opensGroup_eq_false (by simp)]
  · simp only [opensGroup, List.head?_append_of_ne_nil _ h]

theorem stars_append : stars o b x (cs ++ o.separator.char :: rest) = stars o b x cs := by
  have hne := o.separator.char_ne_star
  obtain ⟨n, tail, rfl, ht⟩ := exists_stars cs
  have htail : (tail ++ o.separator.char :: rest).head? ≠ some '*' :=
    head?_append_ne ht (by simpa using hne)
  have hbound : atBoundary o.separator (tail ++ o.separator.char :: rest).head? =
      atBoundary o.separator tail.head? := by
    by_cases h : tail = []
    · subst h
      exact atBoundary_char o.separator
    · rw [List.head?_append_of_ne_nil _ h]
  simp only [stars, List.append_assoc, length_takeWhile_stars ht, length_takeWhile_stars htail,
    List.drop_left' List.length_replicate, hbound]

/-- **A step does not see a separator that follows the glob**, unless it is at a separator itself
and nothing comes between the two. -/
theorem step_append (hx : x.inClass = false) (h : c = o.separator.char → cs ≠ []) :
    step o b x c (cs ++ o.separator.char :: rest) = step o b x c cs := by
  have hop : ∀ op, operator o b x (cs ++ o.separator.char :: rest) op = operator o b x cs op := by
    intro op
    cases op with
    | anyNumber => exact stars_append
    | atMostOne | atLeastOne | exactlyOne | negated => rfl
  have hsep : Symbol.ofChar o.separator c = .separator →
      separator o x (cs ++ o.separator.char :: rest) = separator o x cs := by
    intro hs
    have hne := h (Symbol.ofChar_eq_separator_iff.1 hs)
    simp only [separator, List.head?_append_of_ne_nil _ hne]
  simp only [step, opensGroup_append, hop, hx, Bool.false_eq_true, ↓reduceIte]
  cases hs : Symbol.ofChar o.separator c with
  | separator => exact hsep hs
  | plain | special | openParen | closeParen | bar | operator | openBracket | closeBracket
  | openBrace | closeBrace | comma => rfl

/-! ### Contexts -/

theorem inClass_run (hx : x.inClass = false) (hn : o.extended = true → '[' ∉ cs) :
    (run o b x k cs).context.inClass = false := by
  rw [run_eq_moves hx hn]
  generalize moves o b x k cs = ms
  show (ms.foldl Move.context x).inClass = false
  induction ms generalizing x with
  | nil => exact hx
  | cons m ms ih => exact ih (by rw [Move.inClass_context, hx])

theorem context_run_of_not_extended (he : o.extended = false) :
    (run o b {} k cs).context = {} := by
  induction cs generalizing b k with
  | nil => rfl
  | cons c rest ih =>
    cases k with
    | zero =>
      obtain ⟨l, hl⟩ : ∃ l, move o b {} c rest = .inert l := move_of_not_extended he rfl rfl
      have hstep : step o b {} c rest = _ := step_eq_move rfl (by simp [he])
      rw [run, hstep, hl]
      exact ih
    | succ k => exact ih

/-! ### Cuts -/

/-- **Where a segment begins, separators are passed over.** A separator ends the segment before it,
and it does not matter what the scan makes of the separators after it. -/
theorem cut_run_separator (opened : List Char) :
    Piece.cut o.separator opened (run o b x 0 (o.separator.char :: rest)).pieces =
      Segment.close opened false ++
        Piece.cut o.separator [] (run o (some o.separator.char) x 0 rest).pieces := by
  have hs := Symbol.ofChar_char o.separator
  induction rest generalizing b opened with
  | nil =>
    rw [pieces_run_cons]
    simp only [step, hs, separator]
    rfl
  | cons r rest ih =>
    rw [pieces_run_cons]
    simp only [step, hs, separator]
    by_cases hr : r = o.separator.char
    · subst hr
      rw [List.head?_cons, if_pos rfl]
      by_cases hw : o.separator = .windows
      · -- the scan takes both separators in one step
        rw [if_pos hw, ih]
        rfl
      · rw [if_neg hw]
        rfl
    · rw [List.head?_cons, if_neg (by simpa using hr)]
      rfl

theorem context_run_separator : (run o b x 0 [o.separator.char]).context = x := by
  have hs := Symbol.ofChar_char o.separator
  simp only [run, step, hs, separator]
  rfl

/-- **The scan of the first glob ends where that of the second begins.** Only a globstar at the end
of the first glob uses up the separator, and then no segment is begun. -/
theorem cut_run_append {opened : List Char} (hx : x.inClass = false)
    (hn : o.extended = true → '[' ∉ cs) (hk : k ≤ cs.length ∨ k = cs.length + 1 ∧ opened = []) :
    Piece.cut o.separator opened (run o b x k (cs ++ o.separator.char :: rest)).pieces =
      Segment.dropEmptyLast (Piece.cut o.separator opened (run o b x k cs).pieces) ++
        Piece.cut o.separator []
          (run o (some o.separator.char) (run o b x k cs).context 0 rest).pieces := by
  induction cs generalizing b x k opened with
  | nil =>
    rcases hk with hk | ⟨rfl, rfl⟩
    · obtain rfl : k = 0 := Nat.le_zero.1 hk
      exact cut_run_separator opened
    · rfl
  | cons c cs ih =>
    have hcs : o.extended = true → '[' ∉ cs := fun he h => hn he (List.mem_cons_of_mem c h)
    cases k with
    | succ k =>
      refine ih hx hcs (hk.imp (fun h => ?_) fun h => ⟨?_, h.2⟩)
      · exact Nat.le_of_succ_le_succ h
      · exact Nat.succ.inj h.1
    | zero =>
      by_cases hend : c = o.separator.char ∧ cs = []
      · -- the second of two separators, which the step for the first may use up
        obtain ⟨rfl, rfl⟩ := hend
        rw [List.singleton_append, cut_run_separator, cut_run_separator, cut_run_separator,
          context_run_separator, Segment.dropEmptyLast_append _ (by simp [run, Piece.cut])]
        simp [Segment.close, run, Piece.cut, Segment.dropEmptyLast]
      · have hstep : step o b x c (cs ++ o.separator.char :: rest) = step o b x c cs :=
          step_append hx fun hc h => hend ⟨hc, h⟩
        have hx' : (step o b x c cs).context.inClass = false := by
          rw [step_eq_move hx fun he h => hn he (h ▸ List.mem_cons_self), Move.inClass_context, hx]
        have hskip : (step o b x c cs).skip ≤ cs.length ∨ _ := skip_le hx
        rw [List.cons_append, run, run, hstep]
        generalize step o b x c cs = a at hx' hskip ⊢
        obtain ⟨p, y, skip⟩ := a
        cases p with
        | text t =>
          exact ih hx' hcs (hskip.imp id fun h => absurd h.2 (by simp))
        | separator lenient =>
          simp only [Piece.cut]
          rw [ih hx' hcs (hskip.imp id fun h => absurd h.2 (by simp)),
            Segment.dropEmptyLast_append _ (Piece.cut_ne_nil _ _ _), List.append_assoc]
        | globstar =>
          simp only [Piece.cut]
          rw [ih hx' hcs (hskip.imp id fun h => ⟨h.1, rfl⟩),
            Segment.dropEmptyLast_append _ (Piece.cut_ne_nil _ _ _), List.append_assoc]

end Scan

/-! ### Whole globs -/

theorem Separator.normalize_append (s : Separator) (cs ds : List Char) :
    s.normalize (cs ++ ds) = s.normalize cs ++ s.normalize ds := by
  cases s with
  | posix => rfl
  | windows => exact List.map_append

theorem Separator.normalize_cons {s : Separator} {c : Char} (hc : s.splits c = true)
    (cs : List Char) : s.normalize (c :: cs) = s.char :: s.normalize cs := by
  cases s with
  | posix =>
    obtain rfl : c = '/' := by simpa [splits] using hc
    rfl
  | windows =>
    have h : c = '\\' ∨ c = '/' := by simpa [splits] using hc
    rcases h with rfl | rfl <;> rfl

/-- **The segments of two globs joined at a separator** are those of the first one, without an empty
last one, and those of the second. The first glob has no class and leaves nothing open; without the
extended syntax it is any text. -/
theorem Translation.segments_join (o : Options) {first : String}
    (h : o.extended = true → '[' ∉ first.toList ∧
      (scan o first.toList).context.groups = [] ∧ (scan o first.toList).context.braces = 0)
    {c : Char} (hc : o.separator.splits c = true) (second : String) :
    (translate o (first ++ String.singleton c ++ second)).segments =
      Segment.dropEmptyLast (translate o first).segments ++ (translate o second).segments := by
  have hn : o.extended = true → '[' ∉ o.separator.normalize first.toList := fun he =>
    o.separator.not_mem_normalize (by decide) (h he).1
  have hcontext : (scan o first.toList).context = {} := by
    cases he : o.extended with
    | false => exact Scan.context_run_of_not_extended he
    | true =>
      obtain ⟨-, hg, hb⟩ := h he
      have hx : (scan o first.toList).context.inClass = false := Scan.inClass_run rfl hn
      generalize (scan o first.toList).context = x at hg hb hx
      cases x
      simp_all
  have htext : o.separator.normalize (first ++ String.singleton c ++ second).toList =
      o.separator.normalize first.toList ++
        o.separator.char :: o.separator.normalize second.toList := by
    rw [String.toList_append, String.toList_append, String.toList_singleton, List.append_assoc,
      List.singleton_append, Separator.normalize_append, Separator.normalize_cons hc]
  have hbefore : ∀ cs, Scan.run o (some o.separator.char) {} 0 cs = Scan.run o none {} 0 cs :=
    fun cs => Scan.run_before (atBoundary_char o.separator)
  rw [scan] at hcontext
  simp only [translate, scan, htext]
  rw [Scan.cut_run_append rfl hn (.inl (Nat.zero_le _)), hcontext, hbefore]

/-- A globstar at the end of the first glob takes the separator along. -/
theorem Translation.segments_join_globstar :
    (translate { extended := true, globstar := true, separator := .posix }
      ("@(a|b)/**" ++ String.singleton '/' ++ "//c")).segments =
      [⟨"(a|b)\x7b1\x7d".toList, false⟩, ⟨Separator.posix.globstar, true⟩, ⟨['c'], false⟩] := by
  rw [Translation.segments_join _ (fun _ => by decide) (by decide)]
  decide

end PathGlob
