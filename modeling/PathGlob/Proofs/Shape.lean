import PathGlob.Proofs.Lookup
import PathGlob.Proofs.Glob.Boundary

/-!
# The shape of a translation

A scan writes the pattern for whole paths and the segments from the same pieces. So the segments are
the pattern cut at its separators: nothing is lost, and nothing is written twice. This holds of
every glob, whatever it leaves open.

* `Segment.Joins`: segments one after the other, with separators before, between and after them;
* `Piece.joins_cut`: the segments that are cut from pieces join to the text of the pieces;
* `Scan.regular_step`: what a step writes, and `Piece.flagged_iff`: a segment is a globstar exactly
  if it reads like one;
* `Translation.segments_joins`: the segments of a glob and its pattern.
-/

namespace PathGlob

/-- The bodies of the segments make up the text, with any number of separators before, between and
after them. No separator may be left out if all are mandatory. -/
inductive Segment.Joins (s : Separator) (strict : Bool) : List Segment → List Char → Prop
  | nil : Joins s strict [] []
  | segment (g : Segment) {gs : List Segment} {cs : List Char} (h : Joins s strict gs cs) :
      Joins s strict (g :: gs) (g.body ++ cs)
  | separator (lenient : Bool) (hl : strict = true → lenient = false) {gs : List Segment}
      {cs : List Char} (h : Joins s strict gs cs) :
      Joins s strict gs (s.token ++ (if lenient then ['?'] else []) ++ cs)

/-- A piece that a scan can write. A `$` stands alone in its piece, escaped. -/
inductive Piece.Regular (strict : Bool) : Piece → Prop
  | dollar : Regular strict (.text ['\\', '$'])
  | text {cs : List Char} (h : '$' ∉ cs) : Regular strict (.text cs)
  | separator {lenient : Bool} (h : strict = true → lenient = false) :
      Regular strict (.separator lenient)
  | globstar : Regular strict .globstar

/-- A text in which every `$` is escaped. -/
structure Escaped (cs : List Char) : Prop where
  head : cs.head? ≠ some '$'
  chain : cs.IsChain fun a b => b = '$' → a = '\\'

namespace Escaped

variable {cs ds : List Char}

theorem nil : Escaped [] := ⟨by simp, .nil⟩

theorem append (hc : Escaped cs) (hd : Escaped ds) : Escaped (cs ++ ds) := by
  refine ⟨Scan.head?_append_ne hc.head hd.head, List.isChain_append.2 ⟨hc.chain, hd.chain, ?_⟩⟩
  rintro a - b hb rfl
  exact absurd hb hd.head

theorem of_not_mem (h : '$' ∉ cs) : Escaped cs := by
  have hchain : cs.IsChain fun a b => b = '$' → a = '\\' := by
    induction cs with
    | nil => exact .nil
    | cons c cs ih =>
      rw [List.mem_cons, not_or] at h
      refine List.isChain_cons.2 ⟨fun b hb he => ?_, ih h.2⟩
      exact absurd (List.mem_of_mem_head? (he ▸ hb)) h.2
  exact ⟨fun hh => h (List.mem_of_mem_head? hh), hchain⟩

theorem dollar : Escaped ['\\', '$'] := ⟨by decide, by decide⟩

theorem ne_globstar (h : Escaped cs) (s : Separator) : cs ≠ s.globstar := by
  rintro rfl
  have hchain := h.chain
  revert hchain
  cases s <;> decide

end Escaped

/-! ### Cuts -/

namespace Segment

variable {s : Separator} {strict : Bool} {gs : List Segment} {cs : List Char}

/-- A segment that is left out for its empty body leaves no gap. -/
theorem Joins.close (body : List Char) (globstar : Bool) (h : Joins s strict gs cs) :
    Joins s strict (Segment.close body globstar ++ gs) (body ++ cs) := by
  rw [Segment.close]
  split
  · rename_i hbody
    rwa [hbody]
  · exact .segment ⟨body, globstar⟩ h

theorem eq_of_mem_close {g : Segment} {body : List Char} {globstar : Bool}
    (h : g ∈ Segment.close body globstar) : g = ⟨body, globstar⟩ ∧ body ≠ [] := by
  rw [Segment.close] at h
  split at h
  · cases h
  · exact ⟨List.mem_singleton.1 h, ‹_›⟩

end Segment

namespace Piece

variable {s : Separator} {strict : Bool} {opened : List Char} {ps : List Piece}

/-- **The segments join to the text of the pieces** that they are cut from. -/
theorem joins_cut (hr : ∀ p ∈ ps, p.Regular strict) (opened : List Char) :
    Segment.Joins s strict (cut s opened ps) (opened ++ body s ps) := by
  induction ps generalizing opened with
  | nil => exact .segment ⟨opened, false⟩ .nil
  | cons p ps ih =>
    obtain ⟨hp, hps⟩ := List.forall_mem_cons.1 hr
    rw [body, List.flatMap_cons, ← body]
    cases p with
    | text cs =>
      rw [← List.append_assoc]
      exact ih hps (opened ++ cs)
    | separator lenient =>
      cases hp with
      | separator hl => exact (Segment.Joins.separator lenient hl (ih hps [])).close opened false
    | globstar =>
      rw [← List.append_assoc]
      exact (ih hps []).close (opened ++ s.globstar) true

/-- Only the last segment can be empty, and it is no globstar. -/
theorem exists_cut_eq_concat (s : Separator) (opened : List Char) (ps : List Piece) :
    ∃ init last, cut s opened ps = init ++ [last] ∧ last.globstar = false ∧
      ∀ g ∈ init, g.body ≠ [] := by
  induction ps generalizing opened with
  | nil => exact ⟨[], ⟨opened, false⟩, rfl, rfl, by simp⟩
  | cons p ps ih =>
    have hclose : ∀ body globstar, ∃ init last,
        Segment.close body globstar ++ cut s [] ps = init ++ [last] ∧ last.globstar = false ∧
          ∀ g ∈ init, g.body ≠ [] := by
      intro body globstar
      obtain ⟨init, last, hcut, hlast, hinit⟩ := ih []
      refine ⟨Segment.close body globstar ++ init, last, ?_, hlast, fun g hg => ?_⟩
      · rw [hcut, List.append_assoc]
      · rcases List.mem_append.1 hg with hg | hg
        · obtain ⟨rfl, hbody⟩ := Segment.eq_of_mem_close hg
          exact hbody
        · exact hinit g hg
    cases p with
    | text cs => exact ih (opened ++ cs)
    | separator lenient => exact hclose opened false
    | globstar => exact hclose (opened ++ s.globstar) true

theorem Regular.escaped {cs : List Char} (h : (Piece.text cs).Regular strict) : Escaped cs := by
  cases h with
  | dollar => exact .dollar
  | text h => exact .of_not_mem h

/-- **A segment is a globstar exactly if it reads like one**: a globstar begins its segment, and no
other text holds the `$` of a globstar. -/
theorem flagged_iff {p : Piece} (hc : (p :: ps).IsChain Precedes)
    (hr : ∀ q ∈ ps, q.Regular strict) (ho : Escaped opened) (hp : p.Ends → opened = []) :
    ∀ g ∈ cut s opened ps, g.globstar = true ↔ g.body = s.globstar := by
  -- the open text is escaped all along, and empty where a globstar may stand
  induction ps generalizing p opened with
  | nil =>
    intro g hg
    rw [List.mem_singleton.1 hg]
    exact iff_of_false Bool.false_ne_true (ho.ne_globstar s)
  | cons q ps ih =>
    rw [List.isChain_cons_cons] at hc
    obtain ⟨hq, hps⟩ := List.forall_mem_cons.1 hr
    intro g hg
    cases q with
    | text cs => exact ih hc.2 hps (ho.append hq.escaped) False.elim g hg
    | separator lenient =>
      rcases List.mem_append.1 hg with hg | hg
      · obtain ⟨rfl, -⟩ := Segment.eq_of_mem_close hg
        exact iff_of_false Bool.false_ne_true (ho.ne_globstar s)
      · exact ih hc.2 hps .nil (fun _ => rfl) g hg
    | globstar =>
      obtain rfl : opened = [] := hp (hc.1 rfl)
      rcases List.mem_append.1 hg with hg | hg
      · obtain ⟨rfl, -⟩ := Segment.eq_of_mem_close hg
        exact iff_of_true rfl rfl
      · exact ih hc.2 hps .nil (fun _ => rfl) g hg

end Piece

/-! ### Scans -/

theorem not_mem_classText (name : List Char) : '$' ∉ classText name := by
  have hnames : ∀ entry ∈ classNames, '$' ∉ entry.2 := by decide
  rw [classText]
  cases h : classNames.lookup name with
  | none => simp
  | some cs =>
    obtain ⟨l, l', hl, -⟩ := List.lookup_eq_some_iff.1 h
    exact hnames (name, cs) (hl ▸ List.mem_append_right _ List.mem_cons_self)

namespace Scan

variable {o : Options} {b : Option Char} {x : Context} {c : Char} {k : Nat} {cs rest : List Char}

theorem regular_escape (strict : Bool) (x : Context) (c : Char) :
    (Step.escape x c).piece.Regular strict := by
  by_cases hc : c = '$'
  · rw [hc]
    exact .dollar
  · exact .text (by simpa using Ne.symm hc)

theorem regular_stars : (stars o b x rest).piece.Regular o.strict := by
  have hrun : '$' ∉ ['('] ++ o.separator.nonSeparatorRun ++ [')'] := by
    cases o.separator <;> decide
  rw [stars]
  split
  · exact .text (by decide)
  · split
    · exact .globstar
    · exact .text hrun

theorem regular_className (strict : Bool) : (className x rest).piece.Regular strict := by
  unfold className
  split
  · split
    · exact regular_escape strict x '['
    · exact .text (not_mem_classText _)
  · exact regular_escape strict x '['

/-- **Every step writes a piece with all its `$` escaped**, and no separator that may be left out if
all are mandatory. -/
theorem regular_step (o : Options) (b : Option Char) (x : Context) (c : Char) (rest : List Char) :
    (step o b x c rest).piece.Regular o.strict := by
  cases hs : Symbol.ofChar o.separator c with
  | plain =>
    have hc : c ≠ '$' := Lexeme.ne_of_plain hs (by cases o.separator <;> decide)
    simp only [step, hs]
    exact .text (by simpa using Ne.symm hc)
  | special =>
    simp only [step, hs]
    exact regular_escape _ _ _
  | separator =>
    simp only [step, hs, separator]
    split
    · exact .separator fun h => by rw [h]; rfl
    · exact .separator fun _ => rfl
  | closeParen =>
    simp only [step, hs, closeParen]
    split
    · exact regular_escape _ _ _
    · rename_i g gs _
      have hclosing : '$' ∉ g.closing o.separator := by
        cases o.separator <;> rcases g with op | _ <;> first | decide | cases op <;> decide
      exact .text hclosing
  | operator op =>
    simp only [step, hs]
    split
    · have hopening : '$' ∉ (Group.marked op).opening := by cases op <;> decide
      exact .text hopening
    · cases op with
      | anyNumber => exact regular_stars
      | atMostOne | negated =>
        simp only [operator]
        split
        · exact .text (by decide)
        · exact regular_escape _ _ _
      | atLeastOne | exactlyOne => exact regular_escape _ _ _
  | openBracket =>
    obtain rfl := Symbol.char?_ofChar o.separator c '[' (by rw [hs]; rfl)
    simp only [step, hs]
    split
    · exact regular_className _
    · split
      · exact .text (by decide)
      · exact regular_escape _ _ _
  | closeBracket =>
    obtain rfl := Symbol.char?_ofChar o.separator c ']' (by rw [hs]; rfl)
    simp only [step, hs]
    split
    · exact .text (by decide)
    · exact regular_escape _ _ _
  | bar =>
    obtain rfl := Symbol.char?_ofChar o.separator c '|' (by rw [hs]; rfl)
    simp only [step, hs]
    split
    · exact regular_escape _ _ _
    · exact .text (by decide)
  | openParen | openBrace | closeBrace | comma =>
    simp only [step, hs, openParen]
    split
    all_goals first | exact regular_escape _ _ _ | exact .text (by decide)

theorem regular_of_mem_pieces {p : Piece} (hp : p ∈ (run o b x k cs).pieces) :
    p.Regular o.strict := by
  rw [pieces_run_eq_places] at hp
  obtain ⟨place, -, rfl⟩ := List.mem_map.1 hp
  exact regular_step o _ _ _ _

end Scan

/-! ### Translations -/

/-- **The shape of a translation.** There is a last segment, which is no globstar, and all segments
before it have some text. A segment is a globstar exactly if it reads like one. The pattern for
whole paths, between its anchors, is the text of all segments in their order, with separators
before, between and after them. -/
theorem Translation.segments_joins (o : Options) (glob : String) :
    (∃ init last, (translate o glob).segments = init ++ [last] ∧ last.globstar = false ∧
      ∀ g ∈ init, g.body ≠ []) ∧
    (∀ g ∈ (translate o glob).segments, g.globstar = true ↔ g.body = o.separator.globstar) ∧
    ∃ body, (translate o glob).pattern = String.ofList (wholePattern o body) ∧
      Segment.Joins o.separator o.strict (translate o glob).segments body := by
  have hregular : ∀ p ∈ (scan o glob.toList).pieces, p.Regular o.strict := fun _ hp =>
    Scan.regular_of_mem_pieces hp
  -- a glob begins as if after a separator
  have hchain : (.separator false :: (scan o glob.toList).pieces).IsChain Piece.Precedes :=
    Scan.isChain_pieces fun _ => trivial
  refine ⟨Piece.exists_cut_eq_concat _ _ _, ?_, _, rfl, ?_⟩
  · exact Piece.flagged_iff hchain hregular .nil fun _ => rfl
  · exact Piece.joins_cut hregular []

/-- The segments of `@(a//**/b` are `(a`, a globstar and `b`, although its group is not closed. -/
theorem Translation.segments_joins_unclosed :
    ∃ init last body,
      (translate { extended := true, globstar := true, separator := .posix } "@(a//**/b").segments =
        init ++ [last] ∧
      init.length = 2 ∧ last.globstar = false ∧ (∀ g ∈ init, g.body ≠ []) ∧
      (translate { extended := true, globstar := true, separator := .posix } "@(a//**/b").pattern =
        String.ofList (anchored body) ∧
      Segment.Joins .posix false (init ++ [last]) body := by
  obtain ⟨⟨init, last, hsegments, hlast, hinit⟩, -, body, hpattern, hjoins⟩ :=
    segments_joins { extended := true, globstar := true, separator := .posix } "@(a//**/b"
  have hlength := congrArg List.length hsegments
  refine ⟨init, last, body, hsegments, ?_, hlast, hinit, hpattern, hsegments ▸ hjoins⟩
  have hthree : (translate { extended := true, globstar := true, separator := .posix }
      "@(a//**/b").segments.length = 3 := by decide
  rw [hthree, List.length_append, List.length_singleton] at hlength
  exact (Nat.succ.inj hlength).symm

end PathGlob
