import PathGlob.Proofs.Globstar
import PathGlob.Proofs.Walk

/-!
# The two tests of a path

A path can be tested against the pattern for whole paths or component by component. Both tests cut
the components of the path over the levels of the glob, but they end in different ways: a last
globstar of the pattern asks for a component, and the walk does not. An empty last component,
written as a separator at the end of the path, makes up for that.

* `Levels.segments`: the segments of a glob, level by level;
* `Levels.cuts_segments_iff`: cutting components over segments and over levels;
* `Glob.acceptsSegments_iff_accepts`: the two tests agree up to a separator at the end.
-/

namespace PathGlob

/-! ### The segments of a glob -/

/-- The segment of a level that is no globstar. -/
def Level.segment (l : List Char) : Segment :=
  ⟨(lexemes l).flatMap (Lexeme.write .posix), false⟩

/-- The segments of the levels of a glob. One more segment follows a globstar at the end. -/
def Levels.segments : List (List Char) → List Segment
  | [] => [Level.segment []]
  | l :: ls =>
    if Level.isGlobstar l then ⟨Separator.posix.globstar, true⟩ :: segments ls
    else Level.segment l :: if ls.isEmpty then [] else segments ls

namespace Level

variable {l : List Char} {f : Flags} {last : Bool} {block : List (List Char)}

theorem cut_lexemes (l opened : List Char) (ps : List Piece) :
    Piece.cut .posix opened ((lexemes l).map (Lexeme.piece .posix) ++ ps) =
      Piece.cut .posix (opened ++ (segment l).body) ps := by
  induction l using stars_induction generalizing opened with
  | nil => simp [segment, lexemes]
  | char c cs hc ih =>
    have hs : (segment (c :: cs)).body = (Lexeme.char c).write .posix ++ (segment cs).body := by
      simp [segment, lexemes, hc]
    rw [hs, ← List.append_assoc, ← ih, lexemes, if_neg hc]
    rfl
  | stars n cs hcs ih =>
    have hs : (segment (List.replicate (n + 1) '*' ++ cs)).body =
        Lexeme.run.write .posix ++ (segment cs).body := by
      simp [segment, lexemes_stars n hcs]
    rw [hs, ← List.append_assoc, ← ih, lexemes_stars n hcs]
    rfl

theorem body_segment_ne_nil (hl : l ≠ []) : (segment l).body ≠ [] := by
  cases l using stars_induction with
  | nil => exact absurd rfl hl
  | char c cs hc _ =>
    simp only [segment, lexemes, hc, ↓reduceIte, List.flatMap_cons, Lexeme.write, Lexeme.piece,
      Piece.write]
    split <;> simp
  | stars n cs hcs _ =>
    simp [segment, lexemes_stars n hcs, Lexeme.write, Lexeme.piece, Piece.write]

theorem exists_matcher (hm : f.multiLine = false) (hl : '/' ∉ l) :
    ∃ m, Matcher.compile (segment l).pattern f.ofComponent = .ok m ∧
      ∀ c, m.accepts c = true ↔ '/' ∉ c ∧ Fits (Alike f) l c := by
  obtain ⟨rs, hb, hla, hR⟩ := denotes (f := f.inlined) hl
  obtain ⟨m, hc, ha⟩ := Matcher.exists_lexemes .posix (f := f.ofComponent) (lexemes l) hb
    (by decide) (fun r hr => (hla r hr).2) (fun r hr => (hla r hr).1) hm
  exact ⟨m, hc, fun c => (ha c).trans (hR [] c [])⟩

theorem takes_segment (hm : f.multiLine = false) (hl : '/' ∉ l) :
    Segment.Takes f.ofComponent last (segment l) block ↔
      (∃ c, block = [c] ∧ '/' ∉ c ∧ Fits (Alike f) l c) ∨
        last = true ∧ block = [] ∧ Fits (Alike f) l [] := by
  obtain ⟨m, hc, ha⟩ := exists_matcher hm hl
  simp only [Segment.Takes, hc, Except.ok.injEq, exists_eq_left', ha]
  simp [segment]

end Level

namespace Levels

open Level

variable {l : List Char} {ls cs : List (List Char)} {f : Flags}

theorem segments_ne_nil (ls : List (List Char)) : segments ls ≠ [] := by
  cases ls with
  | nil => simp [segments]
  | cons l ls =>
    rw [segments]
    split <;> simp

theorem segments_globstar (h : isGlobstar l = true) :
    segments (l :: ls) = ⟨Separator.posix.globstar, true⟩ :: segments ls := by
  rw [segments, if_pos h]

theorem segments_last (h : isGlobstar l = false) : segments [l] = [segment l] := by
  simp [segments, h]

theorem segments_component (h : isGlobstar l = false) (hls : ls ≠ []) :
    segments (l :: ls) = segment l :: segments ls := by
  simp [segments, h, hls]

/-- **The segments of a glob are those of its levels**, if no level but the last one is empty. -/
theorem cut_lexemes (hne : ∀ l ∈ ls.dropLast, l ≠ []) :
    Piece.cut .posix [] ((lexemes ls).map (Lexeme.piece .posix)) = segments ls := by
  induction ls with
  | nil => rfl
  | cons l ls ih =>
    cases hglob : isGlobstar l with
    | true =>
      have hne' : ∀ l ∈ ls.dropLast, l ≠ [] := by
        cases ls with
        | nil => simp
        | cons l' ls => exact fun k hk => hne k (List.mem_cons_of_mem _ hk)
      rw [lexemes_globstar hglob, segments_globstar hglob, ← ih hne']
      rfl
    | false =>
      by_cases hnil : ls = []
      · subst hnil
        have h := Level.cut_lexemes l [] []
        rw [List.append_nil] at h
        rw [lexemes_last hglob, segments_last hglob, h]
        rfl
      · rw [List.dropLast_cons_of_ne_nil hnil] at hne
        obtain ⟨hl, hne'⟩ := List.forall_mem_cons.1 hne
        rw [lexemes_component hglob hnil, segments_component hglob hnil, ← ih hne', List.map_append,
          Level.cut_lexemes, List.nil_append, List.map_cons]
        -- the separator closes the segment, since its body is not empty
        simp only [Lexeme.piece, Piece.cut, Segment.close, body_segment_ne_nil hl, ↓reduceIte]
        rfl

/-! ### Cutting over segments -/

section Segments

variable (hm : f.multiLine = false)

include hm

theorem cuts_segments_last (hglob : isGlobstar l = false) (hl : '/' ∉ l) :
    Cuts (Segment.Takes f.ofComponent) (segments [l]) cs ↔
      (∃ c, cs = [c] ∧ '/' ∉ c ∧ Fits (Alike f) l c) ∨ cs = [] ∧ Fits (Alike f) l [] := by
  rw [segments_last hglob, cuts_singleton, takes_segment hm hl]
  simp only [true_and]

theorem cuts_segments_component (hglob : isGlobstar l = false) (hl : '/' ∉ l) (hls : ls ≠ []) :
    Cuts (Segment.Takes f.ofComponent) (segments (l :: ls)) cs ↔
      ∃ c rest, cs = c :: rest ∧ ('/' ∉ c ∧ Fits (Alike f) l c) ∧
        Cuts (Segment.Takes f.ofComponent) (segments ls) rest := by
  have he : (segments ls).isEmpty = false := by simpa using segments_ne_nil ls
  rw [segments_component hglob hls, cuts_cons]
  simp only [takes_segment hm hl, he, Bool.false_eq_true, false_and, or_false]
  constructor
  · rintro ⟨-, rest, rfl, ⟨c, rfl, h⟩, hr⟩
    exact ⟨c, rest, rfl, h, hr⟩
  · rintro ⟨c, rest, rfl, h, hr⟩
    exact ⟨[c], rest, rfl, ⟨c, rfl, h⟩, hr⟩

omit hm in
theorem cuts_segments_globstar (hglob : isGlobstar l = true) :
    Cuts (Segment.Takes f.ofComponent) (segments (l :: ls)) cs ↔
      ∃ block rest, cs = block ++ rest ∧ Cuts (Segment.Takes f.ofComponent) (segments ls) rest := by
  rw [segments_globstar hglob, cuts_cons]
  simp [Segment.Takes]

/-- The segment after a globstar at the end takes nothing. -/
theorem cuts_segments_nil (hls : ls = [] ∨ ls = [[]]) :
    Cuts (Segment.Takes f.ofComponent) (segments ls) [] := by
  have h := (cuts_segments_last hm (l := []) rfl (by simp)).2 (Or.inr ⟨rfl, rfl⟩)
  rcases hls with rfl | rfl <;> exact h

end Segments

/-! ### Cutting over levels -/

/-- The components can be cut over the levels, perhaps with an empty component after them. -/
def Covers (same : Char → Char → Prop) (ls cs : List (List Char)) : Prop :=
  Cuts (Takes same) (trim ls) cs ∨ Cuts (Takes same) (trim ls) (cs ++ [[]])

variable {same : Char → Char → Prop}

theorem covers_last (hglob : isGlobstar l = false) :
    Covers same [l] cs ↔ (∃ c, cs = [c] ∧ Fits same l c) ∨ cs = [] ∧ Fits same l [] := by
  rw [Covers, cuts_component hglob, cuts_component hglob]
  simp only [trim, cuts_nil]
  constructor
  · rintro (⟨c, -, rfl, h, rfl⟩ | ⟨c, -, he, h, rfl⟩)
    · exact Or.inl ⟨c, rfl, h⟩
    · cases cs with
      | nil =>
        obtain ⟨rfl, -⟩ := List.cons.inj he
        exact Or.inr ⟨rfl, h⟩
      | cons d cs => simp at he
  · rintro (⟨c, rfl, h⟩ | ⟨rfl, h⟩)
    · exact Or.inl ⟨c, [], rfl, h, rfl⟩
    · exact Or.inr ⟨[], [], rfl, h, rfl⟩

theorem covers_component (hglob : isGlobstar l = false) (hls : ls ≠ []) :
    Covers same (l :: ls) cs ↔ ∃ c rest, cs = c :: rest ∧ Fits same l c ∧ Covers same ls rest := by
  rw [Covers, cuts_component hglob, cuts_component hglob]
  constructor
  · rintro (⟨c, rest, rfl, h, hr⟩ | ⟨c, rest, he, h, hr⟩)
    · exact ⟨c, rest, rfl, h, Or.inl hr⟩
    · -- the empty component at the end cannot be the one that the first level takes
      cases cs with
      | nil =>
        obtain ⟨-, rfl⟩ := List.cons.inj he
        exact absurd rfl (ne_nil_of_cuts hls hr)
      | cons d cs =>
        obtain ⟨rfl, rfl⟩ := List.cons.inj he
        exact ⟨d, cs, rfl, h, Or.inr hr⟩
  · rintro ⟨c, rest, rfl, h, hr | hr⟩
    · exact Or.inl ⟨c, rest, rfl, h, hr⟩
    · exact Or.inr ⟨c, rest ++ [[]], rfl, h, hr⟩

theorem covers_globstar (hglob : isGlobstar l = true) (hls : ls ≠ []) (hls' : ls ≠ [[]]) :
    Covers same (l :: ls) cs ↔ ∃ block rest, cs = block ++ rest ∧ Covers same ls rest := by
  rw [Covers, cuts_globstar hglob hls hls', cuts_globstar hglob hls hls']
  constructor
  · rintro (⟨block, rest, rfl, h⟩ | ⟨block, rest, he, h⟩)
    · exact ⟨block, rest, rfl, Or.inl h⟩
    · -- the levels after the globstar take something, so they take the empty component
      rcases List.eq_nil_or_concat rest with rfl | ⟨rest', c, rfl⟩
      · exact absurd rfl (ne_nil_of_cuts hls h)
      · rw [List.concat_eq_append, ← List.append_assoc] at he
        obtain ⟨rfl, hc⟩ := List.append_inj' he rfl
        rw [List.concat_eq_append, ← hc] at h
        exact ⟨block, rest', rfl, Or.inr h⟩
  · rintro ⟨block, rest, rfl, h | h⟩
    · exact Or.inl ⟨block, rest, rfl, h⟩
    · exact Or.inr ⟨block, rest ++ [[]], by simp, h⟩

/-! ### The two kinds of cuts -/

/-- **Components can be cut over the segments of a glob exactly if they can be cut over its
levels**, perhaps with an empty component after them. -/
theorem cuts_segments_iff (hm : f.multiLine = false) (hls : ls ≠ []) (hsep : ∀ l ∈ ls, '/' ∉ l)
    (hcs : ∀ c ∈ cs, '/' ∉ c) :
    Cuts (Segment.Takes f.ofComponent) (segments ls) cs ↔ Covers (Alike f) ls cs := by
  induction ls generalizing cs with
  | nil => exact absurd rfl hls
  | cons l ls ih =>
    obtain ⟨hl, hsep'⟩ := List.forall_mem_cons.1 hsep
    cases hglob : isGlobstar l with
    | true =>
      rw [cuts_segments_globstar hglob]
      by_cases hlast : ls = [] ∨ ls = [[]]
      · exact iff_of_true ⟨cs, [], by simp, cuts_segments_nil hm hlast⟩
          (Or.inr ((cuts_last_globstar hglob hlast).2 (by simp)))
      · rw [not_or] at hlast
        rw [covers_globstar hglob hlast.1 hlast.2]
        refine exists_congr fun block => exists_congr fun rest => and_congr_right ?_
        rintro rfl
        exact ih hlast.1 hsep' fun c hc => hcs c (List.mem_append_right _ hc)
    | false =>
      by_cases hnil : ls = []
      · subst hnil
        rw [cuts_segments_last hm hglob hl, covers_last hglob]
        refine or_congr_left (exists_congr fun c => and_congr_right ?_)
        rintro rfl
        exact and_iff_right (hcs c (by simp))
      · rw [cuts_segments_component hm hglob hl hnil, covers_component hglob hnil]
        refine exists_congr fun c => exists_congr fun rest => and_congr_right ?_
        rintro rfl
        obtain ⟨hc, hrest⟩ := List.forall_mem_cons.1 hcs
        exact and_congr (and_iff_right hc) (ih hnil hsep' hrest)

/-- A glob without a separator in front and without two in a row has no empty level but the last. -/
theorem ne_nil_of_mem_dropLast {text : List Char} (h₁ : text.head? ≠ some '/')
    (h₂ : ¬['/', '/'] <:+: text) : ∀ l ∈ (text.splitOn '/').dropLast, l ≠ [] := by
  induction text using Path.parts_induction '/' with
  | last l hl => simp [List.splitOn_eq_singleton hl]
  | part l w hl ih =>
    have hw : w.head? ≠ some '/' := by
      intro hw
      obtain ⟨w, rfl⟩ := List.head?_eq_some_iff.1 hw
      exact h₂ ⟨l, w, by simp⟩
    have hw' : ¬['/', '/'] <:+: w := fun h => h₂ (h.trans ⟨l ++ ['/'], [], by simp⟩)
    rw [List.splitOn_append_cons_self_of_not_mem hl,
      List.dropLast_cons_of_ne_nil (List.splitOn_ne_nil _ _)]
    refine List.forall_mem_cons.2 ⟨?_, ih hw hw'⟩
    rintro rfl
    exact h₁ rfl

end Levels

/-- **The walk by segments and the pattern for whole paths agree, up to a separator at the end of
the path.** The glob has no separator in front and no two in a row, and no component of the path is
empty. -/
theorem Glob.acceptsSegments_iff_accepts {o : Options} (he : o.extended = false)
    (hg : o.globstar = true) (hs : o.separator = .posix) (hglobal : o.flags.global = false)
    (hm : o.flags.multiLine = false) {text : String} (h₁ : text.toList.head? ≠ some '/')
    (h₂ : ¬['/', '/'] <:+: text.toList) :
    ∃ g, compile o text = .ok g ∧ ∀ path : String, [] ∉ path.toList.splitOn '/' →
      (g.acceptsSegments path = true ↔ g.accepts path = true ∨ g.accepts (path ++ "/") = true) := by
  have ho : o.ReadsLevels := ⟨he, hg, hs⟩
  obtain ⟨g, hc, ha⟩ := Glob.exists_of_levels ho hglobal hm (Or.inr h₂)
  refine ⟨g, hc, fun path hpath => ?_⟩
  have hsegments : (translate o text).segments = Levels.segments (text.toList.splitOn '/') := by
    rw [translate, Scan.scan_eq_run hs]
    simp only [Scan.pieces_run_levels ho (Or.inr h₂) (b := none) rfl, hs]
    exact Levels.cut_lexemes (Levels.ne_nil_of_mem_dropLast h₁ h₂)
  have hcomponents : (path.toList.splitOnP o.separator.splits).filter (· != []) =
      path.toList.splitOn '/' := by
    rw [hs]
    exact List.filter_eq_self.2 fun c hc => bne_iff_ne.2 fun h => hpath (h ▸ hc)
  have hslash : (path ++ "/").toList.splitOn '/' = path.toList.splitOn '/' ++ [[]] := by
    rw [String.toList_append]
    exact List.splitOn_append_cons_self _ []
  rw [acceptsSegments_iff_cuts hc, hsegments, hcomponents, ha, ha, hslash]
  exact Levels.cuts_segments_iff hm (List.splitOn_ne_nil _ _)
    (fun l hl => Path.not_mem_of_mem_splitOn hl) fun c hc => Path.not_mem_of_mem_splitOn hc

/-- `src/**` accepts `SRC` by segments up to case, and as a whole path once a separator is added. -/
theorem Glob.acceptsSegments_iff_accepts_globstar :
    ∃ g, compile { globstar := true, flags := { ignoreCase := true } } "src/**" = .ok g ∧
      [] ∉ "SRC".toList.splitOn '/' ∧ g.accepts "SRC" = false ∧
      g.accepts ("SRC" ++ "/") = true ∧ g.acceptsSegments "SRC" = true := by
  have hpath : [] ∉ "SRC".toList.splitOn '/' := by decide
  have hc : (compile { globstar := true, flags := { ignoreCase := true } } "src/**").toOption.map
      (fun g => (g.accepts "SRC", g.accepts ("SRC" ++ "/"))) = some (false, true) := by
    decide +kernel
  obtain ⟨g, hg, h⟩ := Glob.acceptsSegments_iff_accepts
    (o := { globstar := true, flags := { ignoreCase := true } }) rfl rfl rfl rfl rfl
    (show "src/**".toList.head? ≠ some '/' by decide) (by decide)
  rw [hg] at hc
  obtain ⟨h₁, h₂⟩ := Prod.mk.inj (Option.some.inj hc)
  exact ⟨g, hg, hpath, h₁, h₂, (h "SRC" hpath).2 (Or.inr h₂)⟩

end PathGlob
