import PathGlob.Proofs.Walk
import PathGlob.Proofs.Glob.Scanning

/-!
# How many components a path needs

A segment that is neither a globstar nor empty needs a component of its own. So a path that is
accepted by segments has as many components as there are such segments, and one less only where the
last segment does without: if its matcher accepts the empty text.

* `Segment.needsComponent`: the segments that are counted;
* `Glob.needed_le_of_acceptsSegments`: the number of components of an accepted path.
-/

namespace PathGlob

namespace Segment

variable {f : Flags} {s : Segment}

/-- The segment is neither a globstar nor empty. -/
def needsComponent (s : Segment) : Bool := !s.globstar && s.body != []

/-- The segment is a regex that matches the empty text. -/
def AcceptsNothing (f : Flags) (s : Segment) : Prop :=
  ∃ m, Matcher.compile s.pattern f = .ok m ∧ m.accepts [] = true

theorem Takes.length_eq_one {last : Bool} {block : List (List Char)} (h : s.Takes f last block)
    (hs : s.needsComponent = true) :
    block.length = 1 ∨ last = true ∧ block = [] ∧ s.AcceptsNothing f := by
  rcases h with hg | ⟨m, hm, ⟨c, rfl, -⟩ | ⟨hlast, hblock, ha⟩⟩
  · simp [needsComponent, hg] at hs
  · exact .inl rfl
  · exact .inr ⟨hlast, hblock, m, hm, ha⟩

/-- The segments need no more components than there are, or one more for the last of them. -/
theorem countP_le_of_cuts {ss : List Segment} {cs : List (List Char)} (h : Cuts (Takes f) ss cs) :
    ss.countP needsComponent ≤ cs.length ∨
      ss.countP needsComponent = cs.length + 1 ∧
        ∃ s, ss.getLast? = some s ∧ s.needsComponent = true ∧ s.AcceptsNothing f := by
  induction ss generalizing cs with
  | nil => exact .inl (Nat.zero_le _)
  | cons s ss ih =>
    obtain ⟨block, rest, rfl, ht, hrest⟩ := cuts_cons.1 h
    have hlen : (block ++ rest).length = block.length + rest.length := List.length_append
    by_cases hs : s.needsComponent = true
    · rw [List.countP_cons_of_pos hs]
      rcases ht.length_eq_one hs with hblock | ⟨hlast, rfl, ha⟩
      · rcases ih hrest with hle | ⟨heq, s', hs', hlast⟩
        · exact .inl (by omega)
        · exact .inr ⟨by omega, s', by simp [List.getLast?_cons, hs'], hlast⟩
      · -- nothing is left for the segments after the last one
        obtain rfl := List.isEmpty_iff.1 hlast
        obtain rfl := cuts_nil.1 hrest
        exact .inr ⟨rfl, s, rfl, hs, ha⟩
    · rw [List.countP_cons_of_neg hs]
      rcases ih hrest with hle | ⟨heq, s', hs', hlast⟩
      · exact .inl (by omega)
      · cases block with
        | nil => exact .inr ⟨heq, s', by simp [List.getLast?_cons, hs'], hlast⟩
        | cons c block => exact .inl (by simp only [List.length_cons] at hlen; omega)

end Segment

namespace Glob

variable {o : Options} {text : String} {g : Glob}

/-- **Every segment that is neither a globstar nor empty needs a component**, but the last one can
do without if its matcher accepts the empty text. -/
theorem needed_le_of_acceptsSegments (h : compile o text = .ok g) {path : String}
    (ha : g.acceptsSegments path = true) :
    (translate o text).segments.countP Segment.needsComponent ≤
        (Path.components o.separator path.toList).length ∨
      (translate o text).segments.countP Segment.needsComponent =
          (Path.components o.separator path.toList).length + 1 ∧
        ∃ s, (translate o text).segments.getLast? = some s ∧ s.needsComponent = true ∧
          s.AcceptsNothing o.flags.ofComponent := by
  rw [Path.components, Path.split_eq_splitOnP]
  exact Segment.countP_le_of_cuts ((acceptsSegments_iff_cuts h path).1 ha)

/-- `a/**/b/` needs two of the three components of `a/x/b`. -/
theorem needed_le_of_acceptsSegments_globstar :
    ∃ g, compile { globstar := true } "a/**/b/" = .ok g ∧ g.acceptsSegments "a/x/b" = true ∧
      (translate { globstar := true } "a/**/b/").segments.countP Segment.needsComponent ≤ 3 := by
  have hc : (compile { globstar := true } "a/**/b/").toOption.map (·.acceptsSegments "a/x/b") =
      some true := by decide +kernel
  obtain ⟨g, h, hg⟩ := exists_of_toOption_map hc
  refine ⟨g, h, hg, ?_⟩
  rcases needed_le_of_acceptsSegments h hg with hle | ⟨-, s, hs, hneeds, -⟩
  · exact hle
  · -- the last segment is empty
    obtain rfl : s = ⟨[], false⟩ := (Option.some.inj hs).symm
    cases hneeds

/-- A last segment that is not empty can do without a component too: `a/*` accepts `a`. -/
theorem acceptsSegments_of_missing_component :
    ∃ g, compile { globstar := true } "a/*" = .ok g ∧ g.acceptsSegments "a" = true ∧
      ¬(translate { globstar := true } "a/*").segments.countP Segment.needsComponent ≤
        (Path.components g.options.separator "a".toList).length := by
  have hc : (compile { globstar := true } "a/*").toOption.map
      (fun g => (g.acceptsSegments "a", (Path.components g.options.separator "a".toList).length)) =
        some (true, 1) := by decide +kernel
  have hn : (translate { globstar := true } "a/*").segments.countP Segment.needsComponent = 2 := by
    decide
  obtain ⟨g, h, hg⟩ := exists_of_toOption_map hc
  obtain ⟨ha, hl⟩ := Prod.mk.inj hg
  exact ⟨g, h, ha, by omega⟩

end Glob

end PathGlob
