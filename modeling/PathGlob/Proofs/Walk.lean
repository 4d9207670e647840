import PathGlob.Glob
import PathGlob.Proofs.Path

/-!
# The walk finds every way to cut a path

`Walk.arrives` runs through the stages with one row of truth values, and a stage knows nothing of
how the stages before it used up the components. `Walk.rowAfter_iff` is the invariant: a row leads
to the end exactly if it is true at some place from which the stages left can cover the components
left.

* `Walk.arrives_iff_covers`: the walk decides `Walk.Covers`;
* `Glob.acceptsSegments_iff`: a glob accepts a path by segments exactly if all its segments that are
  no globstars are regexes and the components of the path can be cut into one block per segment.
-/

namespace PathGlob

namespace Walk

variable {cs : List (List Char)} {row : List Bool}

/-! ### One stage -/

theorem length_absorb (seen : Bool) (row : List Bool) : (absorb seen row).length = row.length := by
  induction row generalizing seen with
  | nil => rfl
  | cons b row ih => simp [absorb, ih]

theorem getElem?_map_false {α : Type} (xs : List α) (p : Nat) :
    (xs.map fun _ => false)[p]? ≠ some true := by
  rw [List.getElem?_map]
  cases xs[p]? <;> simp

theorem length_next (last : Bool) (s : Stage) (hl : row.length = cs.length + 1) :
    (next cs last row s).length = cs.length + 1 := by
  cases s with
  | any => rw [next, length_absorb, hl]
  | one accepts =>
    have hm : (advance accepts row cs).length = cs.length + 1 := by
      simp [advance, hl]
    simp only [next]
    split
    · simp [hm]
    · exact hm
  | never => simp [next, hl]

theorem getElem?_absorb (seen : Bool) (row : List Bool) (q : Nat) :
    (absorb seen row)[q]? = some true ↔
      q < row.length ∧ (seen = true ∨ ∃ p ≤ q, row[p]? = some true) := by
  induction row generalizing seen q with
  | nil => simp [absorb]
  | cons b row ih =>
    cases q with
    | zero =>
      simp only [absorb, List.getElem?_cons_zero, Option.some.injEq, Bool.or_eq_true,
        Nat.le_zero, exists_eq_left, List.length_cons, Nat.zero_lt_succ, true_and]
    | succ q =>
      rw [absorb, List.getElem?_cons_succ, ih, List.length_cons, Nat.succ_lt_succ_iff,
        Bool.or_eq_true, or_assoc]
      refine and_congr_right fun _ => or_congr_right ⟨?_, ?_⟩
      · rintro (rfl | ⟨p, hp, h⟩)
        · exact ⟨0, Nat.zero_le _, rfl⟩
        · exact ⟨p + 1, Nat.succ_le_succ hp, h⟩
      · rintro ⟨p, hp, h⟩
        cases p with
        | zero => exact Or.inl (by simpa using h)
        | succ p => exact Or.inr ⟨p, Nat.le_of_succ_le_succ hp, h⟩

theorem getElem?_advance (accepts : List Char → Bool) (q : Nat) :
    (advance accepts row cs)[q]? = some true ↔
      ∃ p c, q = p + 1 ∧ row[p]? = some true ∧ cs[p]? = some c ∧ accepts c = true := by
  cases q with
  | zero => simp [advance]
  | succ q =>
    rw [advance, List.getElem?_cons_succ, List.getElem?_zipWith_eq_some]
    constructor
    · rintro ⟨b, c, hb, hc, h⟩
      obtain ⟨rfl, h⟩ := Bool.and_eq_true_iff.1 h
      exact ⟨q, c, rfl, hb, hc, h⟩
    · rintro ⟨p, c, hp, hb, hc, h⟩
      cases hp
      exact ⟨true, c, hb, hc, by simpa using h⟩

/-! ### A whole walk -/

theorem covers_any_iff {ss : List Stage} (p : Nat) (hp : p ≤ cs.length) :
    Covers (.any :: ss) (cs.drop p) ↔ ∃ q, p ≤ q ∧ q ≤ cs.length ∧ Covers ss (cs.drop q) := by
  simp only [Covers]
  constructor
  · rintro ⟨block, rest, h, hr⟩
    have hlen := congrArg List.length h
    rw [List.length_drop, List.length_append] at hlen
    refine ⟨p + block.length, Nat.le_add_right _ _, by omega, ?_⟩
    rw [← List.drop_drop, h, List.drop_left]
    exact hr
  · rintro ⟨q, hpq, -, hr⟩
    refine ⟨(cs.drop p).take (q - p), cs.drop q, ?_, hr⟩
    have hd : cs.drop q = (cs.drop p).drop (q - p) := by
      rw [List.drop_drop, Nat.add_sub_cancel' hpq]
    rw [hd, List.take_append_drop]

theorem getLastD_iff (hl : row.length = cs.length + 1) :
    row.getLastD false = true ↔ row[cs.length]? = some true := by
  rw [List.getLastD_eq_getLast?, List.getLast?_eq_getElem?, hl, Nat.add_sub_cancel]
  cases row[cs.length]? <;> simp

/-- The last stage may also go without a component. -/
theorem getLastD_next_one (hl : row.length = cs.length + 1) (accepts : List Char → Bool) :
    (next cs true row (.one accepts)).getLastD false = true ↔
      ∃ p, row[p]? = some true ∧ Covers [.one accepts] (cs.drop p) := by
  have hm : (advance accepts row cs).length = cs.length + 1 := by simp [advance, hl]
  have key : (next cs true row (.one accepts)).getLastD false = true ↔
      (row[cs.length]? = some true ∧ accepts [] = true) ∨
        (advance accepts row cs)[cs.length]? = some true := by
    rw [← getLastD_iff hl, ← getLastD_iff hm]
    simp only [next, Bool.true_and]
    split
    · rename_i h
      simpa using Or.inl h
    · rename_i h
      rw [Bool.and_eq_true] at h
      exact (or_iff_right h).symm
  rw [key, getElem?_advance]
  constructor
  · rintro (⟨hr, ha⟩ | ⟨p, c, hp, hr, hc, ha⟩)
    · exact ⟨cs.length, hr, Or.inr ⟨by simp, ha⟩⟩
    · refine ⟨p, hr, Or.inl ⟨c, ?_, ha⟩⟩
      obtain ⟨hlt, rfl⟩ := List.getElem?_eq_some_iff.1 hc
      rw [List.drop_eq_getElem_cons hlt, List.drop_eq_nil_of_le (by omega)]
  · rintro ⟨p, hr, ⟨c, hd, ha⟩ | ⟨hd, ha⟩⟩
    · have hlen := congrArg List.length hd
      rw [List.length_drop, List.length_singleton] at hlen
      have hc : cs[p]? = some c := by
        rw [← List.head?_drop, hd]
        rfl
      exact Or.inr ⟨p, c, by omega, hr, hc, ha⟩
    · have hp : p < row.length := (List.getElem?_eq_some_iff.1 hr).1
      have hlen := List.drop_eq_nil_iff.1 hd
      obtain rfl : p = cs.length := by omega
      exact Or.inl ⟨hr, ha⟩

theorem exists_next_any_iff (hl : row.length = cs.length + 1) (last : Bool) (ss : List Stage) :
    (∃ q, (next cs last row .any)[q]? = some true ∧ Covers ss (cs.drop q)) ↔
      ∃ p, row[p]? = some true ∧ Covers (.any :: ss) (cs.drop p) := by
  simp only [next, getElem?_absorb, hl, Bool.false_eq_true, false_or]
  constructor
  · rintro ⟨q, ⟨hq, p, hpq, hr⟩, hc⟩
    exact ⟨p, hr, (covers_any_iff p (by omega)).2 ⟨q, hpq, by omega, hc⟩⟩
  · rintro ⟨p, hr, hc⟩
    have hp : p < row.length := (List.getElem?_eq_some_iff.1 hr).1
    obtain ⟨q, hpq, hq, hc⟩ := (covers_any_iff p (by omega)).1 hc
    exact ⟨q, ⟨by omega, p, hpq, hr⟩, hc⟩

theorem exists_next_one_iff (accepts : List Char → Bool) (s : Stage) (ss : List Stage) :
    (∃ q, (next cs false row (.one accepts))[q]? = some true ∧ Covers (s :: ss) (cs.drop q)) ↔
      ∃ p, row[p]? = some true ∧ Covers (.one accepts :: s :: ss) (cs.drop p) := by
  simp only [next, Bool.false_and, Bool.false_eq_true, ↓reduceIte, getElem?_advance]
  constructor
  · rintro ⟨q, ⟨p, c, rfl, hr, hc, ha⟩, hrest⟩
    refine ⟨p, hr, c, cs.drop (p + 1), ?_, ha, hrest⟩
    obtain ⟨hlt, rfl⟩ := List.getElem?_eq_some_iff.1 hc
    exact List.drop_eq_getElem_cons hlt
  · rintro ⟨p, hr, c, rest, hd, ha, hrest⟩
    have hc : cs[p]? = some c := by
      rw [← List.head?_drop, hd]
      rfl
    have hd' : cs.drop (p + 1) = rest := by
      rw [← List.drop_drop, hd]
      rfl
    exact ⟨p + 1, ⟨p, c, rfl, hr, hc, ha⟩, hd' ▸ hrest⟩

/-- **The invariant of the walk.** From a row, the stages arrive at the end exactly if the row is
true at a place from which they cover the components that are left. -/
theorem rowAfter_iff (hl : row.length = cs.length + 1) (ss : List Stage) :
    (rowAfter cs row ss).getLastD false = true ↔
      ∃ p, row[p]? = some true ∧ Covers ss (cs.drop p) := by
  induction ss generalizing row with
  | nil =>
    rw [rowAfter, getLastD_iff hl]
    constructor
    · intro h
      exact ⟨cs.length, h, by simp [Covers]⟩
    · rintro ⟨p, hr, hc⟩
      have hp : p < row.length := (List.getElem?_eq_some_iff.1 hr).1
      have hlen : cs.length ≤ p := by simpa [Covers] using hc
      obtain rfl : p = cs.length := by omega
      exact hr
  | cons s ss ih =>
    rw [rowAfter]
    cases s with
    | any => rw [ih (length_next _ _ hl), exists_next_any_iff hl]
    | one accepts =>
      cases ss with
      | nil => exact getLastD_next_one hl accepts
      | cons s' ss => rw [ih (length_next _ _ hl), List.isEmpty_cons, exists_next_one_iff]
    | never =>
      -- neither row leads anywhere
      rw [ih (length_next _ _ hl)]
      constructor
      · rintro ⟨p, hr, -⟩
        exact (getElem?_map_false row p hr).elim
      · rintro ⟨p, -, hc⟩
        exact hc.elim

/-- **The walk arrives exactly if the stages cover the components.** -/
theorem arrives_iff_covers (ss : List Stage) (cs : List (List Char)) :
    arrives ss cs = true ↔ Covers ss cs := by
  have hl : (start cs).length = cs.length + 1 := by simp [start]
  rw [arrives, rowAfter_iff hl]
  constructor
  · rintro ⟨p, hr, hc⟩
    cases p with
    | zero => exact hc
    | succ p => exact (getElem?_map_false cs p hr).elim
  · intro hc
    exact ⟨0, rfl, hc⟩

end Walk

/-! ### Segments -/

/-- What a segment of a translated glob takes of a path: a globstar any components, any other
segment one component that its matcher accepts, and the last one none if its matcher accepts the
empty text. -/
def Segment.Takes (f : Flags) (last : Bool) (s : Segment) (block : List (List Char)) : Prop :=
  s.globstar = true ∨ ∃ m, Matcher.compile s.pattern f = .ok m ∧
    ((∃ c, block = [c] ∧ m.accepts c = true) ∨
      last = true ∧ block = [] ∧ m.accepts [] = true)

theorem covers_stages_iff (f : Flags) (ss : List Segment) (cs : List (List Char)) :
    Walk.Covers ((ss.map (GlobSegment.compile f)).map GlobSegment.stage) cs ↔
      Cuts (Segment.Takes f.ofComponent) ss cs := by
  induction ss generalizing cs with
  | nil => exact cuts_nil.symm
  | cons s ss ih =>
    rw [List.map_cons, List.map_cons]
    by_cases hg : s.globstar = true
    · have hs : (GlobSegment.compile f s).stage = .any := by
        simp [GlobSegment.stage, GlobSegment.compile, hg]
      rw [hs, cuts_cons]
      simp only [Walk.Covers, ih, Segment.Takes, hg, true_or, true_and]
    · cases hm : Matcher.compile s.pattern f.ofComponent with
      | error e =>
        have hs : (GlobSegment.compile f s).stage = .never := by
          simp [GlobSegment.stage, GlobSegment.compile, hg, hm]
        rw [hs, cuts_cons]
        simp [Walk.Covers, Segment.Takes, hg, hm]
      | ok m =>
        have hs : (GlobSegment.compile f s).stage = .one m.accepts := by
          simp [GlobSegment.stage, GlobSegment.compile, hg, hm]
        rw [hs]
        -- only the last segment may go without a component
        cases ss with
        | nil =>
          rw [cuts_singleton]
          simp [Walk.Covers, Segment.Takes, hg, hm]
        | cons s' ss =>
          rw [List.map_cons, List.map_cons] at ih ⊢
          rw [cuts_cons]
          simp only [Walk.Covers, ih, Segment.Takes, hg, hm, Except.ok.injEq, exists_eq_left',
            false_or, List.isEmpty_cons, Bool.false_eq_true, false_and, or_false]
          constructor
          · rintro ⟨c, rest, rfl, ha, hr⟩
            exact ⟨[c], rest, rfl, ⟨c, rfl, ha⟩, hr⟩
          · rintro ⟨block, rest, rfl, ⟨c, rfl, ha⟩, hr⟩
            exact ⟨c, rest, rfl, ha, hr⟩

theorem Glob.acceptsSegments_iff_cuts {o : Options} {text : String} {g : Glob}
    (h : Glob.compile o text = .ok g) (path : String) :
    g.acceptsSegments path = true ↔
      Cuts (Segment.Takes o.flags.ofComponent) (translate o text).segments
        ((path.toList.splitOnP o.separator.splits).filter (· != [])) := by
  rw [Glob.compile] at h
  split at h
  · cases h
  · cases h
    rw [acceptsSegments, Walk.arrives_iff_covers, stages, covers_stages_iff, components,
      Path.components, Path.split_eq_splitOnP]

/-- **The test by segments is the declarative walk.** A compiled glob accepts a path by segments
exactly if every segment that is no globstar is a regex and the components of the path that are not
empty can be cut into one block per segment. -/
theorem Glob.acceptsSegments_iff {o : Options} {text : String} {g : Glob}
    (h : Glob.compile o text = .ok g) (path : String) :
    g.acceptsSegments path = true ↔
      (∀ s ∈ (translate o text).segments, s.globstar = false →
        ∃ m, Matcher.compile s.pattern o.flags.ofComponent = .ok m) ∧
      Cuts (Segment.Takes o.flags.ofComponent) (translate o text).segments
        ((path.toList.splitOnP o.separator.splits).filter (· != [])) := by
  rw [acceptsSegments_iff_cuts h]
  refine (and_iff_right_of_imp fun hc s hs hglobstar => ?_).symm
  obtain ⟨last, block, ht⟩ := hc.exists_takes hs
  rcases ht with ht | ⟨m, hm, -⟩
  · rw [hglobstar] at ht
    cases ht
  · exact ⟨m, hm⟩

/-- `src/**/*.rs` accepts `src/a/b.rs` by segments, so the three components can be cut. -/
theorem Glob.acceptsSegments_iff_globstar :
    ∃ g, Glob.compile { globstar := true } "src/**/*.rs" = .ok g ∧
      g.acceptsSegments "src/a/b.rs" = true ∧
      Cuts (Segment.Takes {}) (translate { globstar := true } "src/**/*.rs").segments
        ["src".toList, "a".toList, "b.rs".toList] := by
  have hc : (Glob.compile { globstar := true } "src/**/*.rs").toOption.map
      (·.acceptsSegments "src/a/b.rs") = some true := by decide +kernel
  cases h : Glob.compile { globstar := true } "src/**/*.rs" with
  | error e => rw [h] at hc; cases hc
  | ok g =>
    rw [h] at hc
    have hg : g.acceptsSegments "src/a/b.rs" = true := Option.some.inj hc
    exact ⟨g, rfl, hg, ((Glob.acceptsSegments_iff h "src/a/b.rs").1 hg).2⟩

end PathGlob
