import PathGlob.Proofs.Regex.Building

/-!
# Relations that are kept up while a regex is built

Two regexes that are built in the same way from related parts are related again, for several
relations: the second one may match more, or nest deeper, or be the first one for texts that are
written in another way. A `Regex.Similarity` is such a relation, with one clause for each thing that
can be done to the parts.

* `Regex.Frame.Similar`, `Regex.Frames.Similar`: the same relation between open groups;
* `Regex.Frames.Similar.finish`: what they come to is related.
-/

namespace PathGlob

namespace Regex

section Lists

variable {R : Regex → Regex → Prop} {rs rs' : List Regex}

/-- Rows are related part by part. -/
theorem rel_seqs (hempty : R empty empty)
    (hseq : ∀ {a a' b b'}, R a a' → R b b' → R (seq a b) (seq a' b'))
    (h : List.Forall₂ R rs rs') : R (seqs rs) (seqs rs') := by
  induction h with
  | nil => exact hempty
  | cons hr h ih =>
    cases h with
    | nil => exact hr
    | cons => exact hseq hr ih

/-- Choices are related branch by branch. -/
theorem rel_alts (hempty : R empty empty)
    (halt : ∀ {a a' b b'}, R a a' → R b b' → R (alt a b) (alt a' b'))
    (h : List.Forall₂ R rs rs') : R (alts rs) (alts rs') := by
  induction h with
  | nil => exact hempty
  | cons hr h ih =>
    cases h with
    | nil => exact hr
    | cons => exact halt hr ih

end Lists

/-- A relation between regexes that is kept up while they are built. Rows of parts have a relation
of their own, since it may be that only some of what is built from rows is related part by part. -/
structure Similarity where
  /-- The two regexes are related. -/
  Rel : Regex → Regex → Prop
  /-- The two rows of parts are related. -/
  Row : List Regex → List Regex → Prop
  /-- Related regexes may stand under a lookahead. -/
  Ahead : Prop
  nil : Row [] []
  append : ∀ {rs rs' ps ps' : List Regex}, Row rs rs' → List.Forall₂ Rel ps ps' →
    Row (rs ++ ps) (rs' ++ ps')
  seqs : ∀ {rs rs' : List Regex}, Row rs rs' → Rel (seqs rs) (seqs rs')
  alts : ∀ {bs bs' : List Regex}, List.Forall₂ Rel bs bs' → Rel (alts bs) (alts bs')
  edge : ∀ e : Edge, Rel (edge e) (edge e)
  group : ∀ {r r' : Regex}, Rel r r' → Rel (group r) (group r')
  notAhead : ∀ {r r' : Regex}, Ahead → Rel r r' → Rel (notAhead r) (notAhead r')
  times : ∀ (lo : Nat) (hi : Option Nat) (greedy : Bool) {r r' : Regex}, Rel r r' →
    Rel (.times lo hi greedy r) (.times lo hi greedy r')

variable {S : Similarity}

/-- The complete branches of the two groups are related, and so are the parts of the current ones. A
lookahead is there only where the relation allows it. -/
structure Frame.Similar (S : Similarity) (i j : Frame) : Prop where
  negated : i.negated = j.negated
  ahead : i.negated = true → S.Ahead
  branches : List.Forall₂ S.Rel i.branches j.branches
  parts : S.Row i.parts.reverse j.parts.reverse

namespace Frame.Similar

variable {i j : Frame}

theorem branch (h : i.Similar S j) : S.Rel i.branch j.branch := S.seqs h.parts

theorem body (h : i.Similar S j) : S.Rel i.body j.body :=
  S.alts (List.rel_reverse (.cons h.branch h.branches))

theorem close (h : i.Similar S j) : S.Rel i.close j.close := by
  rw [Frame.close, Frame.close, ← h.negated]
  split
  · rename_i hn
    exact S.notAhead (h.ahead hn) h.body
  · exact S.group h.body

theorem split (h : i.Similar S j) : i.split.Similar S j.split :=
  ⟨h.negated, h.ahead, .cons h.branch h.branches, S.nil⟩

theorem fresh {negated : Bool} (h : negated = true → S.Ahead) :
    Frame.Similar S { negated } { negated } := ⟨rfl, h, .nil, S.nil⟩

theorem append {rs rs' : List Regex} (h : i.Similar S j) (hr : List.Forall₂ S.Rel rs rs') :
    Frame.Similar S { i with parts := rs.reverse ++ i.parts }
      { j with parts := rs'.reverse ++ j.parts } := by
  refine ⟨h.negated, h.ahead, h.branches, ?_⟩
  rw [List.reverse_append, List.reverse_append, List.reverse_reverse, List.reverse_reverse]
  exact S.append h.parts hr

theorem add {r r' : Regex} (h : i.Similar S j) (hr : S.Rel r r') : (i.add r).Similar S (j.add r') :=
  h.append (.cons hr .nil)

end Frame.Similar

/-- The open groups are related one by one. -/
structure Frames.Similar (S : Similarity) (k k' : Frames) : Prop where
  inner : k.inner.Similar S k'.inner
  outer : List.Forall₂ (Frame.Similar S) k.outer k'.outer

namespace Frames.Similar

variable {k k' : Frames}

theorem length_outer (h : k.Similar S k') : k.outer.length = k'.outer.length :=
  h.outer.length_eq

theorem finish (h : k.Similar S k') {r r' : Regex} (hr : k.finish = .ok r)
    (hr' : k'.finish = .ok r') : S.Rel r r' := by
  obtain ⟨i, is⟩ := k
  obtain ⟨j, js⟩ := k'
  obtain ⟨hij, ho⟩ := h
  cases ho with
  | nil =>
    cases hr
    cases hr'
    exact hij.body
  | cons => cases hr

end Frames.Similar

end Regex

end PathGlob
