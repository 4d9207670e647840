import PathGlob.Proofs.Regex.Within
import PathGlob.Proofs.Regex.Alike
import PathGlob.Proofs.Glob.Demand

/-!
# Related patterns

Two rows of lexemes open and close the same groups, and the parts that the second one adds are
related to those of the first one. Then their patterns are both regexes or neither is, and the two
regexes are related.

* `Lexeme.Similar` relates lexemes in this way, also where two separators write them;
* `Lexeme.effect_similar`, `Lexeme.effects_similar`: related lexemes keep the open groups related;
* `Lexeme.exists_read_iff_of_agree` and `Lexeme.rel_of_read`: the two patterns;
* `Lexeme.exists_fits_iff_of_alike`: patterns that are built alike fit alike.
-/

namespace PathGlob

namespace Lexeme

open Regex

variable {S : Similarity} {s s' : Separator} {f : Flags}

/-- The second lexeme does to the open groups what the first one does, with a part that is related
to that of the first one. -/
inductive Similar (S : Similarity) (s s' : Separator) (f : Flags) : Lexeme → Lexeme → Prop
  | inert {l l' : Lexeme} (hl : l.Inert) (hl' : l'.Inert) (hd : l.depth = l'.depth)
      (h : S.Rel (l.part s f) (l'.part s' f)) : Similar S s s' f l l'
  | opening (g : Group) (h : g = .marked .negated → S.Ahead) :
      Similar S s s' f (.opening g) (.opening g)
  | bar : Similar S s s' f .bar .bar
  /-- A negated group leaves a run behind. -/
  | closing (g : Group) (h : g = .marked .negated → S.Rel (part s f .run) (part s' f .run)) :
      Similar S s s' f (.closing g) (.closing g)

theorem similar_closed {g : Group}
    (h : g = .marked .negated → S.Rel (part s f .run) (part s' f .run)) {r r' : Regex}
    (hr : S.Rel r r') :
    List.Forall₂ S.Rel (closed s f g r) (closed s' f g r') := by
  unfold closed
  split
  · exact .cons hr (.cons (h ‹_›) .nil)
  · refine .cons ?_ .nil
    cases g with
    | bare => exact hr
    | marked op =>
      cases op with
      | atMostOne | anyNumber | atLeastOne | exactlyOne => exact S.times _ _ _ hr
      | negated => exact hr

/-- **Related lexemes keep the open groups related.** -/
theorem effect_similar {l l' : Lexeme} (hl : Similar S s s' f l l') {k k' : Frames}
    (h : k.Similar S k') : Agree (Frames.Similar S) (l.effect s f k) (l'.effect s' f k') := by
  cases hl with
  | inert hl hl' hd hp =>
    rw [effect_inert hl, effect_inert hl', h.length_outer, hd]
    split
    · exact .ok ⟨h.inner.add hp, h.outer⟩
    · exact .error _
  | opening g hg =>
    rw [effect, effect, Frames.openGroup, Frames.openGroup, h.length_outer]
    split
    · exact .ok ⟨.fresh fun hn => hg (eq_of_beq hn), .cons h.inner h.outer⟩
    · exact .error _
  | bar => exact .ok ⟨h.inner.split, h.outer⟩
  | closing g hg =>
    obtain ⟨i, is⟩ := k
    obtain ⟨j, js⟩ := k'
    obtain ⟨hij, ho⟩ := h
    cases ho with
    | nil => exact .error _
    | cons hk ho =>
      rw [effect, effect, hij.negated]
      split
      · exact .error _
      · exact .ok ⟨hk.append (similar_closed hg hij.close), ho⟩

theorem effects_similar {ls ls' : List Lexeme} (hls : List.Forall₂ (Similar S s s' f) ls ls')
    {k k' : Frames} (h : k.Similar S k') :
    Agree (Frames.Similar S) (effects s f k ls) (effects s' f k' ls') := by
  induction hls generalizing k k' with
  | nil => exact .ok h
  | cons hl _ ih => exact (effect_similar hl h).bind fun _ _ _ _ h => ih h

theorem similar_of_part {l : Lexeme} (ha : l = .opening (.marked .negated) → S.Ahead)
    (hl : S.Rel (l.part s f) (l.part s' f)) (hrun : S.Rel (part s f .run) (part s' f .run)) :
    Similar S s s' f l l := by
  cases l using inert_cases with
  | inert l hi => exact .inert hi hi rfl hl
  | opening g => exact .opening g fun hg => ha (congrArg _ hg)
  | bar => exact .bar
  | closing g => exact .closing g fun _ => hrun

/-! ### Patterns -/

theorem similar_base (S : Similarity) (f : Flags) : f.base.Similar S f.base := by
  have hfresh : Frame.Similar S {} {} := .fresh nofun
  unfold Flags.base
  split
  · exact ⟨hfresh.add (S.edge _), .nil⟩
  · exact ⟨hfresh, .nil⟩

theorem similar_top (f : Flags) {k k' : Frames} (h : k.Similar S k') :
    (f.top k).Similar S (f.top k') := by
  unfold Flags.top
  split
  · exact ⟨h.inner.add (S.edge _), h.outer⟩
  · exact h

section Patterns

variable {ls ls' : List Lexeme}
  (h : Agree (Frames.Similar S) (effects s f.inlined f.base ls) (effects s' f.inlined f.base ls'))

include h

theorem exists_read_iff_of_agree :
    (∃ r, Regex.read (f.inlineGroup ++ f.pattern (ls.flatMap (write s))) = .ok r) ↔
      ∃ r, Regex.read (f.inlineGroup ++ f.pattern (ls'.flatMap (write s'))) = .ok r := by
  rw [exists_read_iff, exists_read_iff]
  exact h.exists_closed_iff fun _ _ hk => hk.length_outer

theorem rel_of_read {r r' : Regex}
    (hr : Regex.read (f.inlineGroup ++ f.pattern (ls.flatMap (write s))) = .ok r)
    (hr' : Regex.read (f.inlineGroup ++ f.pattern (ls'.flatMap (write s'))) = .ok r') :
    S.Rel r r' := by
  rw [read_pattern] at hr hr'
  generalize effects s f.inlined f.base ls = a at *
  generalize effects s' f.inlined f.base ls' = b at *
  cases h with
  | ok h => exact (similar_top f h).finish hr hr'
  | error e => cases hr

theorem exists_read_of_agree {r : Regex}
    (hr : Regex.read (f.inlineGroup ++ f.pattern (ls.flatMap (write s))) = .ok r) :
    ∃ r', Regex.read (f.inlineGroup ++ f.pattern (ls'.flatMap (write s'))) = .ok r' ∧
      S.Rel r r' := by
  obtain ⟨r', hr'⟩ := (exists_read_iff_of_agree h).1 ⟨r, hr⟩
  exact ⟨r', hr', rel_of_read h hr hr'⟩

end Patterns

/-- Two patterns that are built alike fit alike. -/
theorem exists_fits_iff_of_alike {ls ls' : List Lexeme}
    (h : Agree (Frames.Similar Alike.similarity) (effects s f.inlined f.base ls)
      (effects s' f.inlined f.base ls')) :
    (∃ r, Regex.read (f.inlineGroup ++ f.pattern (ls.flatMap (write s))) = .ok r ∧
        r.fits = true) ↔
      ∃ r, Regex.read (f.inlineGroup ++ f.pattern (ls'.flatMap (write s'))) = .ok r ∧
        r.fits = true := by
  constructor
  · rintro ⟨r, hr, hf⟩
    obtain ⟨r', hr', halike⟩ := exists_read_of_agree h hr
    exact ⟨r', hr', halike.fits ▸ hf⟩
  · rintro ⟨r', hr', hf⟩
    obtain ⟨r, hr⟩ := (exists_read_iff_of_agree h).2 ⟨r', hr'⟩
    have halike : r.Alike r' := rel_of_read h hr hr'
    exact ⟨r, hr, halike.fits.trans hf⟩

theorem looksAhead_of_read {ls : List Lexeme} (hls : ∀ l ∈ ls, l ≠ .opening (.marked .negated))
    {r : Regex} (hr : Regex.read (f.inlineGroup ++ f.pattern (ls.flatMap (write s))) = .ok r) :
    r.looksAhead = false := by
  have hsame : List.Forall₂ (Similar (Within.similarity False) s s f.inlined) ls ls :=
    List.forall₂_same.2 fun l hl => similar_of_part (fun h => hls l hl h)
      (Within.refl fun _ => looksAhead_part l) (Within.refl fun _ => looksAhead_part _)
  exact (rel_of_read (effects_similar hsame (similar_base _ f)) hr hr).looksAhead id

/-- Without lookahead a pattern fits if one that nests at least as deep does. -/
theorem exists_fits_of_shallower {ls ls' : List Lexeme}
    (h : Agree (Frames.Similar Shallower.similarity) (effects s f.inlined f.base ls)
      (effects s' f.inlined f.base ls')) (hls : ∀ l ∈ ls', l ≠ .opening (.marked .negated))
    (hfits : ∃ r, Regex.read (f.inlineGroup ++ f.pattern (ls'.flatMap (write s'))) = .ok r ∧
      r.fits = true) :
    ∃ r, Regex.read (f.inlineGroup ++ f.pattern (ls.flatMap (write s))) = .ok r ∧
      r.fits = true := by
  obtain ⟨r', hr', hf⟩ := hfits
  obtain ⟨r, hr⟩ := (exists_read_iff_of_agree h).2 ⟨r', hr'⟩
  have hshallower : r.Shallower r' := rel_of_read h hr hr'
  exact ⟨r, hr, hshallower.fits (looksAhead_of_read hls hr') hf⟩

end Lexeme

end PathGlob
