import PathGlob.Proofs.Regex.Letters
import PathGlob.Proofs.Regex.Similarity

/-!
# Regexes for another separator

A path that is written with `/` can be written with `\` instead. `Regex.Mirrors r r'` says that `r'`
is the regex `r` for the other way of writing: its sets take `\` for `/`, and where `r` asks for one
separator, `r'` asks for a run of them. On a path in which separators are never next to one another
the two match alike (`Regex.Mirrors.spans_iff`). The relation is kept up while regexes are built
(`Regex.Mirrors.similarity`).
-/

namespace PathGlob

/-- A character of a path, with `\` for `/`. -/
def mirror (c : Char) : Char := if c = '/' then '\\' else c

/-- A text that can be written with `\` for `/`: it holds no `\`, and no two separators next to one
another. -/
structure Mirrorable (t : List Char) : Prop where
  noBackslash : '\\' ∉ t
  apart : ¬['/', '/'] <:+: t

theorem mirror_of_ne {c : Char} (h : c ≠ '/') : mirror c = c := if_neg h

theorem mirror_eq_iff {c d : Char} (h₁ : d ≠ '/') (h₂ : d ≠ '\\') : mirror c = d ↔ c = d := by
  unfold mirror
  split
  · rename_i hc
    subst hc
    exact iff_of_false h₂.symm h₁.symm
  · rfl

theorem mirror_eq_backslash_iff {c : Char} (h : c ≠ '\\') : mirror c = '\\' ↔ c = '/' := by
  unfold mirror
  split
  · simpa
  · simpa [h]

namespace Mirrorable

variable {c : Char} {t : List Char}

theorem tail (h : Mirrorable (c :: t)) : Mirrorable t :=
  ⟨fun hm => h.noBackslash (List.mem_cons_of_mem c hm),
    fun hi => h.apart (hi.trans (List.suffix_cons c t).isInfix)⟩

theorem head_ne (h : Mirrorable (c :: t)) : c ≠ '\\' :=
  fun hc => h.noBackslash (hc ▸ List.mem_cons_self)

theorem head?_ne (h : Mirrorable ('/' :: t)) : t.head? ≠ some '/' := by
  intro ht
  obtain ⟨t, rfl⟩ := List.head?_eq_some_iff.1 ht
  exact h.apart ⟨[], t, rfl⟩

theorem getElem?_succ_ne (h : Mirrorable t) {p : Nat} (hp : t[p]? = some '/') :
    t[p + 1]? ≠ some '/' := by
  induction t generalizing p with
  | nil => simp at hp
  | cons c t ih =>
    cases p with
    | zero =>
      obtain rfl : c = '/' := by simpa using hp
      rw [List.getElem?_cons_succ, ← List.head?_eq_getElem?]
      exact h.head?_ne
    | succ p => exact ih h.tail hp

theorem of_component (h₁ : '/' ∉ t) (h₂ : '\\' ∉ t) : Mirrorable t :=
  ⟨h₂, fun hi => h₁ (hi.subset List.mem_cons_self)⟩

end Mirrorable

theorem map_mirror_of_component {t : List Char} (h : '/' ∉ t) : t.map mirror = t := by
  conv_rhs => rw [← t.map_id]
  refine List.map_congr_left fun c hc => mirror_of_ne ?_
  rintro rfl
  exact h hc

/-! ### Regexes -/

namespace Regex

/-- The second regex is the first one for texts with `\` for `/`. -/
inductive Mirrors : Regex → Regex → Prop
  | empty : Mirrors empty empty
  | set {a b : CharSet} (h : ∀ c, c ≠ '\\' → b.contains (mirror c) = a.contains c) :
      Mirrors (set a) (set b)
  /-- One separator, and a run of separators. -/
  | separator {a b : CharSet} (ha : ∀ c, a.contains c = true ↔ c = '/')
      (hb : ∀ c, b.contains c = true ↔ c = '\\') (greedy : Bool) :
      Mirrors (.set a) (.times 1 none greedy (.set b))
  | edge (e : Edge) : Mirrors (edge e) (edge e)
  | group {r r' : Regex} : Mirrors r r' → Mirrors (group r) (group r')
  | seq {a a' b b' : Regex} : Mirrors a a' → Mirrors b b' → Mirrors (seq a b) (seq a' b')
  | alt {a a' b b' : Regex} : Mirrors a a' → Mirrors b b' → Mirrors (alt a b) (alt a' b')
  | times (lo : Nat) (hi : Option Nat) (greedy : Bool) {r r' : Regex} :
      Mirrors r r' → Mirrors (.times lo hi greedy r) (.times lo hi greedy r')
  | notAhead {r r' : Regex} : Mirrors r r' → Mirrors (notAhead r) (notAhead r')

end Regex

theorem Edge.at_map_mirror (t : List Char) (p : Nat) (e : Edge) :
    e.At (t.map mirror) p ↔ e.At t p := by
  have hn : ∀ q : Nat, (t.map mirror)[q]? = some '\n' ↔ t[q]? = some '\n' := by
    intro q
    rw [List.getElem?_map, Option.map_eq_some_iff]
    simp only [mirror_eq_iff (show '\n' ≠ '/' by decide) (show '\n' ≠ '\\' by decide),
      exists_eq_right]
  cases e with
  | textStart => rfl
  | textEnd => simp [At]
  | lineStart => simp only [At, hn]
  | lineEnd => simp only [At, hn, List.length_map]

namespace Regex

theorem spans_set_map {t : List Char} (b : CharSet) (p q : Nat) :
    (set b).Spans (t.map mirror) p q ↔
      q = p + 1 ∧ ∃ c, t[p]? = some c ∧ b.contains (mirror c) = true := by
  simp only [Spans, List.getElem?_map, Option.map_eq_some_iff]
  refine and_congr_right fun _ => ⟨?_, ?_⟩
  · rintro ⟨_, ⟨c, hc, rfl⟩, hb⟩
    exact ⟨c, hc, hb⟩
  · rintro ⟨c, hc, hb⟩
    exact ⟨_, ⟨c, hc, rfl⟩, hb⟩

/-- Where separators are never next to one another, a run of them is a single one. -/
theorem spans_separators {t : List Char} (ht : Mirrorable t) {a b : CharSet}
    (ha : ∀ c, a.contains c = true ↔ c = '/') (hb : ∀ c, b.contains c = true ↔ c = '\\')
    (greedy : Bool) (p q : Nat) :
    (Regex.times 1 none greedy (set b)).Spans (t.map mirror) p q ↔ (set a).Spans t p q := by
  have hset : ∀ p q, (set b).Spans (t.map mirror) p q ↔ q = p + 1 ∧ t[p]? = some '/' := by
    intro p q
    rw [spans_set_map]
    refine and_congr_right fun _ => ⟨?_, fun h => ⟨'/', h, (hb _).2 rfl⟩⟩
    rintro ⟨c, hc, h⟩
    have hne : c ≠ '\\' := by
      rintro rfl
      exact ht.noBackslash (List.mem_of_getElem? hc)
    rw [hc, (mirror_eq_backslash_iff hne).1 ((hb _).1 h)]
  have hset' : (set a).Spans t p q ↔ q = p + 1 ∧ t[p]? = some '/' := by
    simp only [Spans, ha, exists_eq_right]
  rw [hset', ← hset]
  constructor
  · rintro ⟨n, hn, -, hs⟩
    obtain ⟨n, rfl⟩ := Nat.exists_eq_add_of_le' hn
    obtain ⟨m, hm, hs⟩ := hs
    cases n with
    | zero =>
      obtain rfl : m = q := hs
      exact hm
    | succ n =>
      obtain ⟨m', hm', -⟩ := hs
      obtain ⟨rfl, h₁⟩ := (hset _ _).1 hm
      exact absurd ((hset _ _).1 hm').2 (ht.getElem?_succ_ne h₁)
  · intro h
    exact ⟨1, Nat.le_refl _, by simp, q, h, rfl⟩

/-- **Mirrored regexes match alike.** -/
theorem Mirrors.spans_iff {r r' : Regex} (h : Mirrors r r') {t : List Char} (ht : Mirrorable t)
    (p q : Nat) : r'.Spans (t.map mirror) p q ↔ r.Spans t p q := by
  induction h generalizing p q with
  | empty => rfl
  | set h =>
    rw [spans_set_map]
    refine and_congr_right fun _ => exists_congr fun c => and_congr_right fun hc => ?_
    rw [h]
    rintro rfl
    exact ht.noBackslash (List.mem_of_getElem? hc)
  | separator ha hb greedy => exact spans_separators ht ha hb greedy p q
  | edge e => simp only [Spans, Edge.at_map_mirror]
  | group h ih => exact ih p q
  | seq ha hb iha ihb => simp only [Spans, iha, ihb]
  | alt ha hb iha ihb => simp only [Spans, iha, ihb]
  | @times lo hi greedy r r' h ih =>
    have hr : r'.Spans (t.map mirror) = r.Spans t := by
      funext p q
      exact propext (ih p q)
    simp only [Spans, hr]
  | notAhead h ih => simp only [Spans, ih]

theorem Mirrors.matchesIn_iff {r r' : Regex} (h : Mirrors r r') {t : List Char}
    (ht : Mirrorable t) : r'.MatchesIn (t.map mirror) ↔ r.MatchesIn t := by
  simp only [MatchesIn, List.length_map, h.spans_iff ht]

/-! ### Rows and choices -/

theorem mirrors_seqs {rs rs' : List Regex} (h : List.Forall₂ Mirrors rs rs') :
    Mirrors (seqs rs) (seqs rs') :=
  rel_seqs .empty .seq h

theorem mirrors_alts {rs rs' : List Regex} (h : List.Forall₂ Mirrors rs rs') :
    Mirrors (alts rs) (alts rs') :=
  rel_alts .empty .alt h

/-- **The relation is kept up while regexes are built.** -/
def Mirrors.similarity : Similarity where
  Rel := Mirrors
  Row := List.Forall₂ Mirrors
  Ahead := True
  nil := .nil
  append h hp := List.rel_append h hp
  seqs := mirrors_seqs
  alts := mirrors_alts
  edge := .edge
  group := .group
  notAhead _ := .notAhead
  times lo hi greedy _ _ := .times lo hi greedy

end Regex

end PathGlob
