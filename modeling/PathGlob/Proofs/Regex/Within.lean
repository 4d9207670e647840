import PathGlob.Proofs.Regex.Similarity

/-!
# Regexes that match more

`Regex.Within tight r r'` says that `r'` matches wherever `r` does, and nowhere else if `tight`
holds. Every part of a regex may be replaced in this way, except that a lookahead asks for a tight
replacement: it turns "more" into "less". So where the replacement is not tight, `r'` is asked to
have no lookahead.

* `Regex.Within.seq` and its siblings: the parts of a regex;
* `Regex.Within.repeated_twice`: a repetition after itself is the same repetition;
* `Regex.Within.similarity`: the relation is kept up while regexes are built.
-/

namespace PathGlob

theorem Steps.mono {R R' : Nat → Nat → Prop} (hR : ∀ p q, R p q → R' p q) {n p q : Nat}
    (h : Steps R n p q) : Steps R' n p q := by
  induction n generalizing p with
  | zero => exact h
  | succ n ih =>
    obtain ⟨m, hm, hq⟩ := h
    exact ⟨m, hR p m hm, ih hq⟩

namespace Regex

/-! ### Rows -/

theorem spans_seqs_cons (t : List Char) (r : Regex) (rs : List Regex) (p q : Nat) :
    (seqs (r :: rs)).Spans t p q ↔ ∃ m, r.Spans t p m ∧ (seqs rs).Spans t m q := by
  cases rs with
  | nil =>
    constructor
    · intro h
      exact ⟨q, h, rfl⟩
    · rintro ⟨m, h, rfl⟩
      exact h
  | cons r' rs => rfl

theorem spans_seqs_append (t : List Char) (rs rs' : List Regex) (p q : Nat) :
    (seqs (rs ++ rs')).Spans t p q ↔ ∃ m, (seqs rs).Spans t p m ∧ (seqs rs').Spans t m q := by
  induction rs generalizing p with
  | nil =>
    constructor
    · intro h
      exact ⟨p, rfl, h⟩
    · rintro ⟨m, rfl, h⟩
      exact h
  | cons r rs ih =>
    simp only [List.cons_append, spans_seqs_cons, ih]
    constructor
    · rintro ⟨m, hr, m', hrs, hrs'⟩
      exact ⟨m', ⟨m, hr, hrs⟩, hrs'⟩
    · rintro ⟨m', ⟨m, hr, hrs⟩, hrs'⟩
      exact ⟨m, hr, m', hrs, hrs'⟩

theorem looksAhead_seqs_append (rs rs' : List Regex) :
    (seqs (rs ++ rs')).looksAhead = ((seqs rs).looksAhead || (seqs rs').looksAhead) := by
  rw [Bool.eq_iff_iff, ← Bool.not_eq_false, ← Bool.not_eq_false, Bool.or_eq_false_iff,
    looksAhead_seqs, looksAhead_seqs, looksAhead_seqs, List.forall_mem_append]

/-! ### Regexes -/

/-- The second regex matches wherever the first one does. It matches nowhere else if `tight` holds,
and has no lookahead otherwise. -/
structure Within (tight : Prop) (r r' : Regex) : Prop where
  spans : ∀ {t p q}, r.Spans t p q → r'.Spans t p q
  spans_of_tight : tight → ∀ {t p q}, r'.Spans t p q → r.Spans t p q
  looksAhead : ¬tight → r'.looksAhead = false

namespace Within

variable {tight : Prop} {r r' a a' b b' : Regex} {rs rs' as as' bs bs' : List Regex}

theorem refl (h : ¬tight → r.looksAhead = false) : Within tight r r := ⟨id, fun _ => id, h⟩

theorem group (h : r.Within tight r') : (Regex.group r).Within tight (.group r') :=
  ⟨h.spans, h.spans_of_tight, h.looksAhead⟩

theorem seq (ha : a.Within tight a') (hb : b.Within tight b') :
    (Regex.seq a b).Within tight (.seq a' b') := by
  refine ⟨?_, ?_, fun hn => ?_⟩
  · rintro t p q ⟨m, h, h'⟩
    exact ⟨m, ha.spans h, hb.spans h'⟩
  · rintro he t p q ⟨m, h, h'⟩
    exact ⟨m, ha.spans_of_tight he h, hb.spans_of_tight he h'⟩
  · rw [Regex.looksAhead, ha.looksAhead hn, hb.looksAhead hn, Bool.or_self]

theorem alt (ha : a.Within tight a') (hb : b.Within tight b') :
    (Regex.alt a b).Within tight (.alt a' b') := by
  refine ⟨fun h => ?_, fun he _ _ _ h => ?_, fun hn => ?_⟩
  · exact h.imp ha.spans hb.spans
  · exact h.imp (ha.spans_of_tight he) (hb.spans_of_tight he)
  · rw [Regex.looksAhead, ha.looksAhead hn, hb.looksAhead hn, Bool.or_self]

theorem times (lo : Nat) (hi : Option Nat) (greedy : Bool) (h : r.Within tight r') :
    (Regex.times lo hi greedy r).Within tight (.times lo hi greedy r') := by
  refine ⟨?_, ?_, h.looksAhead⟩
  · rintro t p q ⟨n, hlo, hhi, hn⟩
    exact ⟨n, hlo, hhi, hn.mono fun _ _ => h.spans⟩
  · rintro he t p q ⟨n, hlo, hhi, hn⟩
    exact ⟨n, hlo, hhi, hn.mono fun _ _ => h.spans_of_tight he⟩

theorem notAhead (he : tight) (h : r.Within tight r') :
    (Regex.notAhead r).Within tight (.notAhead r') := by
  refine ⟨?_, ?_, fun hn => absurd he hn⟩
  · rintro t p q ⟨rfl, hr⟩
    exact ⟨rfl, fun ⟨m, hm⟩ => hr ⟨m, h.spans_of_tight he hm⟩⟩
  · rintro - t p q ⟨rfl, hr⟩
    exact ⟨rfl, fun ⟨m, hm⟩ => hr ⟨m, h.spans hm⟩⟩

theorem seqs (h : List.Forall₂ (Within tight) rs rs') :
    (Regex.seqs rs).Within tight (Regex.seqs rs') :=
  rel_seqs (refl fun _ => rfl) seq h

theorem alts (h : List.Forall₂ (Within tight) rs rs') :
    (Regex.alts rs).Within tight (Regex.alts rs') :=
  rel_alts (refl fun _ => rfl) alt h

theorem seqs_append (ha : (Regex.seqs as).Within tight (Regex.seqs as'))
    (hb : (Regex.seqs bs).Within tight (Regex.seqs bs')) :
    (Regex.seqs (as ++ bs)).Within tight (Regex.seqs (as' ++ bs')) := by
  refine ⟨fun h => ?_, fun he _ _ _ h => ?_, fun hn => ?_⟩
  · obtain ⟨m, h, h'⟩ := (spans_seqs_append _ _ _ _ _).1 h
    exact (spans_seqs_append _ _ _ _ _).2 ⟨m, ha.spans h, hb.spans h'⟩
  · obtain ⟨m, h, h'⟩ := (spans_seqs_append _ _ _ _ _).1 h
    exact (spans_seqs_append _ _ _ _ _).2
      ⟨m, ha.spans_of_tight he h, hb.spans_of_tight he h'⟩
  · rw [looksAhead_seqs_append, ha.looksAhead hn, hb.looksAhead hn, Bool.or_self]

/-- **The relation is kept up while regexes are built**, with lookaheads where `tight` holds. -/
def similarity (tight : Prop) : Similarity where
  Rel := Within tight
  Row rs rs' := (Regex.seqs rs).Within tight (Regex.seqs rs')
  Ahead := tight
  nil := refl fun _ => rfl
  append h hp := h.seqs_append (seqs hp)
  seqs := id
  alts := alts
  edge _ := refl fun _ => rfl
  group := group
  notAhead := notAhead
  times lo hi greedy _ _ h := h.times lo hi greedy

/-- **A repetition after itself** is the same repetition. -/
theorem repeated_twice (greedy : Bool) (h : ¬tight → r.looksAhead = false) :
    (Regex.seqs [.group (.times 0 none greedy r), .group (.times 0 none greedy r)]).Within tight
      (Regex.seqs [.group (.times 0 none greedy r)]) := by
  refine ⟨?_, ?_, h⟩
  · rintro t p q ⟨m, ⟨n, -, -, hn⟩, n', -, -, hn'⟩
    exact ⟨n + n', Nat.zero_le _, by simp, Steps.add.2 ⟨m, hn, hn'⟩⟩
  · rintro - t p q hn
    exact ⟨q, hn, 0, Nat.zero_le _, by simp, rfl⟩

theorem matchesIn {t : List Char} (h : r.Within tight r') (hr : r.MatchesIn t) :
    r'.MatchesIn t := by
  obtain ⟨p, q, hp, hq⟩ := hr
  exact ⟨p, q, hp, h.spans hq⟩

theorem matchesIn_iff {t : List Char} (h : r.Within tight r') (he : tight) :
    r.MatchesIn t ↔ r'.MatchesIn t := by
  refine ⟨h.matchesIn, ?_⟩
  rintro ⟨p, q, hp, hq⟩
  exact ⟨p, q, hp, h.spans_of_tight he hq⟩

end Within

end Regex

/-! ### Matchers -/

namespace Matcher

variable {tight : Prop} {source source' : String} {f f' : Flags} {m m' : Matcher} {t : List Char}

/-- A matcher that matches more accepts more. It has no lookahead, so it never gives up. -/
theorem accepts_of_within (h : m.regex.Within False m'.regex) (hm : compile source f = .ok m)
    (hm' : compile source' f' = .ok m') (ht : m.accepts t = true) : m'.accepts t = true := by
  have hgives : m.regex.givesUp t = false := by
    rw [accepts, Bool.and_eq_true, Bool.not_eq_true'] at ht
    exact ht.1
  have hgives' : m'.regex.givesUp t = false := by
    rw [Regex.givesUp, h.looksAhead id]
    rfl
  rw [accepts_iff_of_givesUp hm hgives] at ht
  exact (accepts_iff_of_givesUp hm' hgives').2 (h.matchesIn ht)

/-- Matchers that match the same accept the same, unless a search gives up. -/
theorem accepts_eq_of_within (h : m.regex.Within tight m'.regex) (he : tight)
    (hm : compile source f = .ok m) (hm' : compile source' f' = .ok m')
    (hgives : m.regex.givesUp t = false) (hgives' : m'.regex.givesUp t = false) :
    m.accepts t = m'.accepts t := by
  rw [Bool.eq_iff_iff, accepts_iff_of_givesUp hm hgives, accepts_iff_of_givesUp hm' hgives']
  exact h.matchesIn_iff he

end Matcher

end PathGlob
