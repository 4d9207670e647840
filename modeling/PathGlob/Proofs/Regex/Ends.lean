import PathGlob.Proofs.Regex.Building

/-!
# Ends of the text that may be left out

A regex that asks for the end of the text only in repetitions that may be left out can be moved to
another place. If it matches a whole text, it matches a first part of that text where more text
follows: what was taken with the help of the end was taken by repetitions, which stop before it now.

* `Regex.EndOptional`: the regexes of this kind;
* `Regex.Matches.move`: a match can be moved, but not from where text follows to the end;
* `Regex.EndOptional.exists_matches`: of what matches at the end, a first part matches elsewhere;
* `Regex.EndOptional.exists_matches_iff`: such a regex matches inside a text exactly if it matches a
  part of the text as a whole.
-/

namespace PathGlob

namespace Regex

/-- The only edges are ends of the text, and nothing looks ahead. -/
def EndEdged : Regex → Prop
  | empty | set _ => True
  | edge e => e = .textEnd
  | notAhead _ => False
  | group r => r.EndEdged
  | seq a b => a.EndEdged ∧ b.EndEdged
  | alt a b => a.EndEdged ∧ b.EndEdged
  | .times _ _ _ r => r.EndEdged

/-- The end of the text is asked for only in repetitions that may be left out, and nothing looks
ahead. -/
def EndOptional : Regex → Prop
  | empty | set _ => True
  | edge _ | notAhead _ => False
  | group r => r.EndOptional
  | seq a b => a.EndOptional ∧ b.EndOptional
  | alt a b => a.EndOptional ∧ b.EndOptional
  | .times lo _ _ r => r.EndOptional ∨ lo = 0 ∧ r.EndEdged

theorem EndOptional.endEdged {r : Regex} (h : r.EndOptional) : r.EndEdged := by
  induction r with
  | empty | set _ => trivial
  | edge _ | notAhead _ _ => exact h.elim
  | group r ih => exact ih h
  | seq a b iha ihb => exact ⟨iha h.1, ihb h.2⟩
  | alt a b iha ihb => exact ⟨iha h.1, ihb h.2⟩
  | times lo hi greedy r ih => exact h.elim ih And.right

theorem EndEdged.looksAhead_eq_false {r : Regex} (h : r.EndEdged) : r.looksAhead = false := by
  induction r with
  | empty | set _ | edge _ => rfl
  | notAhead _ _ => exact h.elim
  | group r ih => exact ih h
  | seq a b iha ihb => simp [looksAhead, iha h.1, ihb h.2]
  | alt a b iha ihb => simp [looksAhead, iha h.1, ihb h.2]
  | times lo hi greedy r ih => exact ih h

theorem endOptional_seqs {rs : List Regex} : (seqs rs).EndOptional ↔ ∀ r ∈ rs, r.EndOptional :=
  seqs_iff_forall trivial fun _ _ => Iff.rfl

theorem endOptional_alts {rs : List Regex} : (alts rs).EndOptional ↔ ∀ r ∈ rs, r.EndOptional :=
  alts_iff_forall trivial fun _ _ => Iff.rfl

/-! ### Repetitions -/

section Repeats

variable {R : List Char → List Char → List Char → Prop} {n : Nat} {u w v : List Char}

theorem Repeats.move (h : Repeats R n u w v) {v' : List Char}
    (hR : ∀ {u w} x, R u w (x ++ v) → ∀ u', R u' w (x ++ v')) (u' : List Char) :
    Repeats R n u' w v' := by
  induction n generalizing u w u' with
  | zero => exact h
  | succ n ih =>
    obtain ⟨w₁, w₂, rfl, h₁, h₂⟩ := h
    exact ⟨w₁, w₂, rfl, hR w₂ h₁ u', ih h₂ _⟩

theorem repeats_nil (h : n ≠ 0 → R u [] v) : Repeats R n u [] v := by
  induction n with
  | zero => rfl
  | succ n ih =>
    refine ⟨[], [], rfl, h n.succ_ne_zero, ?_⟩
    rw [List.append_nil]
    exact ih fun _ => h n.succ_ne_zero

theorem Repeats.of_nil (h : Repeats R n u [] v) (hn : n ≠ 0) : R u [] v := by
  obtain ⟨n, rfl⟩ := Nat.exists_eq_succ_of_ne_zero hn
  obtain ⟨w₁, w₂, hw, h, -⟩ := h
  obtain ⟨rfl, rfl⟩ := List.append_eq_nil_iff.1 hw.symm
  exact h

end Repeats

/-! ### Moving a match -/

variable {r : Regex} {u w v : List Char}

/-- **A match can be moved**, but not from the end of a text to a place where text follows. -/
theorem Matches.move (h : r.Matches u w v) (hr : r.EndEdged) {v' : List Char}
    (hv : v = [] → v' = []) (u' : List Char) : r.Matches u' w v' := by
  have hrest : ∀ {v v' : List Char} x, (v = [] → v' = []) → x ++ v = [] → x ++ v' = [] := by
    intro v v' x hv hx
    obtain ⟨rfl, rfl⟩ := List.append_eq_nil_iff.1 hx
    exact hv rfl
  induction r generalizing u w v u' v' with
  | empty | set _ => exact h
  | edge e =>
    rw [EndEdged] at hr
    subst hr
    exact ⟨h.1, hv h.2⟩
  | notAhead _ _ => exact hr.elim
  | group r ih => exact ih h hr hv u'
  | seq a b iha ihb =>
    obtain ⟨w₁, w₂, rfl, ha, hb⟩ := h
    exact ⟨w₁, w₂, rfl, iha ha hr.1 (hrest w₂ hv) u', ihb hb hr.2 hv _⟩
  | alt a b iha ihb => exact h.imp (iha · hr.1 hv u') (ihb · hr.2 hv u')
  | times lo hi greedy r ih =>
    obtain ⟨n, hlo, hhi, hn⟩ := h
    exact ⟨n, hlo, hhi, hn.move (fun x hm => ih hm hr (hrest x hv)) u'⟩

namespace EndOptional

/-- What matches nothing at the end of a text does so everywhere. -/
theorem matches_nil (hr : r.EndOptional) (h : r.Matches u [] []) (u' v' : List Char) :
    r.Matches u' [] v' := by
  induction r generalizing u u' v' with
  | empty => exact h
  | set s =>
    obtain ⟨c, hc, -⟩ := h
    cases hc
  | edge _ | notAhead _ _ => exact hr.elim
  | group r ih => exact ih hr h u' v'
  | seq a b iha ihb =>
    obtain ⟨w₁, w₂, hw, ha, hb⟩ := h
    obtain ⟨rfl, rfl⟩ := List.append_eq_nil_iff.1 hw.symm
    exact ⟨[], [], rfl, iha hr.1 ha u' _, ihb hr.2 hb _ v'⟩
  | alt a b iha ihb => exact h.imp (iha hr.1 · u' v') (ihb hr.2 · u' v')
  | times lo hi greedy r ih =>
    obtain ⟨n, hlo, hhi, hn⟩ := h
    rcases hr with hr | ⟨rfl, -⟩
    · exact ⟨n, hlo, hhi, repeats_nil fun h₀ => ih hr (hn.of_nil h₀) u' v'⟩
    · exact ⟨0, Nat.le_refl _, fun h _ => Nat.zero_le h, rfl⟩

/-- Of what is matched in `n` turns at the end of a text, a first part is matched elsewhere in `n`
turns, if this holds of one turn. -/
theorem exists_repeats (hr : r.EndOptional)
    (ih : ∀ {u w}, r.Matches u w [] → ∀ u' v',
      ∃ w' x, w = w' ++ x ∧ r.Matches u' w' (x ++ v'))
    {n : Nat} (h : Repeats r.Matches n u w []) (u' v' : List Char) :
    ∃ w' x, w = w' ++ x ∧ Repeats r.Matches n u' w' (x ++ v') := by
  induction n generalizing u w u' with
  | zero =>
    obtain rfl : w = [] := h
    exact ⟨[], [], rfl, rfl⟩
  | succ n ihn =>
    obtain ⟨w₁, w₂, rfl, h₁, h₂⟩ := h
    by_cases hw : w₂ = []
    · -- the first turn takes all, and the others take nothing
      subst hw
      obtain ⟨w', x, rfl, h'⟩ := ih h₁ u' v'
      refine ⟨w', x, List.append_nil _, w', [], (List.append_nil w').symm, h', ?_⟩
      exact repeats_nil fun h₀ => hr.matches_nil (h₂.of_nil h₀) _ _
    · obtain ⟨w', x, rfl, h'⟩ := ihn h₂ (u' ++ w₁)
      refine ⟨w₁ ++ w', x, (List.append_assoc ..).symm, w₁, w', rfl, ?_, h'⟩
      exact h₁.move hr.endEdged (fun hnil => absurd (List.append_eq_nil_iff.1 hnil).1 hw) u'

end EndOptional

/-- Of what is matched in `n` turns at the end of a text, a first part is matched elsewhere in no
more turns: those are left out that ask for the end. -/
theorem EndEdged.exists_repeats (hr : r.EndEdged) {n : Nat} (h : Repeats r.Matches n u w [])
    (u' v' : List Char) :
    ∃ m ≤ n, ∃ w' x, w = w' ++ x ∧ Repeats r.Matches m u' w' (x ++ v') := by
  induction n generalizing u w u' with
  | zero =>
    obtain rfl : w = [] := h
    exact ⟨0, Nat.le_refl _, [], [], rfl, rfl⟩
  | succ n ih =>
    obtain ⟨w₁, w₂, rfl, h₁, h₂⟩ := h
    by_cases hw : w₂ = []
    · exact ⟨0, Nat.zero_le _, [], w₁ ++ w₂, rfl, rfl⟩
    · obtain ⟨m, hm, w', x, rfl, h'⟩ := ih h₂ (u' ++ w₁)
      refine ⟨m + 1, Nat.succ_le_succ hm, w₁ ++ w', x, (List.append_assoc ..).symm, w₁, w', rfl,
        ?_, h'⟩
      exact h₁.move hr (fun hnil => absurd (List.append_eq_nil_iff.1 hnil).1 hw) u'

namespace EndOptional

/-- **Of what is matched at the end of a text, a first part is matched elsewhere.** -/
theorem exists_matches (hr : r.EndOptional) (h : r.Matches u w []) (u' v' : List Char) :
    ∃ w' x, w = w' ++ x ∧ r.Matches u' w' (x ++ v') := by
  induction r generalizing u w u' v' with
  | empty | set _ => exact ⟨w, [], (List.append_nil w).symm, h⟩
  | edge _ | notAhead _ _ => exact hr.elim
  | group r ih => exact ih hr h u' v'
  | seq a b iha ihb =>
    obtain ⟨w₁, w₂, rfl, ha, hb⟩ := h
    by_cases hw : w₂ = []
    · -- only the first part is at the end, and the second one matches nothing there
      subst hw
      obtain ⟨w', x, rfl, ha'⟩ := iha hr.1 ha u' v'
      exact ⟨w', x, List.append_nil _, w', [], (List.append_nil w').symm, ha',
        hr.2.matches_nil hb _ _⟩
    · obtain ⟨w', x, rfl, hb'⟩ := ihb hr.2 hb (u' ++ w₁) v'
      refine ⟨w₁ ++ w', x, (List.append_assoc ..).symm, w₁, w', rfl, ?_, hb'⟩
      exact ha.move hr.1.endEdged (fun hnil => absurd (List.append_eq_nil_iff.1 hnil).1 hw) u'
  | alt a b iha ihb =>
    rcases h with ha | hb
    · obtain ⟨w', x, rfl, ha'⟩ := iha hr.1 ha u' v'
      exact ⟨w', x, rfl, Or.inl ha'⟩
    · obtain ⟨w', x, rfl, hb'⟩ := ihb hr.2 hb u' v'
      exact ⟨w', x, rfl, Or.inr hb'⟩
  | times lo hi greedy r ih =>
    obtain ⟨n, hlo, hhi, hn⟩ := h
    rcases hr with hr | ⟨rfl, hr⟩
    · obtain ⟨w', x, rfl, hn'⟩ := hr.exists_repeats (ih hr) hn u' v'
      exact ⟨w', x, rfl, n, hlo, hhi, hn'⟩
    · obtain ⟨m, hm, w', x, rfl, hm'⟩ := hr.exists_repeats hn u' v'
      exact ⟨w', x, rfl, m, Nat.zero_le m, fun h hh => Nat.le_trans hm (hhi h hh), hm'⟩

/-- **Inside a text the regex matches exactly if it matches some part of it as a whole.** The two
need not match the same part. -/
theorem exists_matches_iff (hr : r.EndOptional) (t : List Char) :
    (∃ u w v, t = u ++ w ++ v ∧ r.Matches u w v) ↔
      ∃ u q v, t = u ++ q ++ v ∧ r.Matches [] q [] := by
  constructor
  · rintro ⟨u, w, v, rfl, h⟩
    exact ⟨u, w, v, rfl, h.move hr.endEdged (fun _ => rfl) []⟩
  · rintro ⟨u, q, v, rfl, h⟩
    obtain ⟨w, x, rfl, h'⟩ := hr.exists_matches h u v
    exact ⟨u, w, x ++ v, by simp only [List.append_assoc], h'⟩

end EndOptional

end Regex

end PathGlob
