import PathGlob.Proofs.Regex.Reading

/-!
# Letters under the flags

What the sets of characters in a pattern contain. A separator has no case, so even where case is
ignored no other character is taken for it (`Token.contains_letterSet_separator`).
-/

namespace PathGlob

namespace Unicode

/-- No other code point folds to `n`, and `n` folds to itself. -/
def Caseless (n : Nat) : Prop :=
  n ≠ 0 ∧ ∀ r ∈ foldRuns, (n < r.first ∨ r.first + (r.last - r.first) < n) ∧
    (n < r.image ∨ r.image + (r.last - r.first) < n)

instance (n : Nat) : Decidable (Caseless n) :=
  inferInstanceAs (Decidable (_ ∧ _))

theorem fold_eq_iff {n : Nat} (h : Caseless n) (m : Nat) : fold m = n ↔ m = n := by
  rw [fold]
  cases hf : foldRuns.findSome? fun r => r.image? m with
  | none => rfl
  | some k =>
    obtain ⟨r, hr, hk⟩ := List.exists_of_findSome?_eq_some hf
    have hn := h.2 r hr
    rw [FoldRun.image?] at hk
    split at hk
    · rename_i hm
      simp only [Bool.and_eq_true, decide_eq_true_eq] at hm
      have hk' : r.image + (m - r.first) = k := Option.some.inj hk
      rw [Option.getD_some]
      omega
    · cases hk

theorem toNat_eq_of_ofNat_eq {n : Nat} {c : Char} (h : Char.ofNat n = c) (hc : c.toNat ≠ 0) :
    n = c.toNat := by
  by_cases hv : n.isValidChar
  · rw [Char.ofNat, dif_pos hv] at h
    rw [← h]
    rfl
  · rw [Char.ofNat, dif_neg hv] at h
    rw [← h] at hc
    exact absurd rfl hc

theorem preimage?_eq_none {n : Nat} (h : Caseless n) {r : FoldRun} (hr : r ∈ foldRuns) :
    r.preimage? n = none := by
  have hn := h.2 r hr
  rw [FoldRun.preimage?, if_neg]
  simp only [Bool.and_eq_true, decide_eq_true_eq]
  omega

/-- A character without case is equal up to case to itself only. -/
theorem mem_foldedAlike_iff {c d : Char} (h : Caseless d.toNat) : d ∈ foldedAlike c ↔ c = d := by
  simp only [foldedAlike, List.mem_cons, List.mem_map, List.mem_filterMap]
  constructor
  · rintro (hd | ⟨k, ⟨r, hr, hk⟩, hd⟩)
    · have hf := toNat_eq_of_ofNat_eq hd.symm h.1
      exact Char.toNat_inj.1 ((fold_eq_iff h _).1 hf)
    · have hd := toNat_eq_of_ofNat_eq hd h.1
      have hn := h.2 r hr
      rw [FoldRun.preimage?] at hk
      split at hk
      · rename_i hm
        simp only [Bool.and_eq_true, decide_eq_true_eq] at hm
        have hk' := Option.some.inj hk
        omega
      · cases hk
  · rintro rfl
    refine Or.inl ?_
    rw [(fold_eq_iff h _).2 rfl, Char.ofNat_toNat]

theorem foldedAlike_of_caseless {c : Char} (h : Caseless c.toNat) : foldedAlike c = [c] := by
  have hp : (foldRuns.filterMap fun r => r.preimage? c.toNat) = [] :=
    List.filterMap_eq_nil_iff.2 fun r hr => preimage?_eq_none h hr
  rw [foldedAlike, (fold_eq_iff h _).2 rfl, hp, Char.ofNat_toNat, List.map_nil]

end Unicode

theorem Separator.caseless_char (s : Separator) : Unicode.Caseless s.char.toNat := by
  cases s <;> decide +kernel

namespace CharSet

theorem contains_anyCase_single {a : Char} (h : Unicode.Caseless a.toNat) (c : Char) :
    (anyCase (single a)).contains c = true ↔ c = a := by
  rw [contains, List.any_eq_true, ← Unicode.mem_foldedAlike_iff h]
  constructor
  · rintro ⟨d, hd, hs⟩
    rwa [← contains_single.1 hs]
  · intro ha
    exact ⟨a, ha, contains_single.2 rfl⟩

theorem contains_anyCase_of_caseless {a : Char} (h : Unicode.Caseless a.toNat) (c : Char) :
    (anyCase (single c)).contains a = true ↔ c = a := by
  rw [contains, Unicode.foldedAlike_of_caseless h, List.any_cons, List.any_nil, Bool.or_false,
    contains_single, eq_comm]

end CharSet

namespace Token

/-- The separator is taken for nothing but itself. -/
theorem letterSet_contains_separator (f : Flags) (s : Separator) (c : Char) :
    (letterSet f c).contains s.char = true ↔ c = s.char := by
  rw [letterSet]
  split
  · exact CharSet.contains_anyCase_of_caseless s.caseless_char c
  · rw [CharSet.contains_single, eq_comm]

theorem contains_letterSet {f : Flags} (h : f.ignoreCase = false) (c d : Char) :
    (letterSet f c).contains d = true ↔ d = c := by
  rw [letterSet, h, if_neg Bool.false_ne_true, CharSet.contains_single]

theorem contains_dotSet {f : Flags} (h : f.dotAll = false) (c : Char) :
    (dotSet f).contains c = true ↔ c ≠ '\n' := by
  rw [dotSet, h, if_neg Bool.false_ne_true, CharSet.contains, Bool.not_eq_true', ne_eq,
    ← CharSet.contains_single (d := c), Bool.not_eq_true]

end Token

theorem Separator.contains_others (s : Separator) (ignoreCase : Bool) (c : Char) :
    (s.others ignoreCase).contains c = true ↔ c ≠ s.char := by
  have h : (OpenClass.caseClosed ignoreCase (.union .empty (.single s.char))).contains c = true ↔
      c = s.char := by
    cases ignoreCase with
    | false =>
      simp only [OpenClass.caseClosed, Bool.false_eq_true, ↓reduceIte, CharSet.contains,
        Bool.false_or]
      exact CharSet.contains_single
    | true =>
      rw [← CharSet.contains_anyCase_single s.caseless_char]
      simp only [OpenClass.caseClosed, ↓reduceIte, CharSet.contains, Bool.false_or]
  rw [others, CharSet.contains, Bool.not_eq_true', ne_eq, ← h, Bool.not_eq_true]

end PathGlob
