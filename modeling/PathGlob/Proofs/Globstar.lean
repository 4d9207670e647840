import PathGlob.Proofs.Glob.Level

/-!
# Globstars

A glob whose levels may be globstars, tested against whole paths. The pattern of a globstar takes
the separator after it along, and it may also run to the end of the path and leave nothing for the
levels after it. That never accepts a path that the levels could not divide among themselves
(`Levels.cuts_single`), so the levels of a glob take the components of a path.

* `Level.Takes` says which components a level takes;
* `Levels.trim` leaves out a last empty level that a globstar has swallowed;
* `Glob.accepts_iff_cuts`: a glob accepts the paths whose components can be cut over its levels.
-/

namespace PathGlob

/-- What a level takes of a path: a globstar any components, though at least one if it is the last
level, and any other level one component. -/
def Level.Takes (same : Char → Char → Prop) (last : Bool) (l : List Char)
    (block : List (List Char)) : Prop :=
  if isGlobstar l then last = true → block ≠ [] else ∃ c, block = [c] ∧ Fits same l c

/-- The levels without a last one that is empty and follows a globstar. -/
def Levels.trim : List (List Char) → List (List Char)
  | [] => []
  | l :: ls => if Level.isGlobstar l && ls == [[]] then [l] else l :: trim ls

namespace Levels

open Level

variable {same : Char → Char → Prop} {l : List Char} {ls cs : List (List Char)}

/-! ### Cutting components over levels -/

theorem trim_ne_nil (h : ls ≠ []) : trim ls ≠ [] := by
  cases ls with
  | nil => exact absurd rfl h
  | cons l ls =>
    rw [trim]
    split <;> simp

theorem not_takes_nil (l : List Char) : ¬Takes same true l [] := by
  rw [Takes]
  split
  · exact fun h => h rfl rfl
  · rintro ⟨c, hc, -⟩
    cases hc

theorem ne_nil_of_cuts (hls : ls ≠ []) (h : Cuts (Takes same) (trim ls) cs) : cs ≠ [] :=
  h.ne_nil (trim_ne_nil hls) not_takes_nil

theorem cuts_component (hl : isGlobstar l = false) : Cuts (Takes same) (trim (l :: ls)) cs ↔
    ∃ c rest, cs = c :: rest ∧ Fits same l c ∧ Cuts (Takes same) (trim ls) rest := by
  rw [trim, if_neg (by simp [hl]), cuts_cons]
  simp only [Takes, hl, Bool.false_eq_true, ↓reduceIte]
  constructor
  · rintro ⟨-, rest, rfl, ⟨c, rfl, h⟩, hr⟩
    exact ⟨c, rest, rfl, h, hr⟩
  · rintro ⟨c, rest, rfl, h, hr⟩
    exact ⟨[c], rest, rfl, ⟨c, rfl, h⟩, hr⟩

theorem cuts_last_globstar (hl : isGlobstar l = true) (hls : ls = [] ∨ ls = [[]]) :
    Cuts (Takes same) (trim (l :: ls)) cs ↔ cs ≠ [] := by
  have ht : trim (l :: ls) = [l] := by rcases hls with rfl | rfl <;> simp [trim, hl]
  rw [ht, cuts_singleton]
  simp only [Takes, hl, ↓reduceIte, true_implies]

theorem cuts_globstar (hl : isGlobstar l = true) (hls : ls ≠ []) (hls' : ls ≠ [[]]) :
    Cuts (Takes same) (trim (l :: ls)) cs ↔
      ∃ block rest, cs = block ++ rest ∧ Cuts (Takes same) (trim ls) rest := by
  have he : (trim ls).isEmpty = false := by simpa using trim_ne_nil hls
  rw [trim, if_neg (by simp [hls']), cuts_cons]
  simp [Takes, hl, he]

theorem fits_of_fits_nil (hl : l ≠ []) (h : Fits same l []) (c : List Char) : Fits same l c := by
  cases l with
  | nil => exact absurd rfl hl
  | cons d l =>
    rw [Fits] at h ⊢
    split at h
    · rename_i hd
      obtain ⟨v, w, hw, hf⟩ := h
      obtain ⟨-, rfl⟩ := List.append_eq_nil_iff.1 hw.symm
      rw [if_pos hd]
      exact ⟨c, [], by simp, hf⟩
    · obtain ⟨d', w, hw, -⟩ := h
      cases hw

/-- **Levels that take an empty component take any component instead.** Only a `*` or a globstar can
have taken it, since an empty last level has been left out. -/
theorem cuts_single (hls : ls ≠ [[]]) (h : Cuts (Takes same) (trim ls) [[]]) (c : List Char) :
    Cuts (Takes same) (trim ls) [c] := by
  induction ls with
  | nil => exact absurd (cuts_nil.1 h) (by simp)
  | cons l ls ih =>
    cases hl : isGlobstar l with
    | false =>
      obtain ⟨d, rest, hd, hf, hr⟩ := (cuts_component hl).1 h
      obtain ⟨rfl, rfl⟩ := List.cons.inj hd
      have hnil : ls = [] := by
        by_contra hne
        exact ne_nil_of_cuts hne hr rfl
      have hne : l ≠ [] := by
        rintro rfl
        exact hls (by rw [hnil])
      exact (cuts_component hl).2 ⟨c, [], rfl, fits_of_fits_nil hne hf c, hr⟩
    | true =>
      by_cases hlast : ls = [] ∨ ls = [[]]
      · exact (cuts_last_globstar hl hlast).2 (by simp)
      · rw [not_or] at hlast
        obtain ⟨block, rest, hb, hr⟩ := (cuts_globstar hl hlast.1 hlast.2).1 h
        -- the levels after the globstar take something, so the globstar itself takes nothing
        have hrest := ne_nil_of_cuts hlast.1 hr
        obtain rfl : block = [] := by
          cases block with
          | nil => rfl
          | cons d block =>
            have hnil := (List.cons.inj hb).2
            exact absurd (List.append_eq_nil_iff.1 hnil.symm).2 hrest
        have hrest' : rest = [[]] := hb.symm
        rw [hrest'] at hr
        exact (cuts_globstar hl hlast.1 hlast.2).2 ⟨[], [c], rfl, ih hlast.2 hr⟩

/-! ### Cutting a path over levels -/

/-- On the text of a path, a globstar takes nothing, everything, or a text that ends with a
separator. -/
theorem cuts_splitOn_globstar (hl : isGlobstar l = true) (hls : ls ≠ []) (hls' : ls ≠ [[]])
    (w : List Char) :
    Cuts (Takes same) (trim (l :: ls)) (w.splitOn '/') ↔
      ∃ w₁ w₂, w = w₁ ++ w₂ ∧ (w₁ = [] ∨ w₂ = [] ∨ ∃ x, w₁ = x ++ ['/']) ∧
        Cuts (Takes same) (trim ls) (w₂.splitOn '/') := by
  rw [cuts_globstar hl hls hls']
  constructor
  · rintro ⟨block, rest, hw, hr⟩
    obtain ⟨w₁, w₂, rfl, rfl, ⟨rfl, -⟩ | ⟨x, rfl, -⟩⟩ :=
      (Path.splitOn_eq_append_iff (ne_nil_of_cuts hls hr)).1 hw
    · exact ⟨[], w₂, rfl, Or.inl rfl, hr⟩
    · exact ⟨x ++ ['/'], w₂, rfl, Or.inr (Or.inr ⟨x, rfl⟩), hr⟩
  · rintro ⟨w₁, w₂, rfl, rfl | rfl | ⟨x, rfl⟩, hr⟩
    · exact ⟨[], w₂.splitOn '/', rfl, hr⟩
    · -- the globstar has run to the end: it leaves the last component to the levels after it
      rcases List.eq_nil_or_concat (w₁.splitOn '/') with h | ⟨block, c, h⟩
      · exact absurd h (List.splitOn_ne_nil _ _)
      · rw [List.append_nil, h]
        exact ⟨block, [c], by simp, cuts_single hls' hr c⟩
    · refine ⟨x.splitOn '/', w₂.splitOn '/', ?_, hr⟩
      rw [List.append_assoc, List.singleton_append, List.splitOn_append_cons_self]

theorem cuts_splitOn_component (hl : isGlobstar l = false) (w : List Char) :
    Cuts (Takes same) (trim (l :: ls)) (w.splitOn '/') ↔
      ∃ c, ('/' ∉ c ∧ Fits same l c) ∧ (w = c ∧ ls = [] ∨
        ∃ w', w = c ++ '/' :: w' ∧ Cuts (Takes same) (trim ls) (w'.splitOn '/')) := by
  rw [cuts_component hl]
  simp only [Path.splitOn_eq_cons_iff]
  constructor
  · rintro ⟨c, rest, ⟨hc, ⟨rfl, rfl⟩ | ⟨w', rfl, rfl⟩⟩, hf, hr⟩
    · refine ⟨w, ⟨hc, hf⟩, Or.inl ⟨rfl, ?_⟩⟩
      by_contra hne
      exact ne_nil_of_cuts hne hr rfl
    · exact ⟨c, ⟨hc, hf⟩, Or.inr ⟨w', rfl, hr⟩⟩
  · rintro ⟨c, ⟨hc, hf⟩, ⟨rfl, rfl⟩ | ⟨w', rfl, hr⟩⟩
    · exact ⟨w, [], ⟨hc, Or.inl ⟨rfl, rfl⟩⟩, hf, cuts_nil.2 rfl⟩
    · exact ⟨c, _, ⟨hc, Or.inr ⟨w', rfl, rfl⟩⟩, hf, hr⟩

open Lexeme in
theorem denotes_last {f : Flags} (hf : f.multiLine = false) (hl : '/' ∉ l) :
    ∃ R, Denotes f (lexemes [l]) R ∧ ∀ u w, R u w [] ↔
      Cuts (Takes (Alike f)) (trim [l]) (w.splitOn '/') := by
  cases hglob : isGlobstar l with
  | false =>
    rw [lexemes_last hglob]
    refine ⟨_, Level.denotes hl, fun u w => ?_⟩
    rw [cuts_splitOn_component hglob]
    constructor
    · intro h
      exact ⟨w, h, Or.inl ⟨rfl, rfl⟩⟩
    · rintro ⟨c, h, ⟨rfl, -⟩ | ⟨w', -, hr⟩⟩
      · exact h
      · exact absurd (cuts_nil.1 hr) (List.splitOn_ne_nil _ _)
  | true =>
    rw [lexemes_globstar hglob]
    refine ⟨_, denotes_globstar hf, fun u w => ?_⟩
    rw [cuts_last_globstar hglob (Or.inl rfl)]
    simp

open Lexeme in
/-- **The lexemes of the levels match the paths that can be cut over the levels.** -/
theorem denotes {f : Flags} (hf : f.multiLine = false) (hls : ls ≠ [])
    (hsep : ∀ l ∈ ls, '/' ∉ l) :
    ∃ R, Denotes f (lexemes ls) R ∧ ∀ u w, R u w [] ↔
      Cuts (Takes (Alike f)) (trim ls) (w.splitOn '/') := by
  induction ls with
  | nil => exact absurd rfl hls
  | cons l ls ih =>
    obtain ⟨hl, hsep'⟩ := List.forall_mem_cons.1 hsep
    by_cases hnil : ls = []
    · rw [hnil]
      exact denotes_last hf hl
    obtain ⟨R, hR, hcuts⟩ := ih hnil hsep'
    cases hglob : isGlobstar l with
    | false =>
      rw [lexemes_component hglob hnil]
      refine ⟨_, (Level.denotes hl).append (denotes_separator.append hR), fun u w => ?_⟩
      rw [cuts_splitOn_component hglob]
      simp only [hcuts]
      constructor
      · rintro ⟨c, -, rfl, h, -, w', rfl, rfl, hr⟩
        exact ⟨c, h, Or.inr ⟨w', rfl, hr⟩⟩
      · rintro ⟨c, h, ⟨-, h'⟩ | ⟨w', rfl, hr⟩⟩
        · exact absurd h' hnil
        · exact ⟨c, '/' :: w', rfl, h, ['/'], w', rfl, rfl, hr⟩
    | true =>
      rw [lexemes_globstar hglob]
      refine ⟨_, (denotes_globstar hf).append hR, fun u w => ?_⟩
      simp only [List.append_nil, hcuts]
      by_cases hempty : ls = [[]]
      · -- nothing is left to match after the globstar, which can take all of the path
        rw [cuts_last_globstar hglob (Or.inr hempty), hempty]
        have h₀ : Cuts (Takes (Alike f)) (trim [[]]) (List.splitOn '/' []) :=
          (cuts_component rfl).2 ⟨[], [], rfl, rfl, cuts_nil.2 rfl⟩
        exact ⟨fun _ => List.splitOn_ne_nil _ _, fun _ => ⟨w, [], by simp, by simp, h₀⟩⟩
      · exact (cuts_splitOn_globstar hglob hnil hempty w).symm

end Levels

/-! ### Whole paths -/

open Level in
/-- A glob accepts the paths whose components can be cut over its levels, whatever flags leave the
pattern anchored at the ends of a path. -/
theorem Glob.exists_of_levels {o : Options} (ho : o.ReadsLevels) (hg : o.flags.global = false)
    (hm : o.flags.multiLine = false) {text : String}
    (ht : o.strict = true ∨ ¬['/', '/'] <:+: text.toList) :
    ∃ g, compile o text = .ok g ∧ ∀ path, g.accepts path = true ↔
      Cuts (Takes (Alike o.flags)) (Levels.trim (text.toList.splitOn '/'))
        (path.toList.splitOn '/') := by
  have hm' : o.flags.inlined.multiLine = false := hm
  obtain ⟨R, ⟨rs, hb, hl, hR⟩, hcuts⟩ := Levels.denotes hm' (List.splitOn_ne_nil '/' text.toList)
    fun l hl => Path.not_mem_of_mem_splitOn hl
  have hscan : (scan o text.toList).pieces =
      (Levels.lexemes (text.toList.splitOn '/')).map (Lexeme.piece o.separator) := by
    rw [Scan.scan_eq_run ho.separator]
    exact Scan.pieces_run_levels ho ht rfl
  obtain ⟨g, hc, ha⟩ := Glob.exists_of_lexemes hscan (by rwa [ho.separator]) (by decide)
    (fun r hr => (hl r hr).2) (fun r hr => (hl r hr).1) hg hm
  refine ⟨g, hc, fun path => ?_⟩
  rw [ha, hR, hcuts]
  rfl

/-- **What a glob with globstars accepts.** Where no separator can be left out, the glob compiles,
and it accepts the paths whose components can be cut over its levels: a globstar takes any
components, though at least one at the end, and any other level one component, in which a run of
`*` stands for any text. -/
theorem Glob.accepts_iff_cuts (strict : Bool) (glob : String)
    (h : strict = true ∨ ¬['/', '/'] <:+: glob.toList) :
    ∃ g, compile { globstar := true, strict, separator := .posix } glob = .ok g ∧
      ∀ path, g.accepts path = true ↔
        Cuts (Level.Takes (· = ·)) (Levels.trim (glob.toList.splitOn '/'))
          (path.toList.splitOn '/') := by
  have hsame : Level.Alike {} = (· = ·) := by
    funext c d
    exact propext ((Token.contains_letterSet rfl c d).trans eq_comm)
  rw [← hsame]
  exact Glob.exists_of_levels ⟨rfl, rfl, rfl⟩ rfl rfl h

/-- The components of `src/a/b.rs` can be cut over the levels of `**/*.rs`. -/
theorem Glob.accepts_iff_cuts_globstar :
    ¬['/', '/'] <:+: "**/*.rs".toList ∧
      ∃ g, compile { globstar := true, separator := .posix } "**/*.rs" = .ok g ∧
        g.accepts "src/a/b.rs" = true ∧
        Cuts (Level.Takes (· = ·)) ["**".toList, "*.rs".toList]
          ["src".toList, "a".toList, "b.rs".toList] := by
  have h : ¬['/', '/'] <:+: "**/*.rs".toList := by decide
  obtain ⟨g, hg, ha⟩ := Glob.accepts_iff_cuts false "**/*.rs" (Or.inr h)
  have hc : (compile { globstar := true, separator := .posix } "**/*.rs").toOption.map
      (·.accepts "src/a/b.rs") = some true := by decide +kernel
  rw [hg] at hc
  have hacc : g.accepts "src/a/b.rs" = true := Option.some.inj hc
  exact ⟨h, g, hg, hacc, (ha "src/a/b.rs").1 hacc⟩

end PathGlob
