import PathGlob.Path
import Mathlib.Data.List.Basic

/-!
# Cutting a path

* `Path.split_eq_splitOnP`: the parts of a path are those of `List.splitOnP`;
* `Path.parts_induction` and `Path.runs_induction`: induction over the parts of a text, and over its
  runs of characters;
* `Cuts takes as bs` says that a list can be cut into one block per entry of another one. Both the
  levels of a glob and the segments of a walk divide the components of a path in this way.
-/

namespace PathGlob

namespace Path

theorem split_eq_splitOnP (p : Char → Bool) (cs : List Char) : split p cs = cs.splitOnP p := by
  induction cs with
  | nil => rfl
  | cons c cs ih =>
    rw [split, ih, List.splitOnP_cons_eq_if_modifyHead]
    cases h : cs.splitOnP p with
    | nil => exact absurd h (List.splitOnP_ne_nil p cs)
    | cons w ws => rfl

theorem split_cons (p : Char → Bool) (c : Char) (cs : List Char) :
    split p (c :: cs) =
      if p c then [] :: split p cs else (split p cs).modifyHead (c :: ·) := by
  simp only [split_eq_splitOnP, List.splitOnP_cons_eq_if_modifyHead]

theorem mem_of_mem_split {p : Char → Bool} {cs l : List Char} (hl : l ∈ split p cs) {d : Char}
    (hd : d ∈ l) : d ∈ cs ∧ p d = false := by
  induction cs generalizing l with
  | nil =>
    obtain rfl := List.mem_singleton.1 hl
    cases hd
  | cons c cs ih =>
    have hskip : ∀ {l}, l ∈ split p cs → d ∈ l → d ∈ c :: cs ∧ p d = false := fun hl hd =>
      ⟨List.mem_cons_of_mem c (ih hl hd).1, (ih hl hd).2⟩
    rw [split_cons] at hl
    split at hl
    · rcases List.mem_cons.1 hl with rfl | hl
      · cases hd
      · exact hskip hl hd
    · rename_i hc
      cases hs : split p cs with
      | nil =>
        rw [hs] at hl
        cases hl
      | cons w ws =>
        rw [hs] at hl hskip
        rcases List.mem_cons.1 hl with rfl | hl
        · rcases List.mem_cons.1 hd with rfl | hd
          · exact ⟨List.mem_cons_self, Bool.not_eq_true _ ▸ hc⟩
          · exact hskip List.mem_cons_self hd
        · exact hskip (List.mem_cons_of_mem w hl) hd

/-- A text without the separator, or one such text before a separator: a text is built up from its
parts. -/
@[elab_as_elim]
theorem parts_induction {α : Type} (a : α) {P : List α → Prop} (last : ∀ l, a ∉ l → P l)
    (part : ∀ l w, a ∉ l → P w → P (l ++ a :: w)) (w : List α) : P w := by
  -- the part that has been begun comes before the text
  suffices h : ∀ l, a ∉ l → P (l ++ w) from h [] (by simp)
  induction w with
  | nil => simpa using last
  | cons c w ih =>
    intro l hl
    by_cases hc : c = a
    · subst hc
      exact part l w hl (ih [] (by simp))
    · have := ih (l ++ [c]) (by simp [hl, Ne.symm hc])
      simpa using this

/-- A text is built up from runs of the characters with a given property and from other
characters. -/
@[elab_as_elim]
theorem runs_induction (p : Char → Prop) [DecidablePred p] {P : List Char → Prop} (nil : P [])
    (char : ∀ c cs, ¬p c → P cs → P (c :: cs))
    (run : ∀ c n cs, p c → cs.head? ≠ some c → P cs → P (List.replicate (n + 1) c ++ cs))
    (l : List Char) : P l := by
  -- a run that has been begun comes before the rest of the text
  suffices h : P l ∧ ∀ c n, p c → P (List.replicate (n + 1) c ++ l) from h.1
  induction l with
  | nil => exact ⟨nil, fun c n hc => run c n [] hc (by simp) nil⟩
  | cons d cs ih =>
    have hd : P (d :: cs) := by
      by_cases hp : p d
      · exact ih.2 d 0 hp
      · exact char d cs hp ih.1
    refine ⟨hd, fun c n hc => ?_⟩
    by_cases hdc : d = c
    · subst hdc
      have h := ih.2 d (n + 1) hc
      rwa [List.replicate_succ', List.append_assoc] at h
    · exact run c n (d :: cs) hc (by simpa using hdc) hd

theorem not_mem_of_mem_splitOn {a : Char} {w l : List Char} (h : l ∈ w.splitOn a) : a ∉ l := by
  induction w using parts_induction a with
  | last l' hl =>
    rw [List.splitOn_eq_singleton hl, List.mem_singleton] at h
    rwa [h]
  | part l' w hl ih =>
    rw [List.splitOn_append_cons_self_of_not_mem hl, List.mem_cons] at h
    rcases h with rfl | h
    · exact hl
    · exact ih h

theorem splitOn_eq_cons_iff {a : Char} {w c : List Char} {rest : List (List Char)} :
    w.splitOn a = c :: rest ↔
      a ∉ c ∧ (w = c ∧ rest = [] ∨ ∃ w', w = c ++ a :: w' ∧ w'.splitOn a = rest) := by
  constructor
  · intro h
    induction w using parts_induction a with
    | last l hl =>
      rw [List.splitOn_eq_singleton hl] at h
      obtain ⟨rfl, rfl⟩ := List.cons.inj h
      exact ⟨hl, Or.inl ⟨rfl, rfl⟩⟩
    | part l w hl _ =>
      rw [List.splitOn_append_cons_self_of_not_mem hl] at h
      obtain ⟨rfl, hr⟩ := List.cons.inj h
      exact ⟨hl, Or.inr ⟨w, rfl, hr⟩⟩
  · rintro ⟨hc, ⟨rfl, rfl⟩ | ⟨w', rfl, rfl⟩⟩
    · exact List.splitOn_eq_singleton hc
    · exact List.splitOn_append_cons_self_of_not_mem hc w'

theorem splitOn_eq_append_iff {a : Char} {w : List Char} {xs ys : List (List Char)} (hy : ys ≠ []) :
    w.splitOn a = xs ++ ys ↔ ∃ w₁ w₂, w = w₁ ++ w₂ ∧ w₂.splitOn a = ys ∧
      (w₁ = [] ∧ xs = [] ∨ ∃ x, w₁ = x ++ [a] ∧ x.splitOn a = xs) := by
  constructor
  · intro h
    induction w using parts_induction a generalizing xs with
    | last l hl =>
      rw [List.splitOn_eq_singleton hl] at h
      cases xs with
      | nil => exact ⟨[], l, rfl, by rw [List.splitOn_eq_singleton hl, h]; rfl, Or.inl ⟨rfl, rfl⟩⟩
      | cons x xs =>
        obtain ⟨-, hxs⟩ := List.cons.inj h
        exact absurd (List.append_eq_nil_iff.1 hxs.symm).2 hy
    | part l w hl ih =>
      rw [List.splitOn_append_cons_self_of_not_mem hl] at h
      cases xs with
      | nil =>
        refine ⟨[], l ++ a :: w, rfl, ?_, Or.inl ⟨rfl, rfl⟩⟩
        rw [List.splitOn_append_cons_self_of_not_mem hl, h]
        rfl
      | cons x xs =>
        obtain ⟨rfl, hxs⟩ := List.cons.inj h
        obtain ⟨w₁, w₂, rfl, hw₂, ⟨rfl, rfl⟩ | ⟨x, rfl, hx⟩⟩ := ih hxs
        · exact ⟨l ++ [a], w₂, by simp, hw₂, Or.inr ⟨l, rfl, List.splitOn_eq_singleton hl⟩⟩
        · refine ⟨l ++ a :: x ++ [a], w₂, by simp, hw₂, Or.inr ⟨l ++ a :: x, rfl, ?_⟩⟩
          rw [List.splitOn_append_cons_self_of_not_mem hl, hx]
  · rintro ⟨w₁, w₂, rfl, hw₂, ⟨rfl, rfl⟩ | ⟨x, rfl, hx⟩⟩
    · exact hw₂
    · rw [List.append_assoc, List.singleton_append, List.splitOn_append_cons_self, hx, hw₂]

end Path

/-- `bs` can be cut into consecutive blocks, one for each entry of `as`, in order, such that each
entry takes its block. The entry is told whether it is the last one. -/
def Cuts {α β : Type*} (takes : Bool → α → List β → Prop) (as : List α) (bs : List β) : Prop :=
  ∃ blocks : List (List β), blocks.length = as.length ∧ blocks.flatten = bs ∧
    ∀ i a block, as[i]? = some a → blocks[i]? = some block →
      takes (i + 1 == as.length) a block

section Cuts

variable {α β : Type*} {takes : Bool → α → List β → Prop}

theorem cuts_nil {bs : List β} : Cuts takes [] bs ↔ bs = [] := by
  constructor
  · rintro ⟨blocks, hl, rfl, -⟩
    rw [List.length_eq_zero_iff.1 hl, List.flatten_nil]
  · rintro rfl
    exact ⟨[], rfl, rfl, by simp⟩

theorem cuts_cons {a : α} {as : List α} {bs : List β} :
    Cuts takes (a :: as) bs ↔
      ∃ block rest, bs = block ++ rest ∧ takes as.isEmpty a block ∧ Cuts takes as rest := by
  have hlast : (0 + 1 == (a :: as).length) = as.isEmpty := by cases as <;> rfl
  constructor
  · rintro ⟨blocks, hl, rfl, ht⟩
    cases blocks with
    | nil => cases hl
    | cons block blocks =>
      refine ⟨block, blocks.flatten, rfl, ?_, blocks, Nat.succ.inj hl, rfl,
        fun i a' block' ha hb => ?_⟩
      · have := ht 0 a block rfl rfl
        rwa [hlast] at this
      · have := ht (i + 1) a' block' (by simpa using ha) (by simpa using hb)
        simpa using this
  · rintro ⟨block, rest, rfl, h₀, blocks, hl, rfl, ht⟩
    refine ⟨block :: blocks, congrArg Nat.succ hl, rfl, fun i a' block' ha hb => ?_⟩
    cases i with
    | zero =>
      cases ha; cases hb
      rwa [hlast]
    | succ i =>
      have := ht i a' block' (by simpa using ha) (by simpa using hb)
      simpa using this

theorem cuts_singleton {a : α} {bs : List β} : Cuts takes [a] bs ↔ takes true a bs := by
  rw [cuts_cons]
  simp only [List.isEmpty_nil, cuts_nil]
  constructor
  · rintro ⟨block, rest, rfl, h, rfl⟩
    rwa [List.append_nil]
  · intro h
    exact ⟨bs, [], by simp, h, rfl⟩

theorem Cuts.ne_nil {as : List α} {bs : List β} (h : Cuts takes as bs) (ha : as ≠ [])
    (hn : ∀ a, ¬takes true a []) : bs ≠ [] := by
  induction as generalizing bs with
  | nil => exact absurd rfl ha
  | cons a as ih =>
    obtain ⟨block, rest, rfl, ht, hr⟩ := cuts_cons.1 h
    cases as with
    | nil =>
      rintro hnil
      rw [(List.append_eq_nil_iff.1 hnil).1] at ht
      exact hn a ht
    | cons a' as =>
      intro hnil
      exact ih hr (List.cons_ne_nil _ _) (List.append_eq_nil_iff.1 hnil).2

theorem Cuts.exists_takes {as : List α} {bs : List β} (h : Cuts takes as bs) {a : α}
    (ha : a ∈ as) : ∃ last block, takes last a block := by
  obtain ⟨blocks, hl, -, ht⟩ := h
  obtain ⟨i, hi, rfl⟩ := List.getElem_of_mem ha
  have hi' : i < blocks.length := hl ▸ hi
  exact ⟨_, blocks[i], ht i as[i] blocks[i] (List.getElem?_eq_getElem hi)
    (List.getElem?_eq_getElem hi')⟩

end Cuts

end PathGlob
