import PathGlob.Proofs.Regex.Search
import Mathlib.Computability.Language
import Mathlib.Order.CompletePartialOrder

/-!
# What a regex matches between two parts of a text

`Regex.Spans` speaks of positions. `Regex.Matches r u w v` says the same of the texts around them:
`r` matches the part `w` of the text `u ++ w ++ v`. A regex without edges and lookaheads does not
look at `u` and `v`, and then its meaning is a language (`Regex.language`).

* `Regex.spans_iff_matches` ties `Matches` to `Spans`;
* `Regex.matches_iff_mem_language` ties `Matches` to `language`.
-/

namespace PathGlob

/-- The place between `u` and `v` is an edge of the given kind. -/
def Edge.Between (u v : List Char) : Edge → Prop
  | textStart => u = []
  | textEnd => v = []
  | lineStart => u = [] ∨ u.getLast? = some '\n'
  | lineEnd => v = [] ∨ v.head? = some '\n'

namespace Regex

/-- `w` is cut into `n` parts, each of which has the property `R` at its place. -/
def Repeats (R : List Char → List Char → List Char → Prop) :
    Nat → List Char → List Char → List Char → Prop
  | 0, _, w, _ => w = []
  | n + 1, u, w, v => ∃ w₁ w₂, w = w₁ ++ w₂ ∧ R u w₁ (w₂ ++ v) ∧ Repeats R n (u ++ w₁) w₂ v

/-- The regex matches `w` after `u` and before `v`. -/
def Matches : Regex → List Char → List Char → List Char → Prop
  | empty, _, w, _ => w = []
  | set s, _, w, _ => ∃ c, w = [c] ∧ s.contains c = true
  | edge e, u, w, v => w = [] ∧ e.Between u v
  | group r, u, w, v => r.Matches u w v
  | seq a b, u, w, v => ∃ w₁ w₂, w = w₁ ++ w₂ ∧ a.Matches u w₁ (w₂ ++ v) ∧ b.Matches (u ++ w₁) w₂ v
  | alt a b, u, w, v => a.Matches u w v ∨ b.Matches u w v
  | .times lo hi _ r, u, w, v =>
    ∃ n, lo ≤ n ∧ (∀ h, hi = some h → n ≤ h) ∧ Repeats r.Matches n u w v
  | notAhead r, u, w, v => w = [] ∧ ¬ ∃ v₁ v₂, v = v₁ ++ v₂ ∧ r.Matches u v₁ v₂

/-! ### Positions and parts -/

theorem exists_part {u w : List Char} {m : Nat} (hu : u.length ≤ m) (hw : m ≤ u.length + w.length) :
    ∃ w₁ w₂, w = w₁ ++ w₂ ∧ m = u.length + w₁.length := by
  refine ⟨w.take (m - u.length), w.drop (m - u.length), (List.take_append_drop _ _).symm, ?_⟩
  rw [List.length_take]
  omega

theorem steps_iff_repeats {r : Regex} (hr : ∀ u w v,
    r.Spans (u ++ w ++ v) u.length (u.length + w.length) ↔ r.Matches u w v) (n : Nat)
    (u w v : List Char) :
    Steps (r.Spans (u ++ w ++ v)) n u.length (u.length + w.length) ↔ Repeats r.Matches n u w v := by
  induction n generalizing u w with
  | zero => simp [Steps, Repeats]
  | succ n ih =>
    -- the same text, bracketed around the first part and around the others
    have key : ∀ w₁ w₂, w = w₁ ++ w₂ →
        (Steps (r.Spans (u ++ w ++ v)) n (u.length + w₁.length) (u.length + w.length) ↔
          Repeats r.Matches n (u ++ w₁) w₂ v) := by
      rintro w₁ w₂ rfl
      rw [← ih (u ++ w₁) w₂]
      simp only [List.append_assoc, List.length_append, Nat.add_assoc]
    have key' : ∀ w₁ w₂, w = w₁ ++ w₂ →
        (r.Spans (u ++ w ++ v) u.length (u.length + w₁.length) ↔ r.Matches u w₁ (w₂ ++ v)) := by
      rintro w₁ w₂ rfl
      rw [← hr u w₁]
      simp only [List.append_assoc]
    constructor
    · rintro ⟨m, hm, hn⟩
      obtain ⟨w₁, w₂, hw, rfl⟩ := exists_part (le_of_spans hm) (Steps.le le_of_spans hn)
      exact ⟨w₁, w₂, hw, (key' w₁ w₂ hw).1 hm, (key w₁ w₂ hw).1 hn⟩
    · rintro ⟨w₁, w₂, hw, hm, hn⟩
      exact ⟨u.length + w₁.length, (key' w₁ w₂ hw).2 hm, (key w₁ w₂ hw).2 hn⟩

theorem edge_at_iff_between (u v : List Char) (e : Edge) :
    e.At (u ++ v) u.length ↔ e.Between u v := by
  cases e with
  | textStart => simp [Edge.At, Edge.Between]
  | textEnd => simp [Edge.At, Edge.Between]
  | lineStart =>
    simp only [Edge.At, Edge.Between, List.length_eq_zero_iff]
    refine or_congr_right ⟨?_, fun h => ?_⟩
    · rintro ⟨q, hq, hc⟩
      rw [List.getLast?_eq_getElem?, hq, Nat.add_sub_cancel, ← hc,
        List.getElem?_append_left (by omega)]
    · have hne : u ≠ [] := by rintro rfl; simp at h
      have hpos := List.length_pos_iff.2 hne
      refine ⟨u.length - 1, by omega, ?_⟩
      rw [List.getElem?_append_left (by omega), ← List.getLast?_eq_getElem?, h]
  | lineEnd =>
    simp only [Edge.At, Edge.Between, List.length_append, Nat.left_eq_add,
      List.length_eq_zero_iff, List.getElem?_append_right (Nat.le_refl _), Nat.sub_self,
      List.head?_eq_getElem?]

/-- **`Matches` says of texts what `Spans` says of positions.** -/
theorem spans_iff_matches (r : Regex) (u w v : List Char) :
    r.Spans (u ++ w ++ v) u.length (u.length + w.length) ↔ r.Matches u w v := by
  induction r generalizing u w v with
  | empty => simp [Spans, Matches]
  | set s =>
    simp only [Spans, Matches, Nat.add_left_cancel_iff, List.length_eq_one_iff]
    constructor
    · rintro ⟨⟨d, rfl⟩, c, hc, hs⟩
      simp only [List.append_assoc, List.getElem?_append_right (Nat.le_refl _), Nat.sub_self,
        List.cons_append, List.getElem?_cons_zero, Option.some.injEq] at hc
      exact ⟨c, by rw [hc], hs⟩
    · rintro ⟨c, rfl, hs⟩
      exact ⟨⟨c, rfl⟩, c, by simp, hs⟩
  | edge e =>
    simp only [Spans, Matches, Nat.left_eq_add, List.length_eq_zero_iff]
    refine and_congr_right ?_
    rintro rfl
    rw [List.append_nil, edge_at_iff_between]
  | group r ih => exact ih u w v
  | seq a b iha ihb =>
    have key : ∀ w₁ w₂, w = w₁ ++ w₂ →
        (a.Spans (u ++ w ++ v) u.length (u.length + w₁.length) ∧
          b.Spans (u ++ w ++ v) (u.length + w₁.length) (u.length + w.length) ↔
        a.Matches u w₁ (w₂ ++ v) ∧ b.Matches (u ++ w₁) w₂ v) := by
      rintro w₁ w₂ rfl
      rw [← iha, ← ihb]
      simp only [List.append_assoc, List.length_append, Nat.add_assoc]
    constructor
    · rintro ⟨m, ha, hb⟩
      obtain ⟨w₁, w₂, hw, rfl⟩ := exists_part (le_of_spans ha) (le_of_spans hb)
      exact ⟨w₁, w₂, hw, (key w₁ w₂ hw).1 ⟨ha, hb⟩⟩
    · rintro ⟨w₁, w₂, hw, h⟩
      exact ⟨u.length + w₁.length, (key w₁ w₂ hw).2 h⟩
  | alt a b iha ihb => exact or_congr (iha u w v) (ihb u w v)
  | times lo hi greedy r ih =>
    simp only [Spans, Matches, steps_iff_repeats ih]
  | notAhead r ih =>
    simp only [Spans, Matches, Nat.left_eq_add, List.length_eq_zero_iff]
    refine and_congr_right ?_
    rintro rfl
    -- what must not follow may end at any place up to the end of the text
    refine not_congr ⟨?_, ?_⟩
    · rintro ⟨m, hm⟩
      have hle := le_length_of_spans hm (by simp)
      rw [List.append_nil] at hm hle
      rw [List.length_append] at hle
      obtain ⟨v₁, v₂, rfl, rfl⟩ := exists_part (le_of_spans hm) hle
      exact ⟨v₁, v₂, rfl, (ih u v₁ v₂).1 (by rwa [List.append_assoc])⟩
    · rintro ⟨v₁, v₂, rfl, h⟩
      exact ⟨u.length + v₁.length, by simpa using (ih u v₁ v₂).2 h⟩

theorem matchesIn_iff_matches (t : List Char) (r : Regex) :
    r.MatchesIn t ↔ ∃ u w v, t = u ++ w ++ v ∧ r.Matches u w v := by
  constructor
  · rintro ⟨p, q, hp, h⟩
    have hq := le_length_of_spans h hp
    have hpq := le_of_spans h
    -- the text before, between and after the two positions
    have ht : t = t.take p ++ (t.drop p).take (q - p) ++ t.drop q := by
      have hd : t.drop q = (t.drop p).drop (q - p) := by
        rw [List.drop_drop, Nat.add_sub_cancel' hpq]
      rw [hd, List.append_assoc, List.take_append_drop, List.take_append_drop]
    refine ⟨_, _, _, ht, (spans_iff_matches r _ _ _).1 ?_⟩
    rw [← ht, List.length_take, List.length_take, List.length_drop, Nat.min_eq_left hp,
      Nat.min_eq_left (by omega), Nat.add_sub_cancel' hpq]
    exact h
  · rintro ⟨u, w, v, rfl, h⟩
    exact ⟨u.length, u.length + w.length, by simp, (spans_iff_matches r u w v).2 h⟩

/-! ### Rows and choices -/

@[simp] theorem matches_group (r : Regex) (u w v : List Char) :
    (group r).Matches u w v ↔ r.Matches u w v := Iff.rfl

theorem matches_seqs_cons (r : Regex) (rs : List Regex) (u w v : List Char) :
    (seqs (r :: rs)).Matches u w v ↔
      ∃ w₁ w₂, w = w₁ ++ w₂ ∧ r.Matches u w₁ (w₂ ++ v) ∧ (seqs rs).Matches (u ++ w₁) w₂ v := by
  cases rs with
  | nil =>
    constructor
    · intro h; exact ⟨w, [], by simp, h, rfl⟩
    · rintro ⟨w₁, w₂, rfl, h, rfl⟩
      simpa [seqs] using h
  | cons r' rs => rfl

theorem matches_seqs_append (rs rs' : List Regex) (u w v : List Char) :
    (seqs (rs ++ rs')).Matches u w v ↔
      ∃ w₁ w₂, w = w₁ ++ w₂ ∧ (seqs rs).Matches u w₁ (w₂ ++ v) ∧
        (seqs rs').Matches (u ++ w₁) w₂ v := by
  induction rs generalizing u w with
  | nil =>
    constructor
    · intro h; exact ⟨[], w, rfl, rfl, by simpa using h⟩
    · rintro ⟨w₁, w₂, rfl, rfl, h⟩; simpa using h
  | cons r rs ih =>
    simp only [List.cons_append, matches_seqs_cons, ih]
    constructor
    · rintro ⟨w₁, -, rfl, hr, w₂, w₃, rfl, hrs, hrs'⟩
      exact ⟨w₁ ++ w₂, w₃, by simp, ⟨w₁, w₂, rfl, by simpa using hr, hrs⟩, by simpa using hrs'⟩
    · rintro ⟨-, w₃, rfl, ⟨w₁, w₂, rfl, hr, hrs⟩, hrs'⟩
      exact ⟨w₁, w₂ ++ w₃, by simp, by simpa using hr, w₂, w₃, rfl, hrs, by simpa using hrs'⟩

/-- A row between two anchors matches some part of a text exactly if it matches all of it. -/
theorem exists_matches_anchored (rs : List Regex) (t : List Char) :
    (∃ u w v, t = u ++ w ++ v ∧
      (seqs (edge .textStart :: rs ++ [edge .textEnd])).Matches u w v) ↔
      (seqs rs).Matches [] t [] := by
  simp only [List.cons_append, matches_seqs_cons, matches_seqs_append]
  constructor
  · -- the edges leave nothing before and nothing after the match
    rintro ⟨u, w, v, rfl, w₁, w₂, rfl, ⟨rfl, rfl⟩, w₃, w₄, rfl, h, w₅, w₆, rfl, ⟨rfl, he⟩, rfl⟩
    have hv : v = [] := by simpa [Edge.Between] using he
    simpa [hv] using h
  · intro h
    exact ⟨[], t, [], by simp, [], t, rfl, ⟨rfl, rfl⟩, t, [], by simp, by simpa using h, [], [],
      rfl, ⟨rfl, rfl⟩, rfl⟩

theorem matches_times_set (a : CharSet) (greedy : Bool) (u w v : List Char) :
    (Regex.times 0 none greedy (set a)).Matches u w v ↔ ∀ c ∈ w, a.contains c = true := by
  constructor
  · rintro ⟨n, -, -, h⟩
    induction n generalizing u w with
    | zero =>
      obtain rfl : w = [] := h
      simp
    | succ n ih =>
      obtain ⟨w₁, w₂, rfl, ⟨c, rfl, hc⟩, hn⟩ := h
      exact List.forall_mem_cons.2 ⟨hc, ih _ _ hn⟩
  · intro h
    refine ⟨w.length, Nat.zero_le _, by simp, ?_⟩
    induction w generalizing u with
    | nil => rfl
    | cons c w ih =>
      obtain ⟨hc, hw⟩ := List.forall_mem_cons.1 h
      exact ⟨[c], w, rfl, ⟨c, rfl, hc⟩, ih _ hw⟩

/-! ### Languages -/

/-- The regex has no edge and no lookahead. -/
def Free : Regex → Prop
  | empty | set _ => True
  | edge _ | notAhead _ => False
  | group r => r.Free
  | seq a b => a.Free ∧ b.Free
  | alt a b => a.Free ∧ b.Free
  | .times _ _ _ r => r.Free

/-- The texts that a regex matches wherever they stand; edges and lookaheads count as empty. -/
def language : Regex → Language Char
  | empty | edge _ | notAhead _ => 1
  | set s => {w | ∃ c, w = [c] ∧ s.contains c = true}
  | group r => r.language
  | seq a b => a.language * b.language
  | alt a b => a.language + b.language
  | .times lo hi _ r => ⨆ n : {n // lo ≤ n ∧ ∀ h, hi = some h → n ≤ h}, r.language ^ n.1

theorem repeats_iff_mem_pow {R : List Char → List Char → List Char → Prop} {l : Language Char}
    (h : ∀ u w v, R u w v ↔ w ∈ l) (n : Nat) (u w v : List Char) :
    Repeats R n u w v ↔ w ∈ l ^ n := by
  induction n generalizing u w with
  | zero => rfl
  | succ n ih =>
    rw [pow_succ', Language.mem_mul]
    simp only [Repeats, h, ih]
    constructor
    · rintro ⟨w₁, w₂, rfl, h₁, h₂⟩; exact ⟨w₁, h₁, w₂, h₂, rfl⟩
    · rintro ⟨w₁, h₁, w₂, h₂, rfl⟩; exact ⟨w₁, w₂, rfl, h₁, h₂⟩

/-- **A regex without edges and lookaheads matches its language, wherever it stands.** -/
theorem matches_iff_mem_language {r : Regex} (hr : r.Free) (u w v : List Char) :
    r.Matches u w v ↔ w ∈ r.language := by
  induction r generalizing u w v with
  | empty => rfl
  | set s => rfl
  | edge e => exact hr.elim
  | group r ih => exact ih hr u w v
  | seq a b iha ihb =>
    rw [language, Language.mem_mul]
    simp only [Matches, iha hr.1, ihb hr.2]
    constructor
    · rintro ⟨w₁, w₂, rfl, h₁, h₂⟩; exact ⟨w₁, h₁, w₂, h₂, rfl⟩
    · rintro ⟨w₁, h₁, w₂, h₂, rfl⟩; exact ⟨w₁, w₂, rfl, h₁, h₂⟩
  | alt a b iha ihb =>
    rw [language, Language.mem_add, ← iha hr.1 u w v, ← ihb hr.2 u w v]
    rfl
  | times lo hi greedy r ih =>
    rw [language, Language.mem_iSup]
    simp only [Matches, repeats_iff_mem_pow (fun u w v => ih hr u w v), Subtype.exists]
    exact ⟨fun ⟨n, h₁, h₂, h⟩ => ⟨n, ⟨h₁, h₂⟩, h⟩, fun ⟨n, ⟨h₁, h₂⟩, h⟩ => ⟨n, h₁, h₂, h⟩⟩
  | notAhead r _ => exact hr.elim

theorem language_seqs_cons (r : Regex) (rs : List Regex) :
    (seqs (r :: rs)).language = r.language * (seqs rs).language := by
  cases rs with
  | nil => exact (mul_one _).symm
  | cons r' rs => rfl

theorem language_alts_cons (r : Regex) {rs : List Regex} (h : rs ≠ []) :
    (alts (r :: rs)).language = r.language + (alts rs).language := by
  cases rs with
  | nil => exact absurd rfl h
  | cons r' rs => rfl

/-! ### Properties of all parts -/

/-- A property that a row has if both of its parts have it. -/
theorem seqs_iff_forall {P : Regex → Prop} (h₀ : P empty) (h : ∀ a b, P (seq a b) ↔ P a ∧ P b)
    {rs : List Regex} : P (seqs rs) ↔ ∀ r ∈ rs, P r := by
  induction rs with
  | nil => simp [seqs, h₀]
  | cons r rs ih =>
    cases rs with
    | nil => simp [seqs]
    | cons r' rs =>
      rw [List.forall_mem_cons, ← ih]
      exact h r _

/-- A property that a choice has if both of its branches have it. -/
theorem alts_iff_forall {P : Regex → Prop} (h₀ : P empty) (h : ∀ a b, P (alt a b) ↔ P a ∧ P b)
    {rs : List Regex} : P (alts rs) ↔ ∀ r ∈ rs, P r := by
  induction rs with
  | nil => simp [alts, h₀]
  | cons r rs ih =>
    cases rs with
    | nil => simp [alts]
    | cons r' rs =>
      rw [List.forall_mem_cons, ← ih]
      exact h r _

theorem free_seqs {rs : List Regex} : (seqs rs).Free ↔ ∀ r ∈ rs, r.Free :=
  seqs_iff_forall trivial fun _ _ => Iff.rfl

theorem free_alts {rs : List Regex} : (alts rs).Free ↔ ∀ r ∈ rs, r.Free :=
  alts_iff_forall trivial fun _ _ => Iff.rfl

theorem proper_seqs {rs : List Regex} : (seqs rs).Proper ↔ ∀ r ∈ rs, r.Proper :=
  seqs_iff_forall trivial fun _ _ => Iff.rfl

theorem proper_alts {rs : List Regex} : (alts rs).Proper ↔ ∀ r ∈ rs, r.Proper :=
  alts_iff_forall trivial fun _ _ => Iff.rfl

theorem looksAhead_seqs {rs : List Regex} :
    (seqs rs).looksAhead = false ↔ ∀ r ∈ rs, r.looksAhead = false :=
  seqs_iff_forall (P := fun r => r.looksAhead = false) rfl fun _ _ => by simp [looksAhead]

theorem looksAhead_anchored {rs : List Regex} (h : ∀ r ∈ rs, r.looksAhead = false) :
    (seqs (edge .textStart :: rs ++ [edge .textEnd])).looksAhead = false :=
  looksAhead_seqs.2 <| List.forall_mem_append.2
    ⟨List.forall_mem_cons.2 ⟨rfl, h⟩, List.forall_mem_singleton.2 rfl⟩

theorem looksAhead_eq_false_of_free {r : Regex} (h : r.Free) : r.looksAhead = false := by
  induction r with
  | empty | set _ => rfl
  | edge _ | notAhead _ _ => exact h.elim
  | group r ih => exact ih h
  | seq a b iha ihb => simp [looksAhead, iha h.1, ihb h.2]
  | alt a b iha ihb => simp [looksAhead, iha h.1, ihb h.2]
  | times lo hi greedy r ih => exact ih h

end Regex

end PathGlob
