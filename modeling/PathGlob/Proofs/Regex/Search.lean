import PathGlob.Regex.Search
import PathGlob.Regex.Language
import Mathlib.Data.Finset.Card
import Mathlib.Data.Finset.Range
import Mathlib.Data.Nat.Bitwise

/-!
# The search for a regex is exact

`Regex.matchesIn` computes with sets of positions what `Regex.MatchesIn` says of pairs of positions.

* `Positions.Traces n R step` says that `step` sends a set of positions to the set of all positions
  that `R` relates to one of them;
* `Positions.Traces.testBit_closure` is the fact behind unbounded repetition: the rounds of
  `Positions.closure` are enough to find everything;
* `Regex.matchesIn_iff` ties the two together, for every regex whose repetitions have bounds in
  order (`Regex.Proper`).
-/

namespace PathGlob

namespace Regex

/-- The bounds of all repetitions are in order. -/
def Proper : Regex → Prop
  | empty | set _ | edge _ => True
  | group r => r.Proper
  | seq a b => a.Proper ∧ b.Proper
  | alt a b => a.Proper ∧ b.Proper
  | .times lo hi _ r => (∀ h, hi = some h → lo ≤ h) ∧ r.Proper
  | notAhead r => r.Proper

end Regex

theorem Steps.add {R : Nat → Nat → Prop} {m n p q : Nat} :
    Steps R (m + n) p q ↔ ∃ x, Steps R m p x ∧ Steps R n x q := by
  induction m generalizing p with
  | zero => simp [Steps]
  | succ m ih =>
    rw [Nat.add_right_comm]
    simp only [Steps, ih]
    constructor
    · rintro ⟨y, hy, x, hx, hq⟩; exact ⟨x, ⟨y, hy, hx⟩, hq⟩
    · rintro ⟨x, ⟨y, hy, hx⟩, hq⟩; exact ⟨y, hy, x, hx, hq⟩

theorem Steps.of_closed {R : Nat → Nat → Prop} {P : Nat → Prop} (hP : ∀ p q, R p q → P q → P p)
    {n p q : Nat} (h : Steps R n p q) (hq : P q) : P p := by
  induction n generalizing p with
  | zero => exact h ▸ hq
  | succ n ih =>
    obtain ⟨m, hm, hn⟩ := h
    exact hP p m hm (ih hn)

theorem Steps.le {R : Nat → Nat → Prop} (hR : ∀ {p q}, R p q → p ≤ q) {n p q : Nat}
    (h : Steps R n p q) : p ≤ q := by
  induction n generalizing p with
  | zero => exact Nat.le_of_eq h
  | succ n ih =>
    obtain ⟨m, hm, hq⟩ := h
    exact Nat.le_trans (hR hm) (ih hq)

theorem Steps.bounded {R : Nat → Nat → Prop} {b : Nat} (hR : ∀ {p q}, R p q → p ≤ b → q ≤ b)
    {n p q : Nat} (h : Steps R n p q) (hp : p ≤ b) : q ≤ b := by
  induction n generalizing p with
  | zero => exact h ▸ hp
  | succ n ih =>
    obtain ⟨m, hm, hq⟩ := h
    exact ih hq (hR hm hp)

namespace Positions

/-- All positions of the set are at most `n`. -/
def Below (n : Nat) (k : Positions) : Prop := ∀ p, k.testBit p = true → p ≤ n

theorem below_upTo (n : Nat) : Below n (upTo n) := fun p h => by simpa using h

/-- `step` sends a set of positions up to `n` to the set of those that `R` relates to one of
them, and `R` never goes back. -/
structure Traces (n : Nat) (R : Nat → Nat → Prop) (step : Positions → Positions) : Prop where
  testBit_step : ∀ {k : Positions}, Below n k → ∀ p,
    (step k).testBit p = true ↔ ∃ q, R p q ∧ k.testBit q = true
  le : ∀ {p q}, R p q → p ≤ q

namespace Traces

variable {n : Nat} {R : Nat → Nat → Prop} {step : Positions → Positions}

theorem below_step (h : Traces n R step) {k : Positions} (hk : Below n k) : Below n (step k) := by
  intro p hp
  obtain ⟨q, hR, hq⟩ := (h.testBit_step hk p).1 hp
  exact Nat.le_trans (h.le hR) (hk q hq)

theorem testBit_after (h : Traces n R step) {k : Positions} (hk : Below n k) (m : Nat) :
    Below n (after step m k) ∧ ∀ p,
      (after step m k).testBit p = true ↔ ∃ q, Steps R m p q ∧ k.testBit q = true := by
  induction m with
  | zero => exact ⟨hk, fun p => by simp [after, Steps]⟩
  | succ m ih =>
    refine ⟨h.below_step ih.1, fun p => ?_⟩
    rw [after, h.testBit_step ih.1]
    simp only [ih.2, Steps]
    constructor
    · rintro ⟨x, hx, q, hq, hk⟩; exact ⟨q, ⟨x, hx, hq⟩, hk⟩
    · rintro ⟨q, ⟨x, hx, hq⟩, hk⟩; exact ⟨x, hx, q, hq, hk⟩

theorem testBit_within (h : Traces n R step) {k : Positions} (hk : Below n k) (m : Nat) :
    Below n (within step m k) ∧ ∀ p, (within step m k).testBit p = true ↔
      ∃ j, j ≤ m ∧ ∃ q, Steps R j p q ∧ k.testBit q = true := by
  induction m with
  | zero => exact ⟨hk, fun p => by simp [within, Steps]⟩
  | succ m ih =>
    have hbit : ∀ p, (within step (m + 1) k).testBit p = true ↔
        ∃ j, j ≤ m + 1 ∧ ∃ q, Steps R j p q ∧ k.testBit q = true := by
      intro p
      -- no step, or one step to where at most `m` are left
      rw [within, Nat.testBit_or, Bool.or_eq_true, h.testBit_step ih.1]
      simp only [ih.2]
      constructor
      · rintro (hp | ⟨x, hx, j, hj, q, hq, hkq⟩)
        · exact ⟨0, Nat.zero_le _, p, rfl, hp⟩
        · exact ⟨j + 1, Nat.succ_le_succ hj, q, ⟨x, hx, hq⟩, hkq⟩
      · rintro ⟨j, hj, q, hq, hkq⟩
        cases j with
        | zero => cases hq; exact Or.inl hkq
        | succ j =>
          obtain ⟨x, hx, hq⟩ := hq
          exact Or.inr ⟨x, hx, j, Nat.le_of_succ_le_succ hj, q, hq, hkq⟩
    refine ⟨fun p hp => ?_, hbit⟩
    obtain ⟨j, -, q, hq, hkq⟩ := (hbit p).1 hp
    exact Nat.le_trans (Steps.le h.le hq) (hk q hkq)

/-! ### Closure -/

/-- The positions up to `n` that a set lacks. -/
def lacks (n : Nat) (k : Positions) : Finset Nat :=
  (Finset.range (n + 1)).filter fun p => k.testBit p = false

theorem lacks_lt {seen new : Positions} {p : Nat} (hnew : Below n new)
    (hp : new.testBit p = true) (hs : seen.testBit p = false) :
    (lacks n (seen ||| new)).card < (lacks n seen).card := by
  apply Finset.card_lt_card
  refine Finset.ssubset_iff_of_subset (fun q hq => ?_) |>.2 ⟨p, ?_, ?_⟩
  · simp only [lacks, Finset.mem_filter, Nat.testBit_or, Bool.or_eq_false_iff] at hq ⊢
    exact ⟨hq.1, hq.2.1⟩
  · simp only [lacks, Finset.mem_filter, Finset.mem_range]
    exact ⟨Nat.lt_succ_of_le (hnew p hp), hs⟩
  · simp [lacks, Nat.testBit_or, hp]

theorem testBit_of_lacks_eq_zero {k : Positions} (h : (lacks n k).card = 0) {q : Nat}
    (hq : q ≤ n) : k.testBit q = true := by
  by_contra hne
  have hmem : q ∈ lacks n k := by
    simp only [lacks, Finset.mem_filter, Finset.mem_range]
    exact ⟨Nat.lt_succ_of_le hq, by simpa using hne⟩
  rw [Finset.card_eq_zero.1 h] at hmem
  exact Finset.notMem_empty q hmem

/-- The invariant of the worklist: what leads to a position of `seen` is in `seen` too, unless that
position is still `fresh`. -/
structure Worklist (n : Nat) (R : Nat → Nat → Prop) (seen fresh : Positions) : Prop where
  below : Below n seen
  mem_seen : ∀ p, fresh.testBit p = true → seen.testBit p = true
  done : ∀ p q, R p q → seen.testBit q = true → fresh.testBit q = false → seen.testBit p = true

namespace Worklist

variable {seen fresh : Positions}

theorem below_fresh (hw : Worklist n R seen fresh) : Below n fresh :=
  fun q hq => hw.below q (hw.mem_seen q hq)

theorem closed (hw : Worklist n R seen fresh) (h : Traces n R step)
    (hnew : diff (step fresh) seen = 0) (p q : Nat) (hR : R p q) (hq : seen.testBit q = true) :
    seen.testBit p = true := by
  cases hf : fresh.testBit q
  · exact hw.done p q hR hq hf
  · have hp := (h.testBit_step hw.below_fresh p).2 ⟨q, hR, hf⟩
    by_contra hs
    have hbit : (diff (step fresh) seen).testBit p = true := by
      simpa [hp] using hs
    rw [hnew, Nat.zero_testBit] at hbit
    exact Bool.false_ne_true hbit

theorem below_new (hw : Worklist n R seen fresh) (h : Traces n R step) :
    Below n (diff (step fresh) seen) := by
  intro q hq
  rw [testBit_diff, Bool.and_eq_true] at hq
  exact h.below_step hw.below_fresh q hq.1

theorem next (hw : Worklist n R seen fresh) (h : Traces n R step) :
    Worklist n R (seen ||| diff (step fresh) seen) (diff (step fresh) seen) where
  below := by
    intro q hq
    rw [Nat.testBit_or, Bool.or_eq_true] at hq
    exact hq.elim (hw.below q) (hw.below_new h q)
  mem_seen := by
    intro q hq
    simp [Nat.testBit_or, hq]
  done := by
    intro p q hR hq hf
    rw [Nat.testBit_or, Bool.or_eq_true] at hq ⊢
    have hs : seen.testBit q = true := by
      rcases hq with hq | hq
      · exact hq
      · rw [hf] at hq; exact absurd hq Bool.false_ne_true
    -- a position before one that was fresh has been added in this round
    cases hfq : fresh.testBit q
    · exact Or.inl (hw.done p q hR hs hfq)
    · have hp := (h.testBit_step hw.below_fresh p).2 ⟨q, hR, hfq⟩
      cases hsp : seen.testBit p
      · exact Or.inr (by simp [hp, hsp])
      · exact Or.inl rfl

/-- What one round adds leads to `seen`. -/
theorem exists_steps_next (hw : Worklist n R seen fresh) (h : Traces n R step) {p : Nat} :
    (∃ j q, Steps R j p q ∧ (seen ||| diff (step fresh) seen).testBit q = true) ↔
      ∃ j q, Steps R j p q ∧ seen.testBit q = true := by
  constructor
  · rintro ⟨j, q, hq, hs⟩
    rw [Nat.testBit_or, Bool.or_eq_true] at hs
    rcases hs with hs | hs
    · exact ⟨j, q, hq, hs⟩
    · rw [testBit_diff, Bool.and_eq_true] at hs
      obtain ⟨y, hy, hfy⟩ := (h.testBit_step hw.below_fresh q).1 hs.1
      exact ⟨j + 1, y, Steps.add.2 ⟨q, hq, y, hy, rfl⟩, hw.mem_seen y hfy⟩
  · rintro ⟨j, q, hq, hs⟩
    exact ⟨j, q, hq, by simp [hs]⟩

/-- The rounds find all positions from which `R` leads to `seen`, if there is one round for each
position that `seen` lacks. -/
theorem testBit_closureFrom (hw : Worklist n R seen fresh) (h : Traces n R step) (fuel : Nat)
    (hfuel : (lacks n seen).card ≤ fuel) (p : Nat) :
    (closureFrom step fuel seen fresh).testBit p = true ↔
      ∃ j q, Steps R j p q ∧ seen.testBit q = true := by
  induction fuel generalizing seen fresh with
  | zero =>
    -- nothing is lacking, so every position up to `n` is in `seen` already
    constructor
    · intro hp; exact ⟨0, p, rfl, hp⟩
    · rintro ⟨j, q, hq, hs⟩
      exact testBit_of_lacks_eq_zero (Nat.le_zero.1 hfuel)
        (Nat.le_trans (Steps.le h.le hq) (hw.below q hs))
  | succ fuel ih =>
    rw [closureFrom]
    split
    · rename_i hnew
      -- a round without anything new: what `seen` has is all there is
      constructor
      · intro hp; exact ⟨0, p, rfl, hp⟩
      · rintro ⟨j, q, hq, hs⟩
        exact Steps.of_closed (hw.closed h hnew) hq hs
    · rename_i hnew
      -- a new position was lacking, so the rounds that are left still suffice
      obtain ⟨x, hx⟩ := Nat.exists_testBit_of_ne_zero hnew
      have hx' : seen.testBit x = false := by
        rw [testBit_diff, Bool.and_eq_true] at hx
        simpa using hx.2
      have hlt := lacks_lt (hw.below_new h) hx hx'
      rw [ih (hw.next h) (by omega), hw.exists_steps_next h]

end Worklist

theorem testBit_closure (h : Traces n R step) {k : Positions} (hk : Below n k) (p : Nat) :
    (closure step n k).testBit p = true ↔ ∃ j q, Steps R j p q ∧ k.testBit q = true := by
  have hw : Worklist n R k k :=
    ⟨hk, fun _ hp => hp, fun _ _ _ hq hf => by simp [hq] at hf⟩
  exact hw.testBit_closureFrom h (n + 1) ((Finset.card_filter_le _ _).trans (by simp)) p

theorem below_closure (h : Traces n R step) {k : Positions} (hk : Below n k) :
    Below n (closure step n k) := by
  intro p hp
  obtain ⟨j, q, hq, hkq⟩ := (h.testBit_closure hk p).1 hp
  exact Nat.le_trans (Steps.le h.le hq) (hk q hkq)

/-! ### Repetition -/

theorem testBit_atLeast (h : Traces n R step) {k : Positions} (hk : Below n k) (lo p : Nat) :
    (after step lo (closure step n k)).testBit p = true ↔
      ∃ m, lo ≤ m ∧ ∃ q, Steps R m p q ∧ k.testBit q = true := by
  simp only [(h.testBit_after (h.below_closure hk) lo).2, h.testBit_closure hk]
  constructor
  · rintro ⟨x, hx, j, q, hq, hkq⟩
    exact ⟨lo + j, Nat.le_add_right lo j, q, Steps.add.2 ⟨x, hx, hq⟩, hkq⟩
  · rintro ⟨m, hm, q, hq, hkq⟩
    obtain ⟨j, rfl⟩ := Nat.exists_eq_add_of_le hm
    obtain ⟨x, hx, hq⟩ := Steps.add.1 hq
    exact ⟨x, hx, j, q, hq, hkq⟩

theorem testBit_between (h : Traces n R step) {k : Positions} (hk : Below n k) {lo hi : Nat}
    (hle : lo ≤ hi) (p : Nat) :
    (after step lo (within step (hi - lo) k)).testBit p = true ↔
      ∃ m, lo ≤ m ∧ m ≤ hi ∧ ∃ q, Steps R m p q ∧ k.testBit q = true := by
  have hw := h.testBit_within hk (hi - lo)
  simp only [(h.testBit_after hw.1 lo).2, hw.2]
  constructor
  · rintro ⟨x, hx, j, hj, q, hq, hkq⟩
    exact ⟨lo + j, Nat.le_add_right lo j, by omega, q, Steps.add.2 ⟨x, hx, hq⟩, hkq⟩
  · rintro ⟨m, hm, hm', q, hq, hkq⟩
    obtain ⟨j, rfl⟩ := Nat.exists_eq_add_of_le hm
    obtain ⟨x, hx, hq⟩ := Steps.add.1 hq
    exact ⟨x, hx, j, by omega, q, hq, hkq⟩

end Traces

end Positions

namespace Regex

/-! ### A match lies inside the text -/

theorem le_of_spans {t : List Char} {r : Regex} {p q : Nat} (h : r.Spans t p q) : p ≤ q := by
  induction r generalizing p q with
  | empty => exact Nat.le_of_eq h
  | set s => rw [h.1]; exact Nat.le_succ p
  | edge e => exact Nat.le_of_eq h.1
  | group r ih => exact ih h
  | seq a b iha ihb =>
    obtain ⟨m, ha, hb⟩ := h
    exact Nat.le_trans (iha ha) (ihb hb)
  | alt a b iha ihb => exact h.elim iha ihb
  | times lo hi greedy r ih =>
    obtain ⟨n, -, -, hn⟩ := h
    exact Steps.le ih hn
  | notAhead r _ => exact Nat.le_of_eq h.1

theorem le_length_of_spans {t : List Char} {r : Regex} {p q : Nat} (h : r.Spans t p q)
    (hp : p ≤ t.length) : q ≤ t.length := by
  induction r generalizing p q with
  | empty => exact h ▸ hp
  | set s =>
    obtain ⟨rfl, c, hc, -⟩ := h
    exact (List.getElem?_eq_some_iff.1 hc).1
  | edge e => exact h.1 ▸ hp
  | group r ih => exact ih h hp
  | seq a b iha ihb =>
    obtain ⟨m, ha, hb⟩ := h
    exact ihb hb (iha ha hp)
  | alt a b iha ihb => exact h.elim (iha · hp) (ihb · hp)
  | times lo hi greedy r ih =>
    obtain ⟨n, -, -, hn⟩ := h
    exact Steps.bounded ih hn hp
  | notAhead r _ => exact h.1 ▸ hp

/-! ### The search -/

end Regex

theorem Edge.testBit_positions (t : List Char) (e : Edge) (p : Nat) :
    (e.positions t).testBit p = true ↔ e.At t p := by
  cases e with
  | textStart => simp [Edge.positions, Edge.At, eq_comm]
  | textEnd => simp [Edge.positions, Edge.At, eq_comm]
  | lineStart =>
    simp only [Edge.positions, Edge.At, Nat.testBit_or, Positions.testBit_single,
      Nat.testBit_shiftLeft, Positions.testBit_ofChars, Bool.or_eq_true, decide_eq_true_eq,
      Bool.and_eq_true, Option.any_eq_true, beq_iff_eq, exists_eq_right]
    refine or_congr eq_comm ⟨?_, ?_⟩
    · rintro ⟨hp, hc⟩
      exact ⟨p - 1, by omega, hc⟩
    · rintro ⟨q, rfl, hc⟩
      exact ⟨Nat.le_add_left 1 q, by simpa using hc⟩
  | lineEnd =>
    simp only [Edge.positions, Edge.At, Nat.testBit_or, Positions.testBit_single,
      Positions.testBit_ofChars, Bool.or_eq_true, decide_eq_true_eq, Option.any_eq_true,
      beq_iff_eq, exists_eq_right]
    rw [or_comm, eq_comm]

namespace Regex

open Positions

/-- A regex placed in a text finds exactly the positions from which it matches. -/
theorem traces_starts (t : List Char) {r : Regex} (hr : r.Proper) :
    Traces t.length (r.Spans t) ((r.probe t).starts t.length) := by
  refine ⟨?_, le_of_spans⟩
  induction r with
  | empty =>
    intro k hk p
    simp only [probe, Probe.starts, Nat.testBit_and, testBit_upTo, Spans, Bool.and_eq_true,
      decide_eq_true_eq]
    exact ⟨fun h => ⟨p, rfl, h.2⟩, fun ⟨q, hq, h⟩ => hq ▸ ⟨hk q h, h⟩⟩
  | set s =>
    intro k _ p
    simp only [probe, Probe.starts, Nat.testBit_and, Nat.testBit_shiftRight, testBit_ofChars,
      Spans, Bool.and_eq_true, Option.any_eq_true]
    constructor
    · rintro ⟨⟨c, hc, hs⟩, h⟩
      exact ⟨p + 1, ⟨rfl, c, hc, hs⟩, by rwa [Nat.add_comm]⟩
    · rintro ⟨q, ⟨rfl, c, hc, hs⟩, h⟩
      exact ⟨⟨c, hc, hs⟩, by rwa [Nat.add_comm]⟩
  | edge e =>
    intro k _ p
    simp only [probe, Probe.starts, Nat.testBit_and, Bool.and_eq_true, Edge.testBit_positions,
      Spans]
    constructor
    · rintro ⟨he, h⟩; exact ⟨p, ⟨rfl, he⟩, h⟩
    · rintro ⟨q, ⟨rfl, he⟩, h⟩; exact ⟨he, h⟩
  | group r ih => exact ih hr
  | seq a b iha ihb =>
    intro k hk p
    have hb : Traces t.length (b.Spans t) ((b.probe t).starts t.length) :=
      ⟨ihb hr.2, le_of_spans⟩
    simp only [probe, Probe.starts, iha hr.1 (hb.below_step hk), ihb hr.2 hk, Spans]
    constructor
    · rintro ⟨m, ha, q, hb, h⟩; exact ⟨q, ⟨m, ha, hb⟩, h⟩
    · rintro ⟨q, ⟨m, ha, hb⟩, h⟩; exact ⟨m, ha, q, hb, h⟩
  | alt a b iha ihb =>
    intro k hk p
    simp only [probe, Probe.starts, Nat.testBit_or, Bool.or_eq_true, iha hr.1 hk, ihb hr.2 hk,
      Spans, or_and_right, exists_or]
  | times lo hi greedy r ih =>
    intro k hk p
    have h : Traces t.length (r.Spans t) ((r.probe t).starts t.length) := ⟨ih hr.2, le_of_spans⟩
    cases hi with
    | none =>
      simp only [probe, Probe.starts, h.testBit_atLeast hk, Spans]
      constructor
      · rintro ⟨m, hm, q, hq, hkq⟩
        exact ⟨q, ⟨m, hm, by simp, hq⟩, hkq⟩
      · rintro ⟨q, ⟨m, hm, -, hq⟩, hkq⟩
        exact ⟨m, hm, q, hq, hkq⟩
    | some hi =>
      simp only [probe, Probe.starts, h.testBit_between hk (hr.1 hi rfl), Spans]
      constructor
      · rintro ⟨m, hm, hm', q, hq, hkq⟩
        exact ⟨q, ⟨m, hm, fun b hb => Option.some.inj hb ▸ hm', hq⟩, hkq⟩
      · rintro ⟨q, ⟨m, hm, hb, hq⟩, hkq⟩
        exact ⟨m, hm, hb hi rfl, q, hq, hkq⟩
  | notAhead r ih =>
    intro k hk p
    simp only [probe, Probe.starts, testBit_diff, Bool.and_eq_true, Bool.not_eq_true', Spans]
    -- a match of what must not follow may end anywhere in the text
    rw [← Bool.not_eq_true, ih hr (below_upTo _)]
    simp only [testBit_upTo, decide_eq_true_eq]
    constructor
    · rintro ⟨hp, hno⟩
      refine ⟨p, ⟨rfl, fun ⟨m, hm⟩ => hno ⟨m, hm, le_length_of_spans hm (hk p hp)⟩⟩, hp⟩
    · rintro ⟨q, ⟨rfl, hno⟩, hp⟩
      exact ⟨hp, fun ⟨m, hm, _⟩ => hno ⟨m, hm⟩⟩

theorem testBit_starts (t : List Char) {r : Regex} (hr : r.Proper) (p : Nat) :
    (r.starts t).testBit p = true ↔ ∃ q, r.Spans t p q ∧ q ≤ t.length := by
  have hbit := (traces_starts t hr).testBit_step (below_upTo t.length) p
  simpa only [starts, testBit_upTo, decide_eq_true_eq] using hbit

/-- **The search answers whether the regex matches some part of the text.** -/
theorem matchesIn_iff (t : List Char) {r : Regex} (hr : r.Proper) :
    r.matchesIn t = true ↔ r.MatchesIn t := by
  rw [matchesIn, bne_iff_ne, ne_eq, MatchesIn]
  constructor
  · intro h
    obtain ⟨p, hp⟩ := Nat.exists_testBit_of_ne_zero h
    obtain ⟨q, hq, hl⟩ := (testBit_starts t hr p).1 hp
    exact ⟨p, q, Nat.le_trans (le_of_spans hq) hl, hq⟩
  · rintro ⟨p, q, hp, hq⟩ h
    have := (testBit_starts t hr p).2 ⟨q, hq, le_length_of_spans hq hp⟩
    rw [h, Nat.zero_testBit] at this
    exact Bool.false_ne_true this

end Regex

end PathGlob
