import PathGlob.Proofs.Regex.Building

/-!
# Bounds on nesting

A regex that does not nest deeper than `Regex.maxNesting` fits, and a regex without lookahead fits
only then. What a row or a choice adds to the nesting of its parts is one level.

* `Regex.endNesting_seqs`: how deep a row of parts nests;
* `Regex.Frames.Flat`: the parts of an open group are no rows themselves, and stay so;
* `Regex.fits_of_not_looksAhead`: without lookahead only the nesting counts;
* `Regex.fits_of_nesting_le`: a regex that does not nest too deep fits.
-/

namespace PathGlob

namespace Regex

/-! ### Bounds -/

section Bounds

variable {r a b : Regex} {rs : List Regex} {n : Nat}

theorem nesting_seq : (seq a b).nesting = max (a.nesting + 1) b.endNesting := rfl

theorem le_endNesting (r : Regex) : r.nesting ≤ r.endNesting := by
  unfold endNesting
  split
  · exact Nat.le_refl _
  · exact Nat.le_succ _

theorem endNesting_le (h : r.nesting < n) : r.endNesting ≤ n := by
  unfold endNesting
  split
  · exact Nat.le_of_lt h
  · exact h

theorem endNesting_seqs_le (hne : rs ≠ []) (h : ∀ r ∈ rs, r.nesting < n) :
    (seqs rs).endNesting ≤ n := by
  induction rs with
  | nil => exact absurd rfl hne
  | cons r rs ih =>
    obtain ⟨hr, hrs⟩ := List.forall_mem_cons.1 h
    cases rs with
    | nil => exact endNesting_le hr
    | cons r' rs => exact Nat.max_le.2 ⟨hr, ih (List.cons_ne_nil _ _) hrs⟩

/-- How deep the parts nest, one by one. -/
def deepest : List Regex → Nat
  | [] => 0
  | r :: rs => max r.nesting (deepest rs)

theorem deepest_append (rs rs' : List Regex) :
    deepest (rs ++ rs') = max (deepest rs) (deepest rs') := by
  induction rs with
  | nil => exact (Nat.zero_max _).symm
  | cons r rs ih => rw [List.cons_append, deepest, deepest, ih, Nat.max_assoc]

/-- A row of parts that are no rows themselves nests one level deeper than they do. -/
theorem endNesting_seqs (h : ∀ r ∈ rs, r.isRow = false) :
    (seqs rs).endNesting = deepest rs + 1 := by
  induction rs with
  | nil => rfl
  | cons r rs ih =>
    obtain ⟨hr, hrs⟩ := List.forall_mem_cons.1 h
    cases rs with
    | nil =>
      change r.endNesting = max r.nesting 0 + 1
      rw [endNesting, hr, Nat.max_zero]
      rfl
    | cons r' rs =>
      change max (r.nesting + 1) (seqs (r' :: rs)).endNesting = max r.nesting _ + 1
      rw [ih hrs, Nat.add_max_add_right]

theorem le_deepest (hr : r ∈ rs) : r.nesting ≤ deepest rs := by
  induction rs with
  | nil => cases hr
  | cons r' rs ih =>
    rcases List.mem_cons.1 hr with rfl | hr
    · exact Nat.le_max_left _ _
    · exact (ih hr).trans (Nat.le_max_right _ _)

theorem nesting_lt_endNesting_seqs (h : ∀ r ∈ rs, r.isRow = false) (hr : r ∈ rs) :
    r.nesting < (seqs rs).endNesting := by
  rw [endNesting_seqs h]
  exact Nat.lt_succ_of_le (le_deepest hr)

theorem nesting_seqs (h : ∀ r ∈ rs, r.isRow = false) :
    (seqs rs).nesting = deepest rs + (decide (2 ≤ rs.length)).toNat := by
  cases rs with
  | nil => rfl
  | cons r rs =>
    cases rs with
    | nil => exact (Nat.max_zero _).symm
    | cons r' rs =>
      rw [decide_eq_true (by simp)]
      exact endNesting_seqs h

theorem nesting_seqs_le (h : ∀ r ∈ rs, r.nesting < n) : (seqs rs).nesting ≤ n := by
  cases rs with
  | nil => exact Nat.zero_le n
  | cons r rs => exact (le_endNesting _).trans (endNesting_seqs_le (List.cons_ne_nil _ _) h)

theorem nesting_alts_le (h : ∀ r ∈ rs, r.nesting < n) : (alts rs).nesting ≤ n := by
  induction rs with
  | nil => exact Nat.zero_le n
  | cons r rs ih =>
    obtain ⟨hr, hrs⟩ := List.forall_mem_cons.1 h
    cases rs with
    | nil => exact Nat.le_of_lt hr
    | cons r' rs =>
      refine Nat.max_le.2 ⟨hr, ?_⟩
      split
      · exact ih hrs
      · rename_i hc
        cases rs with
        | nil => exact hrs r' (List.mem_singleton_self _)
        | cons => exact absurd rfl hc

/-- The ends of a text are a level of a row, but nest no deeper than its parts. -/
theorem nesting_seqs_anchored (h : ∀ r ∈ rs, r.isRow = false) :
    (seqs (edge .textStart :: rs ++ [edge .textEnd])).nesting = deepest rs + 1 := by
  have hrow : ∀ r ∈ edge .textStart :: rs ++ [edge .textEnd], r.isRow = false :=
    List.forall_mem_append.2 ⟨List.forall_mem_cons.2 ⟨rfl, h⟩, List.forall_mem_singleton.2 rfl⟩
  rw [nesting_seqs hrow, deepest_append, deepest]
  simp [deepest, nesting, Edge.nesting]

theorem isChoice_seqs (h : ∀ r ∈ rs, r.isChoice = false) : (seqs rs).isChoice = false := by
  cases rs with
  | nil => rfl
  | cons r rs =>
    cases rs with
    | nil => exact h r (List.mem_singleton_self r)
    | cons => rfl

theorem nesting_alts_cons (hne : rs ≠ []) :
    (alts (r :: rs)).nesting =
      max (r.nesting + 1) ((alts rs).nesting + (!(alts rs).isChoice).toNat) := by
  cases rs with
  | nil => exact absurd rfl hne
  | cons r' rs =>
    change max (r.nesting + 1) (if _ then _ else _) = _
    cases (alts (r' :: rs)).isChoice <;> rfl

end Bounds

/-! ### Rows -/

section Rows

variable {r : Regex}

/-- No part so far is a row by itself. -/
def Frame.Flat (k : Frame) : Prop := ∀ r ∈ k.parts, r.isRow = false

theorem Frame.Flat.add {k : Frame} (h : k.Flat) (hr : r.isRow = false) : (k.add r).Flat :=
  List.forall_mem_cons.2 ⟨hr, h⟩

theorem Frame.Flat.repeatLast {k k' : Frame} (h : k.Flat) {lo : Nat} {hi : Option Nat}
    {greedy : Bool} (he : k.repeatLast lo hi greedy = .ok k') : k'.Flat := by
  unfold Frame.repeatLast at he
  split at he
  · rename_i r rs hp
    have hrs : ∀ r' ∈ rs, r'.isRow = false := fun r' hr => h r' (hp ▸ List.mem_cons_of_mem r hr)
    split at he
    · cases he; exact List.forall_mem_cons.2 ⟨rfl, hrs⟩
    · cases he; exact List.forall_mem_cons.2 ⟨rfl, hrs⟩
    · cases he
  · cases he

theorem Frame.isRow_close (k : Frame) : k.close.isRow = false := by
  unfold Frame.close
  split <;> rfl

/-- No part of an open group is a row by itself. -/
def Frames.Flat (s : Frames) : Prop := s.inner.Flat ∧ ∀ k ∈ s.outer, k.Flat

namespace Frames

variable {s s' : Frames}

theorem flat_empty : Flat {} := ⟨by simp [Frame.Flat], by simp⟩

theorem Flat.step {t : Token} (h : s.Flat) (he : s.step t = .ok s') : s'.Flat := by
  cases t with
  | set a => cases he; exact ⟨h.1.add rfl, h.2⟩
  | edge e => cases he; exact ⟨h.1.add rfl, h.2⟩
  | openGroup | openNotAhead =>
    simp only [Frames.step, openGroup] at he
    split at he
    · cases he; exact ⟨List.forall_mem_nil _, List.forall_mem_cons.2 h⟩
    · cases he
  | close =>
    simp only [Frames.step, close] at he
    split at he
    · cases he
    · rename_i k ks ho
      obtain ⟨hk, hks⟩ := List.forall_mem_cons.1 (ho ▸ h.2)
      cases he; exact ⟨hk.add (Frame.isRow_close _), hks⟩
  | bar => cases he; exact ⟨List.forall_mem_nil _, h.2⟩
  | count lo hi greedy =>
    simp only [Frames.step] at he
    split at he
    · cases he
    · cases hr : s.inner.repeatLast lo hi greedy with
      | error e => rw [hr] at he; cases he
      | ok k => rw [hr] at he; cases he; exact ⟨h.1.repeatLast hr, h.2⟩

/-- **No part of a row is a row**, whatever the tokens are. -/
theorem Flat.steps {ts : List Token} (h : s.Flat) (he : s.steps ts = .ok s') : s'.Flat := by
  induction ts generalizing s with
  | nil =>
    cases he
    exact h
  | cons t ts ih =>
    rw [Frames.steps] at he
    cases hs : s.step t with
    | error e =>
      rw [hs] at he
      cases he
    | ok s₁ =>
      rw [hs] at he
      exact ih (h.step hs) he

end Frames

end Rows

/-! ### Regexes that fit -/

section Fits

variable {r a b : Regex} {place : Place}

/-- The regex nests no deeper than it may at a place. -/
structure ShallowAt (place : Place) (r : Regex) : Prop where
  nesting : r.nesting ≤ maxNesting
  endNesting : place.inRow = true → r.endNesting ≤ maxNesting
  decided : place.decides r = true → r.nesting + r.isChoice.toNat ≤ maxNesting

/-- One level below the limit there is room for every place. -/
theorem ShallowAt.of_lt (h : r.nesting < maxNesting) : ShallowAt place r := by
  refine ⟨Nat.le_of_lt h, fun _ => endNesting_le h, fun _ => ?_⟩
  have := Bool.toNat_le r.isChoice
  omega

theorem ShallowAt.of_endNesting_le (h : r.endNesting ≤ maxNesting) : ShallowAt place r := by
  refine ⟨(le_endNesting r).trans h, fun _ => h, fun _ => ?_⟩
  cases r with
  | alt a b => exact h
  | empty | set | edge | group | seq | times | notAhead => exact (le_endNesting _).trans h

/-- What is asked of a part that is decided in one go. -/
theorem ShallowAt.ite_eq_true {z : Bool} (h : ShallowAt place r) (hz : z = true) :
    (if place.decides r then decide (r.nesting + r.isChoice.toNat ≤ maxNesting)
      else if place.inRow && r.isFixed then
        decide ((if place.begun then r.nesting else r.endNesting) ≤ maxNesting)
      else z) = true := by
  split
  · exact decide_eq_true (h.decided ‹_›)
  split
  · rename_i hrow
    rw [Bool.and_eq_true] at hrow
    refine decide_eq_true ?_
    split
    · exact h.nesting
    · exact h.endNesting hrow.1
  · exact hz

/-- **A part that does not nest too deep fits**, wherever it stands. -/
theorem fitsAt_of_shallowAt (h : ShallowAt place r) : r.fitsAt place = true := by
  induction r generalizing place with
  | empty | edge e => exact h.ite_eq_true rfl
  | set s => exact h.ite_eq_true (decide_eq_true h.nesting)
  | group r ih | times lo hi greedy r ih | notAhead r ih =>
    exact h.ite_eq_true (ih (.of_lt h.nesting))
  | alt a b iha ihb =>
    obtain ⟨ha, hb⟩ := Nat.max_le.1 h.nesting
    refine h.ite_eq_true (Bool.and_eq_true_iff.2 ⟨iha (.of_lt ha), ihb ?_⟩)
    split at hb
    · rename_i hc
      exact ⟨hb, nofun, fun hd => by simp [Place.decides, hc] at hd⟩
    · exact .of_lt hb
  | seq a b iha ihb =>
    obtain ⟨ha, hb⟩ := Nat.max_le.1 h.nesting
    have hb' : ∀ place, b.fitsAt place = true := fun place => ihb (.of_endNesting_le hb)
    refine h.ite_eq_true ?_
    split
    · refine Bool.and_eq_true_iff.2 ⟨decide_eq_true ?_, hb' _⟩
      have := Bool.toNat_le (place.inRow || b.leads)
      omega
    · exact Bool.and_eq_true_iff.2 ⟨iha (.of_lt ha), hb' _⟩

theorem fits_of_not_looksAhead (h : r.looksAhead = false) :
    r.fits = decide (r.nesting ≤ maxNesting) := by
  rw [fits, h]
  rfl

theorem fits_of_nesting_le (h : r.nesting ≤ maxNesting) : r.fits = true := by
  unfold fits
  split
  · rename_i hl
    exact fitsAt_of_shallowAt ⟨h, nofun, by simp [Place.decides, hl]⟩
  · exact decide_eq_true h

end Fits

end Regex

/-! ### Tokens -/

namespace Token

theorem nesting_letterSet (f : Flags) (c : Char) :
    (letterSet f c).nesting = f.ignoreCase.toNat := by
  unfold letterSet
  cases f.ignoreCase <;> rfl

theorem nesting_dotSet (f : Flags) : (dotSet f).nesting = f.dotAll.toNat := by
  unfold dotSet
  cases f.dotAll <;> rfl

theorem nesting_startEdge (f : Flags) : (startEdge f).nesting = f.multiLine.toNat := by
  unfold startEdge
  cases f.multiLine <;> rfl

theorem nesting_endEdge (f : Flags) : (endEdge f).nesting = f.multiLine.toNat := by
  unfold endEdge
  cases f.multiLine <;> rfl

end Token

end PathGlob
