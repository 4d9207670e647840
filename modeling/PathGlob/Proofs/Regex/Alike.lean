import PathGlob.Proofs.Regex.Nesting
import PathGlob.Proofs.Regex.Similarity

/-!
# Regexes that nest alike

Two regexes that are written in the same shape fit alike, although they are not the same: the
letters of one may be others than those of the other one. `Regex.Alike` keeps all that `Regex.fits`
asks for, and is kept up while regexes are built. If only the nesting is to be compared, and there
is no lookahead, it is enough that the second regex does not nest deeper (`Regex.Shallower`).
-/

namespace PathGlob

namespace Regex

/-- The regexes have the same form, as far as it is seen from outside. -/
structure SameForm (r r' : Regex) : Prop where
  isRow : r.isRow = r'.isRow
  isChoice : r.isChoice = r'.isChoice
  looksAhead : r.looksAhead = r'.looksAhead
  width? : r.width? = r'.width?
  leads : r.leads = r'.leads
  nesting : r.nesting = r'.nesting

/-- The regexes fit alike, wherever they stand. -/
structure Alike (r r' : Regex) : Prop extends SameForm r r' where
  fitsAt : ∀ place, r.fitsAt place = r'.fitsAt place

namespace SameForm

variable {r r' : Regex} (h : r.SameForm r')

include h

theorem isFixed : r.isFixed = r'.isFixed := by
  rw [Regex.isFixed, Regex.isFixed, fixedWidth?, fixedWidth?, h.looksAhead, h.width?]

theorem endNesting : r.endNesting = r'.endNesting := by
  rw [Regex.endNesting, Regex.endNesting, h.isRow, h.nesting]

theorem decides (place : Place) : place.decides r = place.decides r' := by
  rw [Place.decides, Place.decides, h.looksAhead, h.isChoice]

theorem ite_eq {place : Place} {z z' : Bool} (hz : place.decides r' = false → z = z') :
    (if place.decides r then decide (r.nesting + r.isChoice.toNat ≤ maxNesting)
      else if place.inRow && r.isFixed then
        decide ((if place.begun then r.nesting else r.endNesting) ≤ maxNesting)
      else z) =
    if place.decides r' then decide (r'.nesting + r'.isChoice.toNat ≤ maxNesting)
      else if place.inRow && r'.isFixed then
        decide ((if place.begun then r'.nesting else r'.endNesting) ≤ maxNesting)
      else z' := by
  rw [h.decides, h.isFixed, h.endNesting, h.nesting, h.isChoice]
  by_cases hd : place.decides r' = true
  · rw [if_pos hd, if_pos hd]
  · rw [hz (Bool.eq_false_iff.2 hd)]

end SameForm

namespace Alike

variable {r r' a a' b b' : Regex} {rs rs' : List Regex}

theorem refl (r : Regex) : r.Alike r := ⟨⟨rfl, rfl, rfl, rfl, rfl, rfl⟩, fun _ => rfl⟩

theorem trans {r'' : Regex} (h : r.Alike r') (h' : r'.Alike r'') : r.Alike r'' :=
  ⟨⟨h.isRow.trans h'.isRow, h.isChoice.trans h'.isChoice, h.looksAhead.trans h'.looksAhead,
    h.width?.trans h'.width?, h.leads.trans h'.leads, h.nesting.trans h'.nesting⟩,
    fun place => (h.fitsAt place).trans (h'.fitsAt place)⟩

theorem set {s s' : CharSet} (h : s.nesting = s'.nesting) : (set s).Alike (.set s') := by
  have ht : (Regex.set s).SameForm (.set s') := ⟨rfl, rfl, rfl, rfl, rfl, h⟩
  refine ⟨ht, fun place => ht.ite_eq fun _ => ?_⟩
  rw [h]

theorem group (h : r.Alike r') : (group r).Alike (.group r') := by
  have ht : (Regex.group r).SameForm (.group r') :=
    ⟨rfl, rfl, h.looksAhead, h.width?, h.toSameForm.isFixed, congrArg (· + 1) h.nesting⟩
  exact ⟨ht, fun place => ht.ite_eq fun _ => h.fitsAt _⟩

theorem notAhead (h : r.Alike r') : (notAhead r).Alike (.notAhead r') := by
  have ht : (Regex.notAhead r).SameForm (.notAhead r') :=
    ⟨rfl, rfl, rfl, rfl, rfl, congrArg (· + 1) h.nesting⟩
  exact ⟨ht, fun place => ht.ite_eq fun _ => h.fitsAt _⟩

theorem times (lo : Nat) (hi : Option Nat) (greedy : Bool) (h : r.Alike r') :
    (Regex.times lo hi greedy r).Alike (.times lo hi greedy r') := by
  have hw : (Regex.times lo hi greedy r).width? = (Regex.times lo hi greedy r').width? := by
    rw [Regex.width?, Regex.width?, h.width?]
  have hfixed : (Regex.times lo hi greedy r).isFixed = (Regex.times lo hi greedy r').isFixed := by
    have hl : (Regex.times lo hi greedy r).looksAhead = (Regex.times lo hi greedy r').looksAhead :=
      h.looksAhead
    rw [isFixed, isFixed, fixedWidth?, fixedWidth?, hw, hl]
  have ht : (Regex.times lo hi greedy r).SameForm (.times lo hi greedy r') :=
    ⟨rfl, rfl, h.looksAhead, hw, hfixed, congrArg (· + 1) h.nesting⟩
  exact ⟨ht, fun place => ht.ite_eq fun _ => h.fitsAt _⟩

theorem alt (ha : a.Alike a') (hb : b.Alike b') : (alt a b).Alike (.alt a' b') := by
  have hw : (Regex.alt a b).width? = (Regex.alt a' b').width? := by
    rw [Regex.width?, Regex.width?, ha.width?, hb.width?]
  have hl : (Regex.alt a b).looksAhead = (Regex.alt a' b').looksAhead := by
    rw [Regex.looksAhead, Regex.looksAhead, ha.looksAhead, hb.looksAhead]
  have hn : (Regex.alt a b).nesting = (Regex.alt a' b').nesting := by
    rw [Regex.nesting, Regex.nesting, ha.nesting, hb.nesting, hb.isChoice]
  have hfixed : (Regex.alt a b).isFixed = (Regex.alt a' b').isFixed := by
    rw [isFixed, isFixed, fixedWidth?, fixedWidth?, hw, hl]
  have ht : (Regex.alt a b).SameForm (.alt a' b') := ⟨rfl, rfl, hl, hw, hfixed, hn⟩
  refine ⟨ht, fun place => ht.ite_eq fun _ => ?_⟩
  simp only [ha.fitsAt, hb.fitsAt]

theorem seq (ha : a.Alike a') (hb : b.Alike b') : (seq a b).Alike (.seq a' b') := by
  have hw : (Regex.seq a b).width? = (Regex.seq a' b').width? := by
    rw [Regex.width?, Regex.width?, ha.width?, hb.width?]
  have hl : (Regex.seq a b).looksAhead = (Regex.seq a' b').looksAhead := by
    rw [Regex.looksAhead, Regex.looksAhead, ha.looksAhead, hb.looksAhead]
  have hn : (Regex.seq a b).nesting = (Regex.seq a' b').nesting := by
    rw [nesting_seq, nesting_seq, ha.nesting, hb.toSameForm.endNesting]
  have hfixed := ha.toSameForm.isFixed
  have ht : (Regex.seq a b).SameForm (.seq a' b') := ⟨rfl, rfl, hl, hw, hfixed, hn⟩
  refine ⟨ht, fun place => ht.ite_eq fun _ => ?_⟩
  rw [hfixed, ha.nesting, hb.leads]
  simp only [ha.fitsAt, hb.fitsAt]

theorem seqs (h : List.Forall₂ Alike rs rs') : (seqs rs).Alike (Regex.seqs rs') :=
  rel_seqs (refl _) seq h

theorem alts (h : List.Forall₂ Alike rs rs') : (alts rs).Alike (Regex.alts rs') :=
  rel_alts (refl _) alt h

/-- A part of no fixed width that stands twice in a row, with more after it. -/
theorem seq_twice (hw : a.width? = none) : (Regex.seq a (.seq a b)).Alike (.seq a b) := by
  have hl : (Regex.seq a (.seq a b)).looksAhead = (Regex.seq a b).looksAhead := by
    rw [Regex.looksAhead, Regex.looksAhead, ← Bool.or_assoc, Bool.or_self]
  have hwidth : (Regex.seq a (.seq a b)).width? = (Regex.seq a b).width? := by
    rw [Regex.width?, Regex.width?, hw]
    rfl
  have hn : (Regex.seq a (.seq a b)).nesting = (Regex.seq a b).nesting := by
    change max (a.nesting + 1) (max (a.nesting + 1) b.endNesting) = max (a.nesting + 1) b.endNesting
    omega
  have hfixed : a.isFixed = false := by
    rw [isFixed, fixedWidth?, hw, ite_self]
    rfl
  have ht : (Regex.seq a (.seq a b)).SameForm (.seq a b) := ⟨rfl, rfl, hl, hwidth, rfl, hn⟩
  refine ⟨ht, fun place => ht.ite_eq fun hd => ?_⟩
  -- what comes after the first one is decided in one go only if all of the row is
  have hd' : Place.decides { last := place.last, inRow := true, begun := true } (.seq a b) =
      false := by
    simpa [Place.decides, isChoice] using hd
  have hrow : (Regex.seq a b).isFixed = false := by
    rw [isFixed, fixedWidth?, Regex.width?, hw]
    exact congrArg Option.isSome (ite_self _)
  have hnext : (Regex.seq a b).fitsAt { last := place.last, inRow := true, begun := true } =
      (a.fitsAt { last := false } &&
        b.fitsAt { last := place.last, inRow := true, begun := true }) := by
    rw [Regex.fitsAt, hd', hrow]
    rfl
  rw [hfixed, Bool.and_false, hnext, ← Bool.and_assoc, Bool.and_self]
  rfl

theorem seq_twice_end (hw : a.width? = none) (hr : a.isRow = false)
    (hn : a.nesting < maxNesting) : (Regex.seq r (.seq a a)).Alike (.seq r a) := by
  have hl : (Regex.seq r (.seq a a)).looksAhead = (Regex.seq r a).looksAhead := by
    rw [Regex.looksAhead, Regex.looksAhead, Regex.looksAhead, Bool.or_self]
  have hwidth : (Regex.seq r (.seq a a)).width? = (Regex.seq r a).width? := by
    rw [Regex.width?, Regex.width?, Regex.width?, hw]
    rfl
  have hend : (Regex.seq a a).endNesting = a.endNesting := by
    rw [Regex.endNesting, Regex.endNesting, hr]
    change max (a.nesting + 1) a.endNesting = a.nesting + 1
    rw [Regex.endNesting, hr]
    exact Nat.max_self _
  have hleads : (Regex.seq a a).leads = a.leads := by
    cases a with
    | seq => cases hr
    | empty | set | edge | group | alt | times | notAhead => rfl
  have ht : (Regex.seq r (.seq a a)).SameForm (.seq r a) :=
    ⟨rfl, rfl, hl, hwidth, rfl, by rw [nesting_seq, nesting_seq, hend]⟩
  refine ⟨ht, fun place => ht.ite_eq fun _ => ?_⟩
  have hone : ∀ place, a.fitsAt place = true := fun place => fitsAt_of_shallowAt (.of_lt hn)
  have htwo : ∀ place, (Regex.seq a a).fitsAt place = true := fun place =>
    fitsAt_of_shallowAt (.of_endNesting_le (hend.trans_le (endNesting_le hn)))
  rw [hleads]
  simp only [hone, htwo]

/-- **A part of no fixed width may stand twice in a row** that has other parts, too. -/
theorem seqs_twice {ps : List Regex} (hw : a.width? = none) (hr : a.isRow = false)
    (hn : a.nesting < maxNesting) (h : rs = [] → ps ≠ []) :
    (Regex.seqs (rs ++ a :: a :: ps)).Alike (Regex.seqs (rs ++ a :: ps)) := by
  induction rs with
  | nil =>
    cases ps with
    | nil => exact absurd rfl (h rfl)
    | cons => exact seq_twice hw
  | cons r rs ih =>
    cases rs with
    | nil =>
      cases ps with
      | nil => exact seq_twice_end hw hr hn
      | cons => exact (refl r).seq (seq_twice hw)
    | cons => exact (refl r).seq (ih nofun)

/-- **The relation is kept up while regexes are built.** Two rows are related if they are alike
whatever comes after them. -/
def similarity : Similarity where
  Rel := Alike
  Row rs rs' := ∀ ps ps', List.Forall₂ Alike ps ps' →
    (Regex.seqs (rs ++ ps)).Alike (Regex.seqs (rs' ++ ps'))
  Ahead := True
  nil _ _ := seqs
  append h hp ps ps' hps := by
    rw [List.append_assoc, List.append_assoc]
    exact h _ _ (List.rel_append hp hps)
  seqs h := by
    have h := h [] [] .nil
    rwa [List.append_nil, List.append_nil] at h
  alts := alts
  edge _ := refl _
  group := group
  notAhead _ := notAhead
  times lo hi greedy _ _ h := h.times lo hi greedy

theorem fits (h : r.Alike r') : r.fits = r'.fits := by
  rw [Regex.fits, Regex.fits, h.looksAhead, h.nesting, h.fitsAt]

theorem row_twice (hw : a.width? = none) (hr : a.isRow = false) (hn : a.nesting < maxNesting)
    (hne : rs ≠ []) : similarity.Row (rs ++ [a, a]) (rs ++ [a]) := by
  intro ps ps' hps
  rw [List.append_assoc, List.append_assoc]
  refine (seqs_twice hw hr hn fun h => absurd h hne).trans (seqs ?_)
  exact List.rel_append (List.forall₂_same.2 fun r _ => refl r) (.cons (refl a) hps)

/-- Even if it stands there alone, one of them fits if two do. -/
theorem fits_twice (hw : a.width? = none) (hr : a.isRow = false) (hn : a.nesting < maxNesting) :
    (Regex.seqs (a :: a :: rs)).fits = (Regex.seqs (a :: rs)).fits := by
  by_cases hrs : rs = []
  · have hlt : ∀ r ∈ [a, a], r.nesting < maxNesting := by simpa using hn
    rw [hrs, fits_of_nesting_le (nesting_seqs_le hlt)]
    exact (fits_of_nesting_le (Nat.le_of_lt hn)).symm
  · have h : (Regex.seqs ([] ++ a :: a :: rs)).Alike (Regex.seqs ([] ++ a :: rs)) :=
      seqs_twice hw hr hn fun _ => hrs
    exact h.fits

end Alike

/-- The second regex nests at least as deep as the first one, and is written with as many parts. -/
structure Shallower (r r' : Regex) : Prop where
  isRow : r.isRow = r'.isRow
  isChoice : r.isChoice = r'.isChoice
  nesting : r.nesting ≤ r'.nesting

namespace Shallower

variable {r r' a a' b b' : Regex} {rs rs' : List Regex}

theorem refl (r : Regex) : r.Shallower r := ⟨rfl, rfl, Nat.le_refl _⟩

theorem seq (ha : a.Shallower a') (hb : b.Shallower b') : (seq a b).Shallower (.seq a' b') := by
  refine ⟨rfl, rfl, max_le_max (Nat.succ_le_succ ha.nesting) ?_⟩
  rw [hb.isRow]
  have := hb.nesting
  split <;> omega

theorem alt (ha : a.Shallower a') (hb : b.Shallower b') : (alt a b).Shallower (.alt a' b') := by
  refine ⟨rfl, rfl, max_le_max (Nat.succ_le_succ ha.nesting) ?_⟩
  rw [hb.isChoice]
  have := hb.nesting
  split <;> omega

theorem seqs (h : List.Forall₂ Shallower rs rs') : (seqs rs).Shallower (Regex.seqs rs') :=
  rel_seqs (refl _) seq h

theorem alts (h : List.Forall₂ Shallower rs rs') : (alts rs).Shallower (Regex.alts rs') :=
  rel_alts (refl _) alt h

/-- **The relation is kept up while regexes are built.** -/
def similarity : Similarity where
  Rel := Shallower
  Row := List.Forall₂ Shallower
  Ahead := True
  nil := .nil
  append h hp := List.rel_append h hp
  seqs := seqs
  alts := alts
  edge _ := refl _
  group h := ⟨rfl, rfl, Nat.succ_le_succ h.nesting⟩
  notAhead _ h := ⟨rfl, rfl, Nat.succ_le_succ h.nesting⟩
  times _ _ _ _ _ h := ⟨rfl, rfl, Nat.succ_le_succ h.nesting⟩

/-- A regex fits if a deeper one without lookahead does. -/
theorem fits (h : r.Shallower r') (hl : r'.looksAhead = false) (hf : r'.fits = true) :
    r.fits = true := by
  rw [fits_of_not_looksAhead hl, decide_eq_true_iff] at hf
  exact fits_of_nesting_le (h.nesting.trans hf)

end Shallower

end Regex

end PathGlob
