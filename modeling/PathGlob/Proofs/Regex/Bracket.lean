import PathGlob.Regex.Bracket
import PathGlob.Regex.Nesting

/-!
# Reading bracket classes

How the reader of a bracket class goes on after one member, and what is in the class in the end.

* `Bracket.readFrom_of_member` and `Bracket.readFrom_close`: one turn of the reader;
* `Bracket.next_of_char`: a character without meaning in a class is a member; so are an escape
  (`Bracket.next_of_escaped`) and a range (`Bracket.next_of_range`);
* `OpenClass.contains_close_addAll`: what is in a class with given members;
* `OpenClass.nesting_close_addAll_le`: how deep a class without classes in it nests.
-/

namespace PathGlob

namespace Bracket

variable {ignoreCase : Bool} {k : OpenClass} {outer : List OpenClass} {cs rest : List Char}

theorem readFrom_of_member {s : CharSet} (h : next cs = .ok (.member s, rest)) :
    readFrom ignoreCase k outer cs = readFrom ignoreCase (k.add s) outer rest := by
  rw [readFrom]
  split <;> rename_i he <;> rw [h] at he <;> cases he
  rfl

theorem enter_of_head (h : ∀ c, cs.head? = some c → c ∉ ['^', '-', ']']) :
    enter cs = ({ negated := false }, cs) := by
  have hne : ∀ c ∈ ['^', '-', ']'], ∀ rest, cs ≠ c :: rest := by
    rintro c hc rest rfl
    exact h c rfl hc
  rw [enter] <;> exact hne _ (by simp)

theorem readFrom_close :
    readFrom ignoreCase k [] (']' :: rest) = .ok (k.close ignoreCase, rest) := by
  have h : next (']' :: rest) = .ok (.closed, rest) := rfl
  rw [readFrom]
  split <;> rename_i he <;> rw [h] at he <;> cases he
  rfl

theorem readMember_of_atom {a : ClassAtom} (h : readAtom cs = .ok (a, rest))
    (hr : rest.head? ≠ some '-') : readMember cs = .ok (a.set, rest) := by
  rw [readMember, h]
  simp only [bind, Except.bind]
  split
  · exact absurd rfl hr
  · rfl

variable {c : Char}

theorem readAtom_of_ne (hc : c ≠ '\\') : readAtom (c :: rest) = .ok (.char c, rest) := by
  unfold readAtom
  split <;> simp_all

theorem next_of_char (hc : c ∉ ['[', ']', '-', '\\']) (ho : c ∈ ['&', '~'] → rest.head? ≠ some c)
    (hr : rest.head? ≠ some '-') : next (c :: rest) = .ok (.member (.single c), rest) := by
  have hback : c ≠ '\\' := fun h => hc (h ▸ by simp)
  have ha : readAtom (c :: rest) = .ok (.char c, rest) := readAtom_of_ne hback
  unfold next
  split <;> simp_all [readMember_of_atom ha hr, bind, Except.bind, ClassAtom.set]

theorem next_of_escaped {a : ClassAtom} (hc : ClassAtom.escaped? c = some a)
    (hr : rest.head? ≠ some '-') : next ('\\' :: c :: rest) = .ok (.member a.set, rest) := by
  have ha : readAtom ('\\' :: c :: rest) = .ok (a, rest) := by
    simp only [readAtom, hc]
  have hn : next ('\\' :: c :: rest) =
      (readMember ('\\' :: c :: rest)).bind fun x => .ok (.member x.1, x.2) := rfl
  rw [hn, readMember_of_atom ha hr]
  rfl

theorem next_of_escape (hc : ClassAtom.escaped? c = some (.char c)) (hr : rest.head? ≠ some '-') :
    next ('\\' :: c :: rest) = .ok (.member (.single c), rest) := next_of_escaped hc hr

theorem next_of_range {lo hi : Char} (hlo : lo ∉ ['[', ']', '-', '\\', '&', '~'])
    (hhi : hi ∉ [']', '-', '\\']) (hle : lo.toNat ≤ hi.toNat) :
    next (lo :: '-' :: hi :: rest) = .ok (.member (.range lo hi), rest) := by
  simp only [List.mem_cons, List.not_mem_nil, or_false, not_or] at hlo hhi
  have hmember : readMember (lo :: '-' :: hi :: rest) = .ok (.range lo hi, rest) := by
    rw [readMember, readAtom_of_ne hlo.2.2.2.1]
    simp only [bind, Except.bind, List.head?_cons, Option.some.injEq, hhi.1, hhi.2.1, decide_false,
      Bool.or_self, Bool.false_eq_true, ↓reduceIte, readAtom_of_ne hhi.2.2, if_pos hle]
  unfold next
  split <;> simp_all [bind, Except.bind]

end Bracket

namespace OpenClass

variable {k : OpenClass}

/-- Adds sets to the members, from the left. -/
def addAll (k : OpenClass) (ss : List CharSet) : OpenClass := ss.foldl add k

theorem addAll_negated (k : OpenClass) (ss : List CharSet) : (k.addAll ss).negated = k.negated := by
  induction ss generalizing k with
  | nil => rfl
  | cons s ss ih => exact ih (k.add s)

theorem addAll_left (k : OpenClass) (ss : List CharSet) : (k.addAll ss).left = k.left := by
  induction ss generalizing k with
  | nil => rfl
  | cons s ss ih => exact ih (k.add s)

theorem contains_addAll (k : OpenClass) (ss : List CharSet) (c : Char) :
    (k.addAll ss).members.contains c = (k.members.contains c || ss.any (·.contains c)) := by
  induction ss generalizing k with
  | nil => exact (Bool.or_false _).symm
  | cons s ss ih => rw [addAll, List.foldl_cons, ← addAll, ih, add, CharSet.contains, List.any_cons,
      Bool.or_assoc]

/-- A class without operators contains what is in one of its members or, if it is negated, in none
of them. -/
theorem contains_close_addAll (negated : Bool) (ss : List CharSet) (c : Char) :
    ((addAll { negated } ss).close false).contains c = (ss.any (·.contains c) != negated) := by
  have h := contains_addAll { negated } ss c
  rw [CharSet.contains, Bool.false_or] at h
  rw [close, total, addAll_left, addAll_negated, ← h]
  cases negated <;> simp [caseClosed, CharSet.contains]

end OpenClass

/-! ### Nesting -/

/-- The set is made up of members that have no brackets of their own. -/
def CharSet.IsList : CharSet → Prop
  | empty => True
  | union a b => a.IsList ∧ b.isItem = true
  | _ => False

namespace CharSet

theorem IsList.depth_le {s : CharSet} (h : s.IsList) : s.depth ≤ 1 := by
  induction s with
  | empty => exact Nat.zero_le _
  | union a b iha ihb =>
    obtain ⟨ha, hb⟩ := h
    have hdepth := iha ha
    simp only [depth, hb, ↓reduceIte]
    split
    · exact Nat.zero_le _
    · obtain ⟨-, hx⟩ := ha
      simp [depth, hx]
    · omega
  | range | digit | space | word | compl | inter | diff | symmDiff | anyCase => exact h.elim

theorem isItem_of_escaped {c : Char} {a : ClassAtom} (h : ClassAtom.escaped? c = some a) :
    a.set.isItem = true := by
  unfold ClassAtom.escaped? at h
  split at h
  · cases h; rfl
  · cases h; rfl
  · cases h; rfl
  · cases h; rfl
  · split at h <;> cases h
    rfl

theorem nesting_le (s : CharSet) : s.nesting ≤ s.depth + 2 := by
  cases s with
  | compl a =>
    cases a with
    | empty | range => exact of_decide_eq_true rfl
    | anyCase a => exact Nat.le_refl _
    | digit | space | word | compl | union | inter | diff | symmDiff => exact Nat.le_succ _
  | anyCase a =>
    cases a with
    | range => exact of_decide_eq_true rfl
    | empty | digit | space | word | compl | union | inter | diff | symmDiff | anyCase =>
      exact Nat.le_refl _
  | empty | range | digit | space | word => exact Nat.zero_le _
  | union | inter | diff | symmDiff => exact Nat.le_succ _

end CharSet

namespace OpenClass

theorem isList_addAll {k : OpenClass} (hk : k.members.IsList) {ss : List CharSet}
    (h : ∀ s ∈ ss, s.isItem = true) : (k.addAll ss).members.IsList := by
  induction ss generalizing k with
  | nil => exact hk
  | cons s ss ih =>
    obtain ⟨hs, hss⟩ := List.forall_mem_cons.1 h
    exact ih (k := k.add s) ⟨hk, hs⟩ hss

/-- The brackets and the list of the members are two levels, and the group for the letters whose
case is ignored is a third one. -/
theorem nesting_close_addAll_le (negated i : Bool) {ss : List CharSet}
    (h : ∀ s ∈ ss, s.isItem = true) : ((addAll { negated } ss).close i).nesting ≤ 3 := by
  have hdepth := (isList_addAll (k := { negated }) trivial h).depth_le
  have hclose : ((addAll { negated } ss).close i).depth ≤ 1 := by
    rw [close, total, addAll_left, addAll_negated]
    cases negated <;> cases i <;> exact hdepth
  exact Nat.le_trans (CharSet.nesting_le _) (Nat.add_le_add_right hclose 2)

end OpenClass

end PathGlob
