import PathGlob.Proofs.Glob.Effect

/-!
# The separators that a pattern demands

A row of lexemes that open no groups demands a number of separators of every text that it matches,
and it matches a text with no more of them. A row with more separators in it may still match all
that another one matches, if it demands no more of them.

* `Lexeme.demand`: the number of separators that a row demands;
* `Lexeme.demand_le_count` and `Lexeme.exists_least`: it is the least number of separators in a text
  that the row matches;
* `Lexeme.Looser`: a row that matches all that another one matches, since it differs from it only in
  separators that may be left out or stand for the same texts.
-/

namespace PathGlob

namespace Lexeme

open Regex

variable {s : Separator} {f : Flags} {l : Lexeme} {ls ls' : List Lexeme} {u w v : List Char}

/-- The lexeme does not match without a separator. -/
def demands (s : Separator) : Lexeme → Bool
  | separator lenient => !lenient || s == .windows
  | _ => false

/-- The number of separators that a row of lexemes demands. -/
def demand (s : Separator) (ls : List Lexeme) : Nat := ls.countP (demands s)

/-- The regex of a row of inert lexemes. -/
def row (s : Separator) (f : Flags) (ls : List Lexeme) : Regex := seqs (ls.map (part s f))

theorem builds_row (h : ∀ l ∈ ls, l.Inert) :
    Builds 3 (ls.flatMap (tokens s f)) (ls.map (part s f)) := by
  induction ls with
  | nil => exact Builds.nil.mono (Nat.zero_le 3)
  | cons l ls ih =>
    obtain ⟨hl, hls⟩ := List.forall_mem_cons.1 h
    have hb : Builds 3 (l.tokens s f) [l.part s f] := by
      intro k hk
      have hd : k.outer.length + l.depth ≤ maxDepth :=
        Nat.le_trans (Nat.add_le_add_left l.depth_le _) hk
      rw [steps_tokens l (Nat.le_trans (Nat.le_add_right _ _) hk), effect_inert hl, if_pos hd]
      rfl
    exact hb.append (ih hls)

theorem looksAhead_part (l : Lexeme) : (l.part s f).looksAhead = false := by
  cases l with
  | separator lenient => cases s <;> cases lenient <;> rfl
  | char | dot | dots | run | globstar | opening | bar | closing => rfl

theorem matches_row_cons : (row s f (l :: ls)).Matches u w v ↔
    ∃ w₁ w₂, w = w₁ ++ w₂ ∧ (l.part s f).Matches u w₁ (w₂ ++ v) ∧
      (row s f ls).Matches (u ++ w₁) w₂ v :=
  matches_seqs_cons _ _ u w v

/-! ### Demands -/

theorem demand_cons : demand s (l :: ls) = demand s ls + if l.demands s then 1 else 0 :=
  List.countP_cons

theorem demand_append : demand s (ls ++ ls') = demand s ls + demand s ls' := List.countP_append

theorem mem_of_demands (hl : l.demands s = true) (hm : (l.part s f).Matches u w v) :
    s.char ∈ w := by
  have hset : ∀ {u w v}, (set (.single s.char)).Matches u w v → s.char ∈ w := by
    rintro u w v ⟨c, rfl, hc⟩
    rw [CharSet.contains_single.1 hc]
    exact List.mem_singleton_self _
  cases l with
  | separator lenient =>
    cases s with
    | posix =>
      cases lenient with
      | false => exact hset hm
      | true => cases hl
    | windows =>
      -- the first turn takes a separator
      obtain ⟨n, hn, -, hr⟩ := hm
      obtain ⟨n, rfl⟩ := Nat.exists_eq_add_of_le' hn
      obtain ⟨w₁, w₂, rfl, h₁, -⟩ := hr
      exact List.mem_append_left _ (hset h₁)
  | char | dot | dots | run | globstar | opening | bar | closing => cases hl

/-- **A text that a row matches has the separators that the row demands.** -/
theorem demand_le_count (h : (row s f ls).Matches u w v) : demand s ls ≤ w.count s.char := by
  induction ls generalizing u w with
  | nil => exact Nat.zero_le _
  | cons l ls ih =>
    obtain ⟨w₁, w₂, rfl, h₁, h₂⟩ := matches_row_cons.1 h
    rw [demand_cons, List.count_append, Nat.add_comm]
    refine Nat.add_le_add ?_ (ih h₂)
    by_cases hl : l.demands s = true
    · rw [if_pos hl]
      exact List.count_pos_iff.2 (mem_of_demands hl h₁)
    · rw [if_neg hl]
      exact Nat.zero_le _

/-- A lexeme matches a text with no more separators than it demands. -/
theorem exists_least_part (hf : f.ignoreCase = false) (hd : f.dotAll = false)
    (hl : l ≠ .char s.char) :
    ∃ w, w.count s.char = (if l.demands s then 1 else 0) ∧ ∀ u v, (l.part s f).Matches u w v := by
  have hnone : ∀ (hi : Option Nat) (greedy : Bool) (r : Regex) (u v : List Char),
      (Regex.times 0 hi greedy r).Matches u [] v := fun hi greedy r u v =>
    ⟨0, Nat.le_refl _, fun h _ => Nat.zero_le h, rfl⟩
  have hset : ∀ u v, (set (.single s.char)).Matches u [s.char] v := fun u v =>
    ⟨s.char, rfl, CharSet.contains_single.2 rfl⟩
  cases l with
  | char c =>
    have hc : c ≠ s.char := fun h => hl (h ▸ rfl)
    refine ⟨[c], List.count_eq_zero.2 (by simpa using Ne.symm hc), fun u v => ⟨c, rfl, ?_⟩⟩
    rw [letter_eq_single hf, CharSet.contains_single]
  | dot =>
    refine ⟨['a'], ?_, fun u v => ⟨'a', rfl, (Token.contains_dotSet hd 'a').2 (by decide)⟩⟩
    cases s <;> rfl
  | dots | run | globstar => exact ⟨[], rfl, hnone none true _⟩
  | opening | bar | closing => exact ⟨[], rfl, fun u v => rfl⟩
  | separator lenient =>
    cases s with
    | posix =>
      cases lenient with
      | false => exact ⟨['/'], rfl, hset⟩
      | true => exact ⟨[], rfl, hnone _ _ _⟩
    | windows =>
      have hdemands : (separator lenient).demands .windows = true := Bool.or_true _
      refine ⟨['\\'], by rw [if_pos hdemands]; rfl, fun u v => ?_⟩
      exact ⟨1, Nat.le_refl _, nofun, ['\\'], [], rfl, hset u _, rfl⟩

/-- **A row matches a text with no more separators than it demands.** -/
theorem exists_least (hf : f.ignoreCase = false) (hd : f.dotAll = false)
    (hls : ∀ l ∈ ls, l ≠ .char s.char) :
    ∃ w, w.count s.char = demand s ls ∧ ∀ u v, (row s f ls).Matches u w v := by
  induction ls with
  | nil => exact ⟨[], rfl, fun u v => rfl⟩
  | cons l ls ih =>
    obtain ⟨hl, hls⟩ := List.forall_mem_cons.1 hls
    obtain ⟨w₁, hc₁, h₁⟩ := exists_least_part hf hd hl
    obtain ⟨w₂, hc₂, h₂⟩ := ih hls
    refine ⟨w₁ ++ w₂, ?_, fun u v => matches_row_cons.2 ⟨w₁, w₂, rfl, h₁ _ _, h₂ _ _⟩⟩
    rw [List.count_append, hc₁, hc₂, demand_cons, Nat.add_comm]

/-! ### Looser rows -/

/-- The first row differs from the second one only in separators: in more of them that may be left
out, or in some that stand for the same texts. -/
inductive Looser (s : Separator) : List Lexeme → List Lexeme → Prop
  | nil : Looser s [] []
  | cons (l : Lexeme) {ls ls' : List Lexeme} : Looser s ls ls' → Looser s (l :: ls) (l :: ls')
  /-- Under `posix` a lenient separator may be left out. -/
  | lenient (hs : s = .posix) {ls ls' : List Lexeme} :
      Looser s ls ls' → Looser s (separator true :: ls) ls'
  /-- Under `windows` a lenient separator is as good as any. -/
  | separator (hs : s = .windows) (a b : Bool) {ls ls' : List Lexeme} :
      Looser s ls ls' → Looser s (separator a :: ls) (separator b :: ls')

/-- **A looser row matches more.** -/
theorem Looser.matches (h : Looser s ls ls') (hm : (row s f ls').Matches u w v) :
    (row s f ls).Matches u w v := by
  induction h generalizing u w with
  | nil => exact hm
  | cons l h ih =>
    obtain ⟨w₁, w₂, rfl, h₁, h₂⟩ := matches_row_cons.1 hm
    exact matches_row_cons.2 ⟨w₁, w₂, rfl, h₁, ih h₂⟩
  | lenient hs h ih =>
    subst hs
    refine matches_row_cons.2 ⟨[], w, rfl, ⟨0, Nat.le_refl _, fun h _ => Nat.zero_le h, rfl⟩, ?_⟩
    rw [List.append_nil]
    exact ih hm
  | separator hs a b h ih =>
    subst hs
    obtain ⟨w₁, w₂, rfl, h₁, h₂⟩ := matches_row_cons.1 hm
    exact matches_row_cons.2 ⟨w₁, w₂, rfl, h₁, ih h₂⟩

end Lexeme

end PathGlob
