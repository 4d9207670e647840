import Mathlib.Data.List.Chain
import PathGlob.Proofs.Glob.Boundary
import PathGlob.Proofs.Glob.Effect

/-!
# Segments cut from a pattern

A segment is read with a stack of open groups of its own. All lexemes but a bar outside groups have
the same effect whatever comes first in the whole regex, so a segment that begins and ends where
nothing is open is a regex if the whole pattern is one, and its parts are among those of the
pattern. And a pattern is cut inside a group only if some segment leaves a group open or closes one
too many.

* `Frames.Rests`: two stacks of open groups are alike but for what comes first in the whole regex;
* `Lexeme.effect_rests`: all lexemes but a bar outside groups have the same effect on both;
* `Lexeme.InStep`: a segment is read alongside the pattern; `InStep.step` is one lexeme;
* `Lexeme.CutOutside`: a row of lexemes is cut only where nothing is open;
* `Lexeme.exists_effects_of_cutOutside`: then the segments of a regex are regexes;
* `Lexeme.cutOutside_of_balanced`: and otherwise one of them is not balanced;
* `Lexeme.cut_globstar`: a segment that ends with a globstar consists of it.
-/

namespace PathGlob

open Regex

/-! ### What comes first -/

namespace Regex

/-- The frames differ only in the whole regex, which has a single branch so far, in one of them with
the parts `q` at its beginning. -/
inductive Rests (q : List Regex) : List Frame → List Frame → Prop
  | base (ps : List Regex) : Rests q [{ parts := ps }] [{ parts := ps ++ q }]
  | cons (i : Frame) {is js : List Frame} : Rests q is js → Rests q (i :: is) (i :: js)

namespace Rests

variable {q : List Regex} {i j : Frame} {is js : List Frame}

theorem length_eq (h : Rests q is js) : is.length = js.length := by
  induction h with
  | base ps => rfl
  | cons i h ih => rw [List.length_cons, List.length_cons, ih]

theorem prepend (h : Rests q (i :: is) (j :: js)) (rs : List Regex) :
    Rests q ({ i with parts := rs ++ i.parts } :: is)
      ({ j with parts := rs ++ j.parts } :: js) := by
  cases h with
  | base ps =>
    rw [← List.append_assoc]
    exact .base _
  | cons i h => exact .cons _ h

end Rests

/-- Two stacks of open groups are alike but for the parts `q` at the beginning of the whole
regex. -/
def Frames.Rests (q : List Regex) (k k' : Frames) : Prop :=
  Regex.Rests q (k.inner :: k.outer) (k'.inner :: k'.outer)

theorem Frames.rests_empty (q : List Regex) : Frames.Rests q {} { inner := { parts := q } } :=
  .base []

/-- Where nothing is open, only the parts of the whole regex are left. -/
theorem Frames.Rests.eq_of_outer {q : List Regex} {k k' : Frames} (h : k.Rests q k')
    (ho : k'.outer = []) :
    ∃ ps, k = { inner := { parts := ps } } ∧ k' = { inner := { parts := ps ++ q } } := by
  obtain ⟨i, is⟩ := k
  obtain ⟨j, js⟩ := k'
  obtain rfl : js = [] := ho
  cases h with
  | base ps => exact ⟨ps, rfl, rfl⟩
  | cons i h => cases h

theorem Frames.Rests.top {q : List Regex} {k k' : Frames} (h : k.Rests q k') (f : Flags) :
    (f.top k).Rests q (f.top k') := by
  unfold Flags.top
  split
  · exact Regex.Rests.prepend h [_]
  · exact h

theorem Frames.Rests.finish_eq {q : List Regex} {k k' : Frames} (h : k.Rests q k') :
    k'.finish = if k.outer = [] then .ok (seqs (q.reverse ++ k.inner.parts.reverse))
      else .error .unclosedGroup := by
  obtain ⟨i, is⟩ := k
  obtain ⟨j, js⟩ := k'
  cases h with
  | base ps =>
    rw [if_pos rfl, ← List.reverse_append]
    rfl
  | cons i h =>
    rcases is with _ | ⟨i', is⟩
    · cases h
    rcases js with _ | ⟨j', js⟩
    · cases h
    rw [if_neg (List.cons_ne_nil _ _)]
    rfl

end Regex

namespace Lexeme

variable {s : Separator} {f : Flags} {q : List Regex} {k k' : Frames}

/-- **What comes first in the whole regex makes no difference** to any lexeme but a bar outside
groups. -/
theorem effect_rests (h : k.Rests q k') {l : Lexeme} (hl : l = .bar → k.outer ≠ []) :
    Agree (Frames.Rests q) (l.effect s f k) (l.effect s f k') := by
  have hlen : k.outer.length = k'.outer.length := Nat.succ.inj (Rests.length_eq h)
  cases l using inert_cases with
  | inert l hl =>
    rw [effect_inert hl, effect_inert hl, hlen]
    split
    · exact .ok (Rests.prepend h [l.part s f])
    · exact .error _
  | opening g =>
    rw [effect, effect, Frames.openGroup, Frames.openGroup, hlen]
    split
    · exact .ok (.cons _ h)
    · exact .error _
  | bar =>
    obtain ⟨i, is⟩ := k
    obtain ⟨j, js⟩ := k'
    cases h with
    | base ps => exact absurd rfl (hl rfl)
    | cons i h => exact .ok (.cons _ h)
  | closing g =>
    obtain ⟨i, is⟩ := k
    obtain ⟨j, js⟩ := k'
    cases h with
    | base ps => exact .error _
    | cons i h =>
      -- there is a frame around the group in both stacks
      rcases is with _ | ⟨i', is⟩
      · cases h
      rcases js with _ | ⟨j', js⟩
      · cases h
      rw [effect, effect]
      split
      · exact .error _
      · exact .ok (h.prepend _)

/-- The bars stand where something is open, if `n` groups are open before the lexemes. -/
def BarsInside (n : Int) : List Lexeme → Prop
  | [] => True
  | l :: ls => (l = .bar → n ≠ 0) ∧ BarsInside (n + l.balance) ls

/-- **What comes first in the whole regex makes no difference** to lexemes without bars outside
groups. -/
theorem effects_rests {ls : List Lexeme} (h : k.Rests q k') (hb : BarsInside k.outer.length ls) :
    Agree (Frames.Rests q) (effects s f k ls) (effects s f k' ls) := by
  induction ls generalizing k k' with
  | nil => exact .ok h
  | cons l ls ih =>
    obtain ⟨hl, hls⟩ := hb
    have hbar : l = .bar → k.outer ≠ [] := fun hm hk => hl hm (by rw [hk]; rfl)
    refine (effect_rests h hbar).bind fun k₁ k₁' hk _ hr => ih hr ?_
    rw [length_outer_effect hk]
    exact hls

section Patterns

variable {ls : List Lexeme} (hb : BarsInside 0 ls)

include hb

theorem read_flatMap_write_of_barsInside :
    Regex.read (f.inlineGroup ++ ls.flatMap (write s)) =
      (effects s f.inlined {} ls).bind fun k =>
        if k.outer = [] then .ok (seqs k.inner.parts.reverse) else .error .unclosedGroup := by
  have hr : Agree _ (effects s f.inlined {} ls) _ := effects_rests (Frames.rests_empty []) hb
  rw [read_flatMap_write]
  generalize effects s f.inlined {} ls = a at *
  cases hr with
  | error e => rfl
  | ok h => exact h.finish_eq

theorem read_pattern_of_barsInside :
    Regex.read (f.inlineGroup ++ f.pattern (ls.flatMap (write s))) =
      (effects s f.inlined {} ls).bind fun k =>
        if k.outer = [] then
          .ok (seqs (f.base.inner.parts.reverse ++ (f.top k).inner.parts.reverse))
        else .error .unclosedGroup := by
  have hr : Agree _ (effects s f.inlined {} ls) (effects s f.inlined f.base ls) :=
    effects_rests (Frames.rests_empty f.base.inner.parts) hb
  rw [read_pattern]
  generalize effects s f.inlined {} ls = a at *
  generalize effects s f.inlined f.base ls = b at *
  cases hr with
  | error e => rfl
  | ok h =>
    refine (h.top f).finish_eq.trans ?_
    rw [Flags.outer_top]
    rfl

end Patterns

end Lexeme

namespace Scan

variable {o : Options} {b : Option Char} {x : Context} {skip : Nat} {cs : List Char}

/-- A scan writes a bar only where something is open. -/
theorem barsInside_moves :
    Lexeme.BarsInside x.opened ((moves o b x skip cs).map Move.lexeme) := by
  induction cs generalizing b x skip with
  | nil => trivial
  | cons c cs ih =>
    cases skip with
    | zero =>
      have ha : (move o b x c cs).Allowed x := allowed_move
      refine ⟨fun hm => ?_, ?_⟩
      · exact_mod_cast Move.opened_ne_zero ha hm
      · rw [← Move.opened_context ha]
        exact ih
    | succ skip => exact ih

theorem barsInside_lexemesOf (o : Options) (glob : List Char) :
    Lexeme.BarsInside 0 (lexemesOf o glob) :=
  barsInside_moves (x := {})

end Scan

/-! ### Rows of lexemes -/

namespace Lexeme

variable {s : Separator} {f : Flags} {k k' : Frames}

theorem effects_append (ls ls' : List Lexeme) (k : Frames) :
    effects s f k (ls ++ ls') = (effects s f k ls).bind (effects s f · ls') := by
  induction ls generalizing k with
  | nil => rfl
  | cons l ls ih =>
    rw [List.cons_append, effects, effects]
    cases l.effect s f k with
    | error e => rfl
    | ok k' => exact ih k'

/-- What a row of lexemes adds to the number of open groups. -/
def total : List Lexeme → Int
  | [] => 0
  | l :: ls => l.balance + total ls

theorem total_concat (ls : List Lexeme) (l : Lexeme) :
    total (ls ++ [l]) = total ls + l.balance := by
  induction ls with
  | nil => simp [total]
  | cons l' ls ih => rw [List.cons_append, total, total, ih, Int.add_assoc]

theorem length_outer_effects {ls : List Lexeme} (h : effects s f k ls = .ok k') :
    (k'.outer.length : Int) = k.outer.length + total ls := by
  induction ls generalizing k with
  | nil =>
    cases h
    exact (Int.add_zero _).symm
  | cons l ls ih =>
    rw [effects] at h
    cases hl : l.effect s f k with
    | error e =>
      rw [hl] at h
      cases h
    | ok k₁ =>
      rw [hl] at h
      have := ih h
      have := length_outer_effect hl
      rw [total]
      omega

/-- The lexeme ends a segment. -/
def Ends : Lexeme → Prop
  | separator _ | globstar => True
  | _ => False

instance : DecidablePred Ends := fun l =>
  match l with
  | separator _ | globstar => .isTrue trivial
  | char _ | dot | dots | run | opening _ | bar | closing _ => .isFalse id

theorem Ends.inert {l : Lexeme} (h : l.Ends) : l.Inert := by
  cases l with
  | separator | globstar => trivial
  | char | dot | dots | run | opening | bar | closing => exact h.elim

theorem cut_of_not_ends {ls opened : List Lexeme} (h : ∀ l ∈ ls, ¬l.Ends) :
    cut opened ls = [(opened ++ ls, false)] := by
  induction ls generalizing opened with
  | nil => simp [cut]
  | cons l ls ih =>
    obtain ⟨hl, hls⟩ := List.forall_mem_cons.1 h
    have hnext : cut (opened ++ [l]) ls = [(opened ++ [l] ++ ls, false)] := ih hls
    rw [List.append_assoc] at hnext
    cases l with
    | separator | globstar => exact absurd trivial hl
    | char | dot | dots | run | opening | bar | closing => exact hnext

/-- The lexemes end segments only where nothing is open, if `n` groups are open before them. -/
def CutOutside (n : Int) : List Lexeme → Prop
  | [] => True
  | l :: ls => (l.Ends → n = 0) ∧ CutOutside (n + l.balance) ls

variable {bs : List Regex} {opened ls : List Lexeme}

/-- The lexemes `opened` of a segment, which begins with the parts `bs`, have brought it to open
groups that are alike to those of the pattern, `k`, but for what comes first. -/
def InStep (s : Separator) (f : Flags) (bs : List Regex) (opened : List Lexeme) (k : Frames) :
    Prop :=
  ∃ (k₀ k₁ : Frames) (q : List Regex), effects s f { inner := { parts := bs } } opened = .ok k₁ ∧
    k₀.Rests bs k₁ ∧ k₀.Rests q k

namespace InStep

theorem step {l : Lexeme} (h : InStep s f bs opened k) (hbar : l = .bar → k.outer ≠ [])
    (hl : l.effect s f k = .ok k') : InStep s f bs (opened ++ [l]) k' := by
  obtain ⟨k₀, k₁, q, hk₁, h₁, h⟩ := h
  have hbar' : l = .bar → k₀.outer ≠ [] := fun hm hk => by
    have hlen : k₀.outer.length = k.outer.length := Nat.succ.inj (Rests.length_eq h)
    rw [hk] at hlen
    exact hbar hm (List.length_eq_zero_iff.1 hlen.symm)
  have ha : Agree _ (l.effect s f k₀) (l.effect s f k) := effect_rests h hbar'
  have ha₁ : Agree _ (l.effect s f k₀) (l.effect s f k₁) := effect_rests h₁ hbar'
  rw [hl] at ha
  generalize l.effect s f k₀ = a at *
  cases ha with
  | ok hr =>
    obtain ⟨k₂, hk₂, hr₁⟩ := ha₁.exists_ok
    refine ⟨_, k₂, q, ?_, hr₁, hr⟩
    rw [effects_append, hk₁]
    simp [Except.bind, effects, hk₂]

theorem restart (h : InStep s f bs opened k) (ho : k.outer = []) : InStep s f bs [] k := by
  obtain ⟨k₀, -, q, -, -, h⟩ := h
  obtain ⟨ps, -, rfl⟩ := h.eq_of_outer ho
  exact ⟨{}, _, ps ++ q, rfl, Frames.rests_empty bs, Frames.rests_empty _⟩

theorem exists_effects (h : InStep s f bs opened k) (ho : k.outer = []) :
    ∃ ps, effects s f { inner := { parts := bs } } opened =
        .ok { inner := { parts := ps ++ bs } } ∧ ps ⊆ k.inner.parts := by
  obtain ⟨k₀, k₁, q, hk₁, h₁, h⟩ := h
  obtain ⟨ps, rfl, rfl⟩ := h.eq_of_outer ho
  obtain ⟨j, js⟩ := k₁
  cases h₁ with
  | base ps => exact ⟨ps, hk₁, List.subset_append_left ps q⟩
  | cons i h => cases h

theorem parts_subset (h : InStep s f bs opened k) (ho : k.outer = [])
    (hb : BarsInside k.outer.length ls) (he : effects s f k ls = .ok k') (ho' : k'.outer = []) :
    k.inner.parts ⊆ k'.inner.parts := by
  obtain ⟨k₀, -, q, -, -, h⟩ := h
  obtain ⟨ps, -, rfl⟩ := h.eq_of_outer ho
  have hr : Agree _ (effects s f {} ls) _ := effects_rests (Frames.rests_empty (ps ++ q)) hb
  rw [he] at hr
  generalize effects s f {} ls = a at hr
  cases hr with
  | ok hr =>
    obtain ⟨ps', -, rfl⟩ := hr.eq_of_outer ho'
    exact List.subset_append_right ps' _

end InStep

/-- **A pattern that is cut outside all groups only has segments that are regexes**, with parts of
the pattern. -/
theorem exists_effects_of_cutOutside (h₀ : InStep s f bs opened k)
    (hc : CutOutside k.outer.length ls) (hb : BarsInside k.outer.length ls)
    (h : effects s f k ls = .ok k') (ho : k'.outer = []) :
    ∀ c ∈ cut opened ls, ∃ ps, effects s f { inner := { parts := bs } } c.1 =
      .ok { inner := { parts := ps ++ bs } } ∧ ps ⊆ k'.inner.parts := by
  induction ls generalizing k opened with
  | nil =>
    cases h
    intro c hmem
    obtain rfl := List.mem_singleton.1 hmem
    exact h₀.exists_effects ho
  | cons l ls ih =>
    obtain ⟨hl, hc⟩ := hc
    have hstay : k.outer = [] → k.inner.parts ⊆ k'.inner.parts := fun hk =>
      h₀.parts_subset hk hb h ho
    rw [effects] at h
    cases hk₁ : l.effect s f k with
    | error e =>
      rw [hk₁] at h
      cases h
    | ok k₁ =>
      rw [hk₁] at h
      have h₁ := h₀.step (fun hm hk => hb.1 hm (by rw [hk]; rfl)) hk₁
      have hlen := length_outer_effect hk₁
      have hc₁ : CutOutside k₁.outer.length ls := hlen ▸ hc
      have hb₁ : BarsInside k₁.outer.length ls := hlen ▸ hb.2
      -- nothing is open on either side of a lexeme that ends a segment
      have hout : l.Ends → k.outer = [] ∧ k₁.outer = [] := by
        intro hends
        have hzero := hl hends
        rw [balance_inert hends.inert] at hlen
        exact ⟨List.length_eq_zero_iff.1 (by omega), List.length_eq_zero_iff.1 (by omega)⟩
      cases l with
      | separator lenient =>
        obtain ⟨hk, ho₁⟩ := hout trivial
        intro c hmem
        rcases List.mem_append.1 hmem with hmem | hmem
        · split at hmem
          · cases hmem
          · obtain rfl := List.mem_singleton.1 hmem
            obtain ⟨ps, hps, hsub⟩ := h₀.exists_effects hk
            exact ⟨ps, hps, fun r hr => hstay hk (hsub hr)⟩
        · exact ih (h₁.restart ho₁) hc₁ hb₁ h c hmem
      | globstar =>
        obtain ⟨-, ho₁⟩ := hout trivial
        intro c hmem
        rcases List.mem_cons.1 hmem with rfl | hmem
        · obtain ⟨ps, hps, hsub⟩ := h₁.exists_effects ho₁
          exact ⟨ps, hps, fun r hr => h₁.parts_subset ho₁ hb₁ h ho (hsub hr)⟩
        · exact ih (h₁.restart ho₁) hc₁ hb₁ h c hmem
      | char | dot | dots | run | opening | bar | closing => exact ih h₁ hc₁ hb₁ h

/-- **Segments that are balanced are cut outside all groups.** -/
theorem cutOutside_of_balanced (h : ∀ c ∈ cut opened ls, total c.1 = 0) :
    CutOutside (total opened) ls := by
  induction ls generalizing opened with
  | nil => trivial
  | cons l ls ih =>
    cases l with
    | separator lenient =>
      have hopened : total opened = 0 := by
        by_cases ho : opened = []
        · rw [ho]
          rfl
        · exact h (opened, false) (List.mem_append_left _ (by simp [ho]))
      refine ⟨fun _ => hopened, ?_⟩
      rw [hopened]
      exact ih fun c hc => h c (List.mem_append_right _ hc)
    | globstar =>
      have hopened : total opened = 0 := by
        have := h (opened ++ [globstar], true) List.mem_cons_self
        rwa [total_concat, balance_inert (show Inert globstar from trivial), Int.add_zero] at this
      refine ⟨fun _ => hopened, ?_⟩
      rw [hopened]
      exact ih fun c hc => h c (List.mem_cons_of_mem _ hc)
    | char | dot | dots | run | opening | bar | closing =>
      refine ⟨False.elim, ?_⟩
      rw [← total_concat]
      exact ih h

/-- What may stand before what: a globstar is at the beginning of a segment. -/
def Precedes (l l' : Lexeme) : Prop := l' = .globstar → l.Ends

/-- A segment that ends with a globstar consists of it. -/
theorem cut_globstar {l : Lexeme} (hc : (l :: ls).IsChain Precedes) (hl : l.Ends → opened = []) :
    ∀ k ∈ cut opened ls, k.2 = true → k.1 = [.globstar] := by
  induction ls generalizing l opened with
  | nil =>
    intro k hk hglobstar
    rw [List.mem_singleton.1 hk] at hglobstar
    cases hglobstar
  | cons l' ls ih =>
    rw [List.isChain_cons_cons] at hc
    intro k hk hglobstar
    cases l' with
    | separator lenient =>
      rcases List.mem_append.1 hk with hk | hk
      · split at hk
        · cases hk
        · rw [List.mem_singleton.1 hk] at hglobstar
          cases hglobstar
      · exact ih hc.2 (fun _ => rfl) k hk hglobstar
    | globstar =>
      rcases List.mem_cons.1 hk with rfl | hk
      · rw [hl (hc.1 rfl)]
        rfl
      · exact ih hc.2 (fun _ => rfl) k hk hglobstar
    | char | dot | dots | run | opening | bar | closing =>
      exact ih hc.2 False.elim k hk hglobstar

theorem ends_piece_iff {l : Lexeme} : (l.piece s).Ends ↔ l.Ends := by
  cases l <;> exact Iff.rfl

end Lexeme

/-- **A globstar stands at the beginning of a segment** in the lexemes of a scan, if `l` comes
before them. -/
theorem Scan.isChain_lexemes {o : Options} {b : Option Char} {x : Context} {skip : Nat}
    {cs : List Char} {l : Lexeme} {ls : List Lexeme}
    (hl : ResumesAtBoundary o.separator b skip cs → l.Ends)
    (h : (run o b x skip cs).pieces = ls.map (Lexeme.piece o.separator)) :
    (l :: ls).IsChain Lexeme.Precedes := by
  have hpieces : (l.piece o.separator :: (run o b x skip cs).pieces).IsChain Piece.Precedes :=
    isChain_pieces fun hb => Lexeme.ends_piece_iff.2 (hl hb)
  rw [h, ← List.map_cons] at hpieces
  refine ((List.isChain_map _).1 hpieces).imp fun l l' hp hm => ?_
  exact Lexeme.ends_piece_iff.1 (hp (by rw [hm]; rfl))

end PathGlob
