import PathGlob.Proofs.Extended
import PathGlob.Proofs.Glob.Moves

/-!
# What a lexeme does to the open groups

A regex is built with a stack of open groups, and a lexeme is a short program for it. An inert
lexeme adds one part to the innermost group, if groups may be nested deep enough for it; the others
open a group, begin a new branch, or close a group and repeat it.

* `Lexeme.effect` says all of this, and `Lexeme.steps_tokens` that the tokens of the lexeme do it;
* `Lexeme.steps_flatMap_tokens` says the same of a row of lexemes;
* `Lexeme.read_pattern`: the regex of a pattern written from lexemes;
* `Glob.exists_read_iff_effects`: the pattern of a glob is a regex exactly if the effects of its
  lexemes leave no group open.
-/

namespace PathGlob

/-- A quantifier follows the group. -/
def Group.Counted : Group → Prop
  | .marked .negated | .bare => False
  | _ => True

instance : DecidablePred Group.Counted := fun g => by
  cases g with
  | bare => exact instDecidableFalse
  | marked op => cases op <;> first | exact instDecidableFalse | exact instDecidableTrue

namespace Lexeme

open Regex

variable (s : Separator) (f : Flags)

/-- The regex of any run of characters within one segment. -/
def runRegex : Regex := .times 0 none true (.set (s.others f.ignoreCase))

/-- The regex of one turn of a globstar. -/
def turnRegex : Regex :=
  .seq (runRegex s f)
    (.group (.alt (.set (.single s.char)) (.edge (Token.endEdge f))))

/-- The part that an inert lexeme adds. -/
def part : Lexeme → Regex
  | char c => .set (letter s f c)
  | dot => .set (Token.dotSet f)
  | dots => .times 0 none true (.set (Token.dotSet f))
  | run => .group (runRegex s f)
  | separator lenient =>
    match s, lenient with
    | .posix, false => .set (.single s.char)
    | .posix, true => .times 0 (some 1) true (.set (.single s.char))
    | .windows, lenient => .times 1 none (!lenient) (.set (.single s.char))
  | globstar => .group (.times 0 none true (.group (turnRegex s f)))
  | opening _ | bar | closing _ => .empty

/-- How deep groups are nested in the part of an inert lexeme. -/
def depth : Lexeme → Nat
  | run => 1
  | globstar => 3
  | _ => 0

/-- The parts that a group closed by `g` becomes in the group around it, first one first. -/
def closed (g : Group) (r : Regex) : List Regex :=
  if g = .marked .negated then [r, .group (runRegex s f)] else [r.counted g]

/-- What a lexeme does to the open groups. -/
def effect (k : Frames) : Lexeme → Except RegexError Frames
  | opening g => k.openGroup (g == .marked .negated)
  | bar => .ok (k.modify Frame.split)
  | closing g =>
    match k with
    | ⟨_, []⟩ => .error .unopenedGroup
    | ⟨i, k :: ks⟩ =>
      if i.negated = true ∧ g.Counted then .error .nothingToRepeat
      else .ok ⟨{ k with parts := (closed s f g i.close).reverse ++ k.parts }, ks⟩
  | l =>
    if k.outer.length + l.depth ≤ maxDepth then .ok (k.modify (·.add (l.part s f)))
    else .error .tooDeep

variable {s f}

/-- A lexeme is inert, or one of three others. -/
@[elab_as_elim]
theorem inert_cases {P : Lexeme → Prop} (inert : ∀ l : Lexeme, l.Inert → P l)
    (opening : ∀ g, P (.opening g)) (bar : P .bar) (closing : ∀ g, P (.closing g)) (l : Lexeme) :
    P l := by
  cases l with
  | opening g => exact opening g
  | bar => exact bar
  | closing g => exact closing g
  | char | dot | dots | run | separator | globstar => exact inert _ trivial

theorem effect_inert {l : Lexeme} (hl : l.Inert) (k : Frames) : l.effect s f k =
    if k.outer.length + l.depth ≤ maxDepth then .ok (k.modify (·.add (l.part s f)))
    else .error .tooDeep := by
  cases l with
  | opening | bar | closing => exact hl.elim
  | char | dot | dots | run | separator | globstar => rfl

theorem steps_openGroup_cons (k : Frames) (ts : List Token) :
    k.steps (.openGroup :: ts) =
      if k.outer.length < maxDepth then Frames.steps ⟨{}, k.inner :: k.outer⟩ ts
      else .error .tooDeep := by
  rw [Frames.steps, Frames.step, Frames.openGroup]
  split <;> rfl

theorem steps_run (k : Frames) : k.steps (runTokens s f) =
    if k.outer.length + 1 ≤ maxDepth then .ok (k.modify (·.add (part s f .run)))
    else .error .tooDeep := by
  rw [runTokens, steps_openGroup_cons]
  rfl

theorem steps_globstar (k : Frames) : k.steps (tokens s f .globstar) =
    if k.outer.length + 3 ≤ maxDepth then .ok (k.modify (·.add (part s f .globstar)))
    else .error .tooDeep := by
  -- three groups are opened inside one another
  by_cases h : k.outer.length + 3 ≤ maxDepth
  · have h₁ : k.outer.length < maxDepth := by omega
    have h₂ : k.outer.length + 1 < maxDepth := by omega
    have h₃ : k.outer.length + 1 + 1 < maxDepth := by omega
    rw [if_pos h, tokens, steps_openGroup_cons, if_pos h₁, steps_openGroup_cons, List.length_cons,
      if_pos h₂]
    change Frames.steps ⟨{ parts := [runRegex s f] }, {} :: k.inner :: k.outer⟩
      (.openGroup :: _) = _
    rw [steps_openGroup_cons, List.length_cons, List.length_cons, if_pos h₃]
    rfl
  · rw [if_neg h, tokens, steps_openGroup_cons]
    split
    · rw [steps_openGroup_cons, List.length_cons]
      split
      · change Frames.steps ⟨{ parts := [runRegex s f] }, {} :: k.inner :: k.outer⟩
          (.openGroup :: _) = _
        rw [steps_openGroup_cons, List.length_cons, List.length_cons, if_neg (by omega)]
      · rfl
    · rfl

theorem steps_closing (g : Group) {k : Frames} (hk : k.outer.length ≤ maxDepth) :
    k.steps (tokens s f (.closing g)) = effect s f k (.closing g) := by
  obtain ⟨i, _ | ⟨k, ks⟩⟩ := k
  · rfl
  · -- the closed group is what a quantifier repeats, unless it is a lookahead
    have hclose : Frames.steps ⟨i, k :: ks⟩ (tokens s f (.closing g)) =
        Frames.steps ⟨k.add i.close, ks⟩ (quantifier s f g) := rfl
    rw [hclose]
    cases g with
    | bare => simp [quantifier, Frames.steps, effect, Group.Counted, closed, Frame.add, counted]
    | marked op =>
      cases op with
      | negated =>
        have hk' : ks.length + 1 ≤ maxDepth := hk
        rw [quantifier, steps_run, if_pos hk']
        simp [effect, Group.Counted, closed, Frame.add, Frames.modify, part]
      | atMostOne | anyNumber | atLeastOne | exactlyOne =>
        cases hn : i.negated <;>
          simp [quantifier, Frames.steps, Frames.step, Frame.repeatLast, Frame.close, hn, effect,
            Group.Counted, closed, Frame.add, counted, Except.map, Except.bind]

/-- **The tokens of a lexeme have its effect.** -/
theorem steps_tokens (l : Lexeme) {k : Frames} (hk : k.outer.length ≤ maxDepth) :
    k.steps (l.tokens s f) = l.effect s f k := by
  cases l with
  | char c | dot => exact (if_pos hk).symm
  | dots => exact (if_pos hk).symm
  | separator lenient =>
    cases s <;> cases lenient <;> exact (if_pos hk).symm
  | run => exact steps_run k
  | globstar => exact steps_globstar k
  | bar => rfl
  | closing g => exact steps_closing g hk
  | opening g =>
    have hstep : ∀ t, k.steps [t] = k.step t := by
      intro t
      rw [Frames.steps]
      cases k.step t <;> rfl
    cases g with
    | bare => exact hstep _
    | marked op => cases op <;> exact hstep _

theorem length_outer_effect_le {l : Lexeme} {k k' : Frames} (hk : k.outer.length ≤ maxDepth)
    (h : l.effect s f k = .ok k') : k'.outer.length ≤ maxDepth := by
  cases l using inert_cases with
  | inert l hl =>
    rw [effect_inert hl] at h
    split at h
    · cases h; exact hk
    · cases h
  | opening g =>
    rw [effect, Frames.openGroup] at h
    split at h
    · cases h
      assumption
    · cases h
  | bar => cases h; exact hk
  | closing g =>
    obtain ⟨i, _ | ⟨k, ks⟩⟩ := k
    · cases h
    · rw [effect] at h
      split at h
      · cases h
      · cases h
        exact Nat.le_of_succ_le hk

/-- What a lexeme adds to the number of open groups. -/
def balance : Lexeme → Int
  | opening _ => 1
  | closing _ => -1
  | _ => 0

theorem balance_inert {l : Lexeme} (hl : l.Inert) : l.balance = 0 := by
  cases l <;> first | rfl | exact hl.elim

theorem length_outer_effect {l : Lexeme} {k k' : Frames} (h : l.effect s f k = .ok k') :
    (k'.outer.length : Int) = k.outer.length + l.balance := by
  cases l using inert_cases with
  | inert l hl =>
    rw [effect_inert hl] at h
    split at h
    · cases h
      simp [balance_inert hl, Frames.modify]
    · cases h
  | opening g =>
    rw [effect, Frames.openGroup] at h
    split at h
    · cases h
      simp [balance]
    · cases h
  | bar =>
    cases h
    simp [balance, Frames.modify]
  | closing g =>
    obtain ⟨i, _ | ⟨k, ks⟩⟩ := k
    · cases h
    · rw [effect] at h
      split at h
      · cases h
      · cases h
        simp [balance]

/-! ### Rows of lexemes -/

variable (s f) in
/-- What a row of lexemes does to the open groups. -/
def effects (k : Frames) : List Lexeme → Except RegexError Frames
  | [] => .ok k
  | l :: ls => (l.effect s f k).bind (effects · ls)

theorem steps_flatMap_tokens (ls : List Lexeme) {k : Frames} (hk : k.outer.length ≤ maxDepth) :
    k.steps (ls.flatMap (tokens s f)) = effects s f k ls := by
  induction ls generalizing k with
  | nil => rfl
  | cons l ls ih =>
    rw [List.flatMap_cons, Frames.steps_append, steps_tokens l hk, effects]
    cases h : l.effect s f k with
    | error e => rfl
    | ok k' => exact ih (length_outer_effect_le hk h)

theorem depth_le (l : Lexeme) : l.depth ≤ 3 := by
  cases l <;> simp [depth]

theorem effects_of_inert {ls : List Lexeme} (h : ∀ l ∈ ls, l.Inert) {d : Nat}
    (hd : ∀ l ∈ ls, l.depth ≤ d) {k : Frames} (hk : k.outer.length + d ≤ maxDepth) :
    effects s f k ls =
      .ok (k.modify fun i => { i with parts := (ls.map (part s f)).reverse ++ i.parts }) := by
  induction ls generalizing k with
  | nil => rfl
  | cons l ls ih =>
    obtain ⟨hl, hls⟩ := List.forall_mem_cons.1 h
    obtain ⟨hdepth, hdepths⟩ := List.forall_mem_cons.1 hd
    rw [effects, effect_inert hl, if_pos (Nat.le_trans (Nat.add_le_add_left hdepth _) hk)]
    refine (ih hls hdepths (k := k.modify (·.add (l.part s f))) hk).trans ?_
    simp [Frames.modify, Frame.add]

theorem nesting_part_le (l : Lexeme) : (l.part s f).nesting ≤ 7 := by
  have hdot : (Token.dotSet f).nesting ≤ 1 := (Token.nesting_dotSet f).trans_le (Bool.toNat_le _)
  have hend : (Token.endEdge f).nesting ≤ 1 := (Token.nesting_endEdge f).trans_le (Bool.toNat_le _)
  have hothers : (s.others f.ignoreCase).nesting ≤ 2 :=
    (s.nesting_others _).trans_le (Nat.succ_le_succ (Bool.toNat_le _))
  have hsep : (CharSet.single s.char).nesting = 0 := rfl
  cases l with
  | char c => exact (nesting_letter_le c).trans (by decide)
  | dot => exact hdot.trans (by decide)
  | dots => exact (Nat.succ_le_succ hdot).trans (by decide)
  | run => exact (Nat.add_le_add_right hothers 2).trans (by decide)
  | separator lenient => cases s <;> cases lenient <;> exact of_decide_eq_true rfl
  | globstar =>
    simp only [part, turnRegex, runRegex, nesting, isRow, isChoice]
    simp only [Bool.false_eq_true, ↓reduceIte]
    omega
  | opening | bar | closing => exact Nat.zero_le _

theorem nesting_part_lt (l : Lexeme) : (l.part s f).nesting < maxNesting :=
  Nat.lt_of_le_of_lt l.nesting_part_le (by decide)

/-! ### Reading -/

theorem fresh_nil : Token.Fresh [] := ⟨by simp, by simp⟩

/-- A row of lexemes begins with `(?` only where a lookahead opens. -/
theorem head?_of_flatMap_write {ls : List Lexeme} {rest : List Char}
    (h : ls.flatMap (write s) = '(' :: '?' :: rest) : rest.head? = some '!' := by
  cases ls with
  | nil => cases h
  | cons l ls =>
    rw [List.flatMap_cons] at h
    have hnext : ls.flatMap (write s) ≠ '?' :: rest := by
      intro hq
      have hf := (fresh_flatMap_write ls fresh_nil (s := s)).1
      rw [List.append_nil, hq] at hf
      exact hf rfl
    cases l with
    | char c =>
      simp only [write, piece, Piece.write] at h
      split at h
      · rename_i hc
        exact absurd (List.cons.inj h).1 (ne_of_plain hc (by cases s <;> decide))
      · cases h
    | separator lenient => cases s <;> cases h
    | dot | dots | run | globstar | bar => cases h
    | opening g =>
      have hopen : ['('] ++ ls.flatMap (write s) ≠ '(' :: '?' :: rest :=
        fun h => hnext (List.cons.inj h).2
      cases g with
      | bare => exact absurd h hopen
      | marked op =>
        cases op with
        | negated => cases h; rfl
        | atMostOne | anyNumber | atLeastOne | exactlyOne => exact absurd h hopen
    | closing g =>
      cases g with
      | bare => cases h
      | marked op => cases op <;> cases h

theorem readFlags_flatMap_write (ls : List Lexeme) :
    Regex.readFlags (ls.flatMap (write s)) = ({}, ls.flatMap (write s)) := by
  generalize h : ls.flatMap (write s) = cs
  unfold Regex.readFlags
  split
  · rename_i rest
    obtain ⟨tail, rfl⟩ := List.head?_eq_some_iff.1 (head?_of_flatMap_write h)
    rfl
  · rfl

theorem read_flatMap_write (ls : List Lexeme) (f : Flags) :
    Regex.read (f.inlineGroup ++ ls.flatMap (write s)) =
      (effects s f.inlined {} ls).bind Frames.finish := by
  have hr := readFrom_write ls (f := f.inlined) fresh_nil (s := s)
  rw [List.append_nil, Token.readFrom_nil, Token.onto_ok, List.append_nil] at hr
  simp only [Regex.read, f.readFlags_append (readFlags_flatMap_write ls), Token.read, hr]
  exact congrArg (Except.bind · Frames.finish) (steps_flatMap_tokens ls (k := {}) (Nat.zero_le _))

theorem read_anchored_flatMap_write (ls : List Lexeme) (f : Flags) :
    Regex.read (f.inlineGroup ++ anchored (ls.flatMap (write s))) =
      (effects s f.inlined { inner := { parts := [.edge (Token.startEdge f.inlined)] } } ls).bind
        fun k => (k.modify (·.add (.edge (Token.endEdge f.inlined)))).finish := by
  have hb := fresh_flatMap_write ls fresh_nil (s := s)
  rw [List.append_nil] at hb
  have hend : Token.Fresh ['$'] := ⟨by simp, by simp⟩
  have hr := Token.read_anchored hb (readFrom_write ls (f := f.inlined) hend)
  rw [Regex.read, f.readFlags_inlineGroup (by simp [anchored])]
  simp only [hr]
  change (Frames.steps { inner := { parts := [_] } } (ls.flatMap (tokens s f.inlined) ++ [_])).bind
    Frames.finish = _
  rw [Frames.steps_append, steps_flatMap_tokens ls (k := ⟨_, []⟩) (Nat.zero_le _)]
  cases effects s f.inlined { inner := { parts := [.edge (Token.startEdge f.inlined)] } } ls <;> rfl

end Lexeme

/-! ### Open constructs -/

/-- The number of groups and choices that are open. -/
def Context.opened (x : Context) : Nat := x.groups.length + x.braces

/-- A move opens and closes as much in the text as in the context. -/
theorem Move.opened_context {m : Move} {x : Context} (ha : m.Allowed x) :
    ((m.context x).opened : Int) = x.opened + m.lexeme.balance := by
  cases m with
  | inert l => simp [context, lexeme, Lexeme.balance_inert ha]
  | bar => simp [context, lexeme, Lexeme.balance]
  | openGroup g =>
    simp only [context, lexeme, Lexeme.balance, Context.opened, List.length_cons]
    omega
  | openChoice =>
    simp only [context, lexeme, Lexeme.balance, Context.opened]
    omega
  | closeGroup g =>
    obtain ⟨gs, hg⟩ := List.head?_eq_some_iff.1 ha
    simp only [context, lexeme, Lexeme.balance, Context.opened, hg, List.tail_cons,
      List.length_cons]
    omega
  | closeChoice =>
    have hb : x.braces ≠ 0 := ha
    simp only [context, lexeme, Lexeme.balance, Context.opened]
    omega

theorem Move.opened_ne_zero {m : Move} {x : Context} (ha : m.Allowed x) (hm : m.lexeme = .bar) :
    x.opened ≠ 0 := by
  cases m with
  | inert l =>
    obtain rfl : l = .bar := hm
    exact ha.elim
  | bar =>
    rw [Context.opened, ne_eq, Nat.add_eq_zero_iff, List.length_eq_zero_iff, not_and_or]
    exact ha
  | openGroup g | openChoice | closeGroup g | closeChoice => cases hm

/-! ### Simulations -/

/-- Two ways to take in a text fail alike, or come to open groups that are related by `R`. -/
inductive Agree (R : Regex.Frames → Regex.Frames → Prop) :
    Except RegexError Regex.Frames → Except RegexError Regex.Frames → Prop
  | ok {k k' : Regex.Frames} : R k k' → Agree R (.ok k) (.ok k')
  | error (e : RegexError) : Agree R (.error e) (.error e)

theorem Agree.bind {R R' : Regex.Frames → Regex.Frames → Prop}
    {a b : Except RegexError Regex.Frames} {g h : Regex.Frames → Except RegexError Regex.Frames}
    (hab : Agree R a b)
    (hgh : ∀ k k', a = .ok k → b = .ok k' → R k k' → Agree R' (g k) (h k')) :
    Agree R' (a.bind g) (b.bind h) := by
  cases hab with
  | ok hk => exact hgh _ _ rfl rfl hk
  | error e => exact .error e

theorem Agree.exists_ok {R : Regex.Frames → Regex.Frames → Prop} {k : Regex.Frames}
    {b : Except RegexError Regex.Frames} (h : Agree R (.ok k) b) : ∃ k', b = .ok k' ∧ R k k' := by
  cases h with
  | ok hk => exact ⟨_, rfl, hk⟩

/-- What comes of one way leaves no group open exactly if what comes of the other does. -/
theorem Agree.exists_closed_iff {R : Regex.Frames → Regex.Frames → Prop}
    {a b : Except RegexError Regex.Frames} (h : Agree R a b)
    (hR : ∀ k k', R k k' → k.outer.length = k'.outer.length) :
    (∃ k, a = .ok k ∧ k.outer = []) ↔ ∃ k, b = .ok k ∧ k.outer = [] := by
  cases h with
  | ok h => simp [← List.length_eq_zero_iff, hR _ _ h]
  | error e => simp

/-! ### Patterns -/

namespace Flags

open Regex

/-- The regex text of a pattern with a given body. -/
def pattern (f : Flags) (body : List Char) : List Char := if f.anchors then anchored body else body

/-- The groups that are open where the body of a pattern begins: none, but there may be an anchor
before it. -/
def base (f : Flags) : Frames :=
  { inner := { parts := if f.anchors then [.edge (Token.startEdge f.inlined)] else [] } }

/-- The groups that are open where a pattern ends, if `k` are open where its body ends. -/
def top (f : Flags) (k : Frames) : Frames :=
  if f.anchors then k.modify (·.add (.edge (Token.endEdge f.inlined))) else k

@[simp] theorem outer_base (f : Flags) : f.base.outer = [] := rfl

@[simp] theorem outer_top (f : Flags) (k : Frames) : (f.top k).outer = k.outer := by
  unfold top
  split <;> rfl

theorem parts_subset_top (f : Flags) (k : Frames) : k.inner.parts ⊆ (f.top k).inner.parts := by
  unfold top
  split
  · exact List.subset_cons_self _ _
  · exact List.Subset.refl _

theorem flat_base (f : Flags) : f.base.Flat := by
  unfold base
  split
  · exact ⟨List.forall_mem_singleton.2 rfl, nofun⟩
  · exact Frames.flat_empty

end Flags

theorem Regex.Frames.Flat.top {k : Regex.Frames} (h : k.Flat) (f : Flags) : (f.top k).Flat := by
  unfold Flags.top
  split
  · exact ⟨h.1.add rfl, h.2⟩
  · exact h

namespace Lexeme

open Regex

variable {s : Separator} {f : Flags}

/-- **The regex of a pattern** is what the effects of its lexemes come to. -/
theorem read_pattern (ls : List Lexeme) (f : Flags) :
    Regex.read (f.inlineGroup ++ f.pattern (ls.flatMap (write s))) =
      (effects s f.inlined f.base ls).bind fun k => (f.top k).finish := by
  cases ha : f.anchors with
  | true =>
    simp only [Flags.pattern, Flags.base, Flags.top, ha, ↓reduceIte]
    exact read_anchored_flatMap_write ls f
  | false =>
    simp only [Flags.pattern, Flags.base, Flags.top, ha, Bool.false_eq_true, ↓reduceIte]
    exact read_flatMap_write ls f

theorem exists_fits_of_inert {ls : List Lexeme} (h : ∀ l ∈ ls, l.Inert) (f : Flags) :
    ∃ r, Regex.read (f.inlineGroup ++ f.pattern (ls.flatMap (write s))) = .ok r ∧
      r.fits = true := by
  have hk : f.base.outer.length + 3 ≤ maxDepth := by
    rw [f.outer_base]
    decide
  have hpart : ∀ r ∈ ls.map (part s f.inlined), r.nesting < maxNesting :=
    List.forall_mem_map.2 fun l _ => l.nesting_part_lt
  have hstart : (Regex.edge (Token.startEdge f.inlined)).nesting < maxNesting :=
    (Token.nesting_startEdge _).trans_lt (Nat.lt_of_le_of_lt (Bool.toNat_le _) (by decide))
  have hend : (Regex.edge (Token.endEdge f.inlined)).nesting < maxNesting :=
    (Token.nesting_endEdge _).trans_lt (Nat.lt_of_le_of_lt (Bool.toNat_le _) (by decide))
  have hfits : ∀ rs : List Regex, (∀ r ∈ rs, r.nesting < maxNesting) →
      ∃ r, Frames.finish { inner := { parts := rs.reverse } } = .ok r ∧ r.fits = true := by
    intro rs hrs
    refine ⟨_, rfl, fits_of_nesting_le ?_⟩
    change (seqs rs.reverse.reverse).nesting ≤ _
    rw [List.reverse_reverse]
    exact nesting_seqs_le hrs
  rw [read_pattern, effects_of_inert h (fun l _ => l.depth_le) hk]
  cases ha : f.anchors with
  | false => simpa [Except.bind, Flags.base, Flags.top, Frames.modify, ha] using hfits _ hpart
  | true =>
    have hrow : ∀ r ∈ .edge (Token.startEdge f.inlined) :: ls.map (part s f.inlined) ++
        [.edge (Token.endEdge f.inlined)], r.nesting < maxNesting := List.forall_mem_append.2
      ⟨List.forall_mem_cons.2 ⟨hstart, hpart⟩, List.forall_mem_singleton.2 hend⟩
    simpa [Except.bind, Flags.base, Flags.top, Frames.modify, Frame.add, ha] using hfits _ hrow

/-- **A pattern is a regex** exactly if the effects of its lexemes leave no group open. -/
theorem exists_read_iff {ls : List Lexeme} :
    (∃ r, Regex.read (f.inlineGroup ++ f.pattern (ls.flatMap (write s))) = .ok r) ↔
      ∃ k, effects s f.inlined f.base ls = .ok k ∧ k.outer = [] := by
  rw [read_pattern]
  cases effects s f.inlined f.base ls with
  | error e => simp [Except.bind]
  | ok k =>
    simp only [Except.bind, Frames.finish, Flags.outer_top, Except.ok.injEq, exists_eq_left']
    cases k.outer <;> simp

/-- A segment has a matcher exactly if its pattern is a regex that does not nest too deep. -/
theorem exists_segment_iff_fits {k : List Lexeme × Bool} :
    (∃ m, (GlobSegment.compile f (segment s k)).matcher = .ok m) ↔
      ∃ r, Regex.read (f.ofComponent.inlineGroup ++
        f.ofComponent.pattern (k.1.flatMap (write s))) = .ok r ∧ r.fits = true := by
  refine Matcher.exists_compile_iff_fits.trans ?_
  rw [Segment.pattern, String.toList_ofList]
  rfl

end Lexeme

/-- **The pattern of a glob without classes is a regex** exactly if the effects of its lexemes leave
no group open. -/
theorem Glob.exists_read_iff_effects {o : Options} {text : String}
    (hc : o.extended = true → '[' ∉ text.toList) :
    (∃ r, Regex.read (o.flags.inlineGroup ++ (translate o text).pattern.toList) = .ok r) ↔
      ∃ k, Lexeme.effects o.separator o.flags.inlined o.flags.base
        (Scan.lexemesOf o text.toList) = .ok k ∧ k.outer = [] := by
  rw [Scan.pattern_eq_lexemes hc, String.toList_ofList]
  exact Lexeme.exists_read_iff

/-! ### Searches that give up -/

namespace Glob

theorem giveUp?_eq_none_iff {m : Matcher} {t : List Char} :
    giveUp? m t = none ↔ m.regex.givesUp t = false := by
  cases hg : m.regex.givesUp t <;> simp [giveUp?, Matcher.verdict, hg]

theorem givesUp_of_givenUp {g : Glob} {path : String} (h : g.givenUp false path = []) :
    g.matcher.regex.givesUp path.toList = false :=
  giveUp?_eq_none_iff.1 (Option.toList_eq_nil_iff.1 h)

end Glob

end PathGlob
