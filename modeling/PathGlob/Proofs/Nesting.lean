import PathGlob.Proofs.Glob.Tower

/-!
# Which globs compile

A pattern is read with one stack of open groups, but the scan that writes it keeps the open groups
and the number of open choices apart. The two agree where the constructs of a glob are nested
properly, and there a glob without classes compiles exactly if it leaves nothing open and its
pattern is not nested too deep.

* `unclosed`: the number of parentheses that are left open in a regex text;
* `Scan.statesOf`: the states of a scan after each character;
* `Construct.nested`: whatever is closed has been opened last;
* `Scan.unclosed_of_mem_states`: the parentheses left open after each character are those of the
  open groups and choices;
* `Glob.compile_of_nested`: which globs compile.
-/

namespace PathGlob

/-! ### Parentheses -/

/-- What a character adds to the number of open parentheses. -/
def paren (c : Char) : Int := if c = '(' then 1 else if c = ')' then -1 else 0

/-- The number of parentheses that are left open in a regex text. A character after a backslash
opens and closes nothing. -/
def unclosed : List Char → Int
  | [] => 0
  | '\\' :: _ :: cs => unclosed cs
  | c :: cs => paren c + unclosed cs

/-- The largest number of parentheses that are open at once in a regex text. -/
def peak : List Char → Int
  | [] => 0
  | '\\' :: _ :: cs => peak cs
  | c :: cs => max 0 (paren c + peak cs)

section Parentheses

variable {c : Char} {cs : List Char}

theorem unclosed_escape : unclosed ('\\' :: c :: cs) = unclosed cs := rfl

theorem unclosed_cons (hc : c ≠ '\\') : unclosed (c :: cs) = paren c + unclosed cs := by
  rw [unclosed]
  simp [hc]

theorem peak_escape : peak ('\\' :: c :: cs) = peak cs := rfl

theorem peak_cons (hc : c ≠ '\\') : peak (c :: cs) = max 0 (paren c + peak cs) := by
  rw [peak]
  simp [hc]

theorem peak_nonneg (cs : List Char) : 0 ≤ peak cs := by
  fun_induction peak cs with
  | case1 => exact Int.le_refl 0
  | case2 _ _ ih => exact ih
  | case3 => exact Int.le_max_left _ _

/-- The peak bounds the number of open parentheses everywhere in the text. -/
theorem peak_le_iff {d : Int} : peak cs ≤ d ↔ ∀ p, p <+: cs → unclosed p ≤ d := by
  fun_induction peak cs generalizing d with
  | case1 => simp [unclosed]
  | case2 c cs ih =>
    rw [ih]
    constructor
    · intro h p hp
      obtain rfl | ⟨p₁, rfl, hp₁⟩ := List.prefix_cons_iff.1 hp
      · exact h [] List.nil_prefix
      · obtain rfl | ⟨p₂, rfl, hp₂⟩ := List.prefix_cons_iff.1 hp₁
        · exact h [] List.nil_prefix
        · exact h p₂ hp₂
    · intro h p hp
      exact h ('\\' :: c :: p) (by simpa using hp)
  | case3 c cs hc ih =>
    -- a backslash at the very end of a text escapes nothing
    have key : ∀ p, p <+: cs → unclosed (c :: p) = paren c + unclosed p := by
      intro p hp
      by_cases hb : c = '\\'
      · cases cs with
        | nil =>
          obtain rfl := List.prefix_nil.1 hp
          rw [hb]
          rfl
        | cons d cs => exact (hc d cs hb rfl).elim
      · exact unclosed_cons hb
    have hmax : max 0 (paren c + peak cs) ≤ d ↔ 0 ≤ d ∧ peak cs ≤ d - paren c := by omega
    rw [hmax, ih]
    constructor
    · rintro ⟨hd, h⟩ p hp
      obtain rfl | ⟨p', rfl, hp'⟩ := List.prefix_cons_iff.1 hp
      · exact hd
      · have := h p' hp'
        rw [key p' hp']
        omega
    · intro h
      refine ⟨h [] List.nil_prefix, fun p hp => ?_⟩
      have := h (c :: p) ((List.prefix_cons_inj c).2 hp)
      rw [key p hp] at this
      omega

end Parentheses

namespace Lexeme

variable {s : Separator}

/-- How many parentheses are open at once in the text of a lexeme. -/
def height : Lexeme → Nat
  | opening _ => 1
  | l => l.depth

theorem height_inert {l : Lexeme} (hl : l.Inert) : l.height = l.depth := by
  cases l <;> first | rfl | exact hl.elim

theorem paren_of_plain {c : Char} (h : Symbol.ofChar s c = .plain) : paren c = 0 := by
  have h₁ : c ≠ '(' := ne_of_plain h (by cases s <;> decide)
  have h₂ : c ≠ ')' := ne_of_plain h (by cases s <;> decide)
  rw [paren, if_neg h₁, if_neg h₂]

theorem unclosed_write (l : Lexeme) (rest : List Char) :
    unclosed (l.write s ++ rest) = l.balance + unclosed rest := by
  cases l with
  | char c =>
    simp only [write, piece, Piece.write, balance]
    split
    · rename_i hc
      rw [List.singleton_append, unclosed_cons (ne_of_plain hc (by cases s <;> decide)),
        paren_of_plain hc]
    · exact (Int.zero_add _).symm
  | separator lenient =>
    cases s <;> cases lenient <;>
      simp [write, piece, Piece.write, Separator.token, Separator.escaped, unclosed_escape,
        unclosed_cons, paren, balance]
  | dot | dots | run | globstar | bar =>
    simp [write, piece, Piece.write, Separator.nonSeparatorRun, Separator.globstar,
      Separator.escaped, unclosed_escape, unclosed_cons, paren, balance]
  | opening g | closing g =>
    obtain op | _ := g
    · cases op <;>
        simp [write, piece, Piece.write, Group.opening, Group.closing, Separator.nonSeparatorRun,
          Separator.escaped, unclosed_escape, unclosed_cons, paren, balance]
    · simp [write, piece, Piece.write, Group.opening, Group.closing, unclosed_cons, paren, balance]

theorem peak_write (l : Lexeme) (rest : List Char) :
    peak (l.write s ++ rest) = max (l.height : Int) (l.balance + peak rest) := by
  have hrest := peak_nonneg rest
  cases l with
  | char c =>
    simp only [write, piece, Piece.write, balance, height, depth]
    split
    · rename_i hc
      rw [List.singleton_append, peak_cons (ne_of_plain hc (by cases s <;> decide)),
        paren_of_plain hc]
      rfl
    · change peak rest = _
      omega
  | separator lenient =>
    cases s <;> cases lenient <;>
      simp [write, piece, Piece.write, Separator.token, Separator.escaped, peak_escape, peak_cons,
        paren, balance, height, depth, hrest]
  | dot | dots | run | globstar | bar =>
    simp [write, piece, Piece.write, Separator.nonSeparatorRun, Separator.globstar,
      Separator.escaped, peak_escape, peak_cons, paren, balance, height, depth] <;> omega
  | opening g =>
    obtain op | _ := g
    · cases op <;>
        simp [write, piece, Piece.write, Group.opening, peak_cons, paren, balance, height] <;> omega
    · simp [write, piece, Piece.write, Group.opening, peak_cons, paren, balance, height]
      omega
  | closing g =>
    obtain op | _ := g
    · cases op <;>
        simp [write, piece, Piece.write, Group.closing, Separator.nonSeparatorRun,
          Separator.escaped, peak_escape, peak_cons, paren, balance, height, depth] <;> omega
    · simp [write, piece, Piece.write, Group.closing, peak_cons, paren, balance, height, depth]

theorem unclosed_flatMap_append (ls : List Lexeme) (rest : List Char) :
    unclosed (ls.flatMap (write s) ++ rest) = unclosed (ls.flatMap (write s)) + unclosed rest := by
  induction ls with
  | nil => exact (Int.zero_add _).symm
  | cons l ls ih =>
    rw [List.flatMap_cons, List.append_assoc, unclosed_write, ih, unclosed_write, Int.add_assoc]

end Lexeme

/-! ### Scans -/

namespace Scan

/-- The states of a scan after each character: what has been yielded since `done`, and what is open.
A character that is used up by one before it changes nothing. -/
def states (o : Options) (before : Option Char) (x : Context) (done : List Piece) (skip : Nat) :
    List Char → List Scan
  | [] => []
  | c :: rest =>
    match skip with
    | 0 =>
      let a := step o before x c rest
      let done := done ++ [a.piece]
      ⟨done, a.context⟩ :: states o (some c) a.context done a.skip rest
    | k + 1 => ⟨done, x⟩ :: states o (some c) x done k rest

/-- The states of the scan of a whole glob. -/
def statesOf (o : Options) (glob : List Char) : List Scan :=
  states o none {} [] 0 (o.separator.normalize glob)

variable {o : Options} {b : Option Char} {x : Context} {done : List Piece} {k : Nat}

end Scan

/-- What a glob can open. -/
inductive Construct where
  | group
  | choice
  deriving DecidableEq, Repr

namespace Construct

/-- Closes the innermost one of the open constructs, if it is of the given kind. -/
def close (c : Construct) (ks : List Construct) : Option (List Construct) :=
  if ks.head? = some c then some ks.tail else none

/-- The open constructs after a step from the context `x` to the context `y`, innermost first, if
`ks` were open before. The step may close the innermost one only. -/
def next (ks : List Construct) (x y : Context) : Option (List Construct) :=
  if x.groups.length < y.groups.length then some (group :: ks)
  else if x.braces < y.braces then some (choice :: ks)
  else if y.groups.length < x.groups.length then close group ks
  else if y.braces < x.braces then close choice ks
  else some ks

/-- Each step through the contexts closes the innermost one of the open constructs, or none. -/
def nested (ks : List Construct) (x : Context) : List Context → Bool
  | [] => true
  | y :: ys => (next ks x y).any fun ks' => nested ks' y ys

variable {ks ks' : List Construct} {x : Context}

theorem close_eq_some_iff {c : Construct} : close c ks = some ks' ↔ ks = c :: ks' := by
  cases ks with
  | nil => simp [close]
  | cons d ks => simp [close]

theorem next_self : next ks x x = some ks := by simp [next]

theorem next_openGroup (g : Group) :
    next ks x ((Move.openGroup g).context x) = some (group :: ks) := by
  simp [next, Move.context]

theorem next_openChoice : next ks x (Move.openChoice.context x) = some (choice :: ks) := by
  simp [next, Move.context]

theorem next_closeGroup {g : Group} (h : x.groups.head? = some g) :
    next ks x ((Move.closeGroup g).context x) = close group ks := by
  obtain ⟨gs, hg⟩ := List.head?_eq_some_iff.1 h
  simp [next, Move.context, hg]

theorem next_closeChoice (h : x.braces ≠ 0) :
    next ks x (Move.closeChoice.context x) = close choice ks := by
  have h₁ : x.braces - 1 < x.braces := Nat.sub_one_lt h
  have h₂ : ¬x.braces < x.braces - 1 := by omega
  simp [next, Move.context, h₁, h₂]

end Construct

/-- The groups and choices of a glob are nested properly: whatever is closed has been opened last.
-/
def Scan.Nested (o : Options) (glob : List Char) : Prop :=
  Construct.nested [] {} ((statesOf o glob).map Scan.context) = true

instance (o : Options) (glob : List Char) : Decidable (Scan.Nested o glob) :=
  inferInstanceAs (Decidable (_ = true))

/-! ### Open parentheses -/

namespace Scan

variable {o : Options} {b : Option Char} {x : Context} {k : Nat}

/-- **The parentheses that are left open** after each character of a glob are those of its open
groups and choices. -/
theorem unclosed_of_mem_states (ls : List Lexeme) {cs : List Char} (hx : x.inClass = false)
    (hc : '[' ∉ cs) (hls : unclosed (ls.flatMap (Lexeme.write o.separator)) = x.opened) {a : Scan}
    (ha : a ∈ states o b x (ls.map (Lexeme.piece o.separator)) k cs) :
    unclosed (Piece.body o.separator a.pieces) = a.context.opened := by
  induction cs generalizing b x k ls with
  | nil => cases ha
  | cons c rest ih =>
    have hrest : '[' ∉ rest := fun h => hc (List.mem_cons_of_mem c h)
    cases k with
    | zero =>
      have hstep : step o b x c rest = _ :=
        step_eq_move hx fun _ h => hc (h ▸ List.mem_cons_self)
      generalize hm : move o b x c rest = m at hstep
      have hx' : (m.context x).inClass = false := by rw [Move.inClass_context, hx]
      have hls' : unclosed ((ls ++ [m.lexeme]).flatMap (Lexeme.write o.separator)) =
          (m.context x).opened := by
        have hw := Lexeme.unclosed_write (s := o.separator) m.lexeme []
        rw [List.append_nil, unclosed, Int.add_zero] at hw
        rw [List.flatMap_append, List.flatMap_singleton, Lexeme.unclosed_flatMap_append, hls, hw,
          Move.opened_context (hm ▸ allowed_move)]
      have hdone : ls.map (Lexeme.piece o.separator) ++ [m.lexeme.piece o.separator] =
          (ls ++ [m.lexeme]).map (Lexeme.piece o.separator) := by simp
      rw [states, hstep] at ha
      simp only [hdone] at ha
      rcases List.mem_cons.1 ha with rfl | ha
      · rw [Lexeme.body_map_piece]
        exact hls'
      · exact ih _ hx' hrest hls' ha
    | succ k =>
      rcases List.mem_cons.1 ha with rfl | ha
      · rw [Lexeme.body_map_piece]
        exact hls
      · exact ih ls hx hrest hls ha

end Scan

/-! ### The stack of open groups -/

open Regex

/-- The constructs that are open, the open groups and the number of open choices among them, and
the frames in which a regex is read agree. -/
inductive Opened : List Construct → List Group → Nat → List Frame → Prop
  | base (i : Frame) : Opened [] [] 0 [i]
  | group {ks : List Construct} {gs : List Group} {n : Nat} {is : List Frame} (g : Group)
      (i : Frame) (hi : i.negated = (g == .marked .negated)) :
      Opened ks gs n is → Opened (.group :: ks) (g :: gs) n (i :: is)
  | choice {ks : List Construct} {gs : List Group} {n : Nat} {is : List Frame} (i : Frame) :
      Opened ks gs n is → Opened (.choice :: ks) gs (n + 1) (i :: is)

/-- A regex is read with one frame for each open construct. -/
def Tracks (ks : List Construct) (x : Context) (k : Frames) : Prop :=
  Opened ks x.groups x.braces (k.inner :: k.outer)

namespace Opened

variable {ks : List Construct} {gs : List Group} {n : Nat} {is : List Frame}

theorem length_eq (h : Opened ks gs n is) : is.length = gs.length + n + 1 := by
  induction h with
  | base => rfl
  | group g i hi h ih => simp [ih]; omega
  | choice i h ih => simp [ih]; omega

theorem exists_cons (h : Opened ks gs n is) : ∃ i is', is = i :: is' := by
  cases h <;> exact ⟨_, _, rfl⟩

theorem congr_head {i j : Frame} (h : Opened ks gs n (i :: is)) (hij : j.negated = i.negated) :
    Opened ks gs n (j :: is) := by
  cases h with
  | base => exact .base j
  | group g _ hi h => exact .group g j (hij.trans hi) h
  | choice _ h => exact .choice j h

end Opened

namespace Tracks

variable {ks ks' : List Construct} {x : Context} {k : Frames} {s : Separator} {f : Flags}

theorem length_outer (h : Tracks ks x k) : k.outer.length = x.opened := by
  have := Opened.length_eq h
  simpa [Context.opened] using this

theorem outer_eq_nil_iff (h : Tracks ks x k) :
    k.outer = [] ↔ x.groups = [] ∧ x.braces = 0 := by
  rw [← List.length_eq_zero_iff, h.length_outer, Context.opened, Nat.add_eq_zero_iff,
    List.length_eq_zero_iff]

theorem exists_effect_closing {i j : Frame} {is : List Frame} {g : Group}
    (h : i.negated = true → ¬g.Counted) :
    ∃ j', (Lexeme.closing g).effect s f ⟨i, j :: is⟩ = .ok ⟨j', is⟩ ∧ j'.negated = j.negated := by
  rw [Lexeme.effect, if_neg fun hg => h hg.1 hg.2]
  exact ⟨_, rfl, rfl⟩

theorem openGroup_cases (k : Frames) (n : Bool) :
    (k.outer.length + 1 ≤ maxDepth ∧
      k.openGroup n = .ok ⟨{ negated := n }, k.inner :: k.outer⟩) ∨
    (maxDepth < k.outer.length + 1 ∧ k.openGroup n = .error .tooDeep) := by
  rw [Frames.openGroup]
  split
  · exact Or.inl ⟨‹_›, rfl⟩
  · exact Or.inr ⟨by omega, rfl⟩

/-- **What a move does to the open groups** where it closes what has been opened last. It fails only
where groups are nested too deep. -/
theorem effect {m : Move} (h : Tracks ks x k) (hk : k.outer.length ≤ maxDepth) (ha : m.Allowed x)
    (hn : Construct.next ks x (m.context x) = some ks') :
    (k.outer.length + m.lexeme.height ≤ maxDepth ∧
      ∃ k', m.lexeme.effect s f k = .ok k' ∧ Tracks ks' (m.context x) k') ∨
    (maxDepth < k.outer.length + m.lexeme.height ∧ m.lexeme.effect s f k = .error .tooDeep) := by
  cases m with
  | inert l =>
    obtain rfl : ks = ks' := Option.some.inj (Construct.next_self.symm.trans hn)
    rw [Move.lexeme, Lexeme.effect_inert ha, Lexeme.height_inert ha]
    split
    · exact Or.inl ⟨‹_›, _, rfl, h.congr_head rfl⟩
    · exact Or.inr ⟨by omega, rfl⟩
  | bar =>
    obtain rfl : ks = ks' := Option.some.inj (Construct.next_self.symm.trans hn)
    exact Or.inl ⟨hk, _, rfl, h.congr_head rfl⟩
  | openGroup g =>
    obtain rfl := Option.some.inj ((Construct.next_openGroup g).symm.trans hn)
    obtain ⟨hd, he⟩ | ⟨hd, he⟩ := openGroup_cases k (g == .marked .negated)
    · exact Or.inl ⟨hd, _, he, .group g _ rfl h⟩
    · exact Or.inr ⟨hd, he⟩
  | openChoice =>
    obtain rfl := Option.some.inj (Construct.next_openChoice.symm.trans hn)
    obtain ⟨hd, he⟩ | ⟨hd, he⟩ := openGroup_cases k false
    · exact Or.inl ⟨hd, _, he, .choice _ h⟩
    · exact Or.inr ⟨hd, he⟩
  | closeGroup g =>
    rw [Construct.next_closeGroup ha, Construct.close_eq_some_iff] at hn
    obtain ⟨gs, n, cl⟩ := x
    obtain ⟨i, is⟩ := k
    subst hn
    -- the frame of the group is a lookahead exactly if the group is negated
    cases h with
    | group g' i hi h =>
      obtain rfl : g' = g := Option.some.inj ha
      obtain ⟨j, is, rfl⟩ := h.exists_cons
      have hg : i.negated = true → ¬g'.Counted := by
        intro hneg
        rw [hi, beq_iff_eq] at hneg
        simp [hneg, Group.Counted]
      obtain ⟨j', he, hj⟩ := exists_effect_closing hg
      exact Or.inl ⟨hk, _, he, h.congr_head hj⟩
  | closeChoice =>
    rw [Construct.next_closeChoice ha, Construct.close_eq_some_iff] at hn
    obtain ⟨gs, n, cl⟩ := x
    obtain ⟨i, is⟩ := k
    subst hn
    cases h with
    | choice i h =>
      obtain ⟨j, is, rfl⟩ := h.exists_cons
      obtain ⟨j', he, hj⟩ := exists_effect_closing (g := .bare) fun _ => id
      exact Or.inl ⟨hk, _, he, h.congr_head hj⟩

end Tracks

namespace Scan

variable {o : Options} {b : Option Char} {x : Context} {f : Flags}

/-- **What a scan does to the open groups** where its groups and choices are nested properly. It
fails only where groups are nested too deep. -/
theorem effects_of_nested {cs : List Char} (hx : x.inClass = false) (hc : '[' ∉ cs)
    {done : List Piece} {skip : Nat} {ks : List Construct} {k : Frames} (h : Tracks ks x k)
    (hk : k.outer.length ≤ maxDepth)
    (hn : Construct.nested ks x ((states o b x done skip cs).map Scan.context) = true)
    {rest : List Char} (hrest : peak rest = 0) {ls : List Lexeme}
    (hls : (moves o b x skip cs).map Move.lexeme = ls) :
    (k.outer.length + peak (ls.flatMap (Lexeme.write o.separator) ++ rest) ≤ maxDepth ∧
      ∃ k' ks', Lexeme.effects o.separator f k ls = .ok k' ∧
        Tracks ks' (run o b x skip cs).context k') ∨
    (maxDepth < k.outer.length + peak (ls.flatMap (Lexeme.write o.separator) ++ rest) ∧
      Lexeme.effects o.separator f k ls = .error .tooDeep) := by
  induction cs generalizing b x done skip ks k ls with
  | nil =>
    subst hls
    refine Or.inl ⟨?_, k, ks, rfl, h⟩
    rw [moves, List.map_nil, List.flatMap_nil, List.nil_append, hrest, Int.add_zero]
    exact_mod_cast hk
  | cons c cs ih =>
    have hcs : '[' ∉ cs := fun h => hc (List.mem_cons_of_mem c h)
    cases skip with
    | zero =>
      have hstep : step o b x c cs = _ :=
        step_eq_move hx fun _ h => hc (h ▸ List.mem_cons_self)
      have ha : (move o b x c cs).Allowed x := allowed_move
      rw [states, hstep] at hn
      rw [moves] at hls
      rw [run, hstep]
      generalize move o b x c cs = m at *
      have hx' : (m.context x).inClass = false := by rw [Move.inClass_context, hx]
      subst hls
      simp only [List.map_cons, Construct.nested, Option.any_eq_true] at hn
      obtain ⟨ks₁, hks₁, hn⟩ := hn
      have hbal := Move.opened_context ha
      have hlen := h.length_outer
      simp only [List.map_cons, List.flatMap_cons, List.append_assoc, Lexeme.peak_write,
        Lexeme.effects]
      -- the peak is reached inside the first lexeme, or after it on top of what it leaves open
      obtain ⟨hd, k₁, hk₁, h₁⟩ | ⟨hd, he⟩ := h.effect (s := o.separator) (f := f) hk ha hks₁
      · have hlen₁ := h₁.length_outer
        have hk₁' := Lexeme.length_outer_effect_le hk hk₁
        rw [hk₁]
        obtain ⟨hp, hr⟩ | ⟨hp, hr⟩ := ih hx' hcs h₁ hk₁' hn rfl
        · exact Or.inl ⟨by omega, hr⟩
        · exact Or.inr ⟨by omega, hr⟩
      · rw [he]
        exact Or.inr ⟨by omega, rfl⟩
    | succ skip =>
      simp only [states, List.map_cons, Construct.nested, Construct.next_self,
        Option.any_some] at hn
      exact ih hx hcs h hk hn hls

end Scan

/-! ### Compiling -/

/-- The anchors of a pattern open nothing. -/
theorem exists_peak_pattern (f : Flags) (body : List Char) :
    ∃ rest, peak rest = 0 ∧ peak (f.pattern body) = peak (body ++ rest) := by
  cases ha : f.anchors with
  | true =>
    refine ⟨['$'], rfl, ?_⟩
    rw [Flags.pattern, ha, if_pos rfl, anchored, List.cons_append, peak_cons (by decide)]
    have := peak_nonneg (body ++ ['$'])
    simp [paren]
    omega
  | false => exact ⟨[], rfl, by simp [Flags.pattern, ha]⟩

namespace Glob

variable {o : Options} {text : String}

/-- The only error is that the pattern for whole paths is no regex, or nests too deep. -/
theorem exists_reason_of_compile {e : MatcherError} (h : compile o text = .error e) :
    ∃ reason, e = .invalid (translate o text).pattern reason := by
  rw [compile] at h
  split at h
  · rename_i hm
    cases h
    rw [Matcher.compile] at hm
    split at hm
    · split at hm
      · cases hm
      · cases hm
        exact ⟨_, rfl⟩
    · cases hm
      exact ⟨_, rfl⟩
  · cases h

theorem exists_read_iff_peak (hc : '[' ∉ text.toList) (hn : Scan.Nested o text.toList) :
    (∃ r, Regex.read (o.flags.inlineGroup ++ (translate o text).pattern.toList) = .ok r) ↔
      (scan o text.toList).context.groups = [] ∧ (scan o text.toList).context.braces = 0 ∧
        peak (translate o text).pattern.toList ≤ 63 := by
  have hbase : Tracks [] {} o.flags.base := .base _
  obtain ⟨rest, hrest, hpeak⟩ := exists_peak_pattern o.flags
    ((Scan.lexemesOf o text.toList).flatMap (Lexeme.write o.separator))
  have hpattern : peak (translate o text).pattern.toList =
      peak ((Scan.lexemesOf o text.toList).flatMap (Lexeme.write o.separator) ++ rest) := by
    rw [Scan.pattern_eq_lexemes fun _ => hc, String.toList_ofList]
    exact hpeak
  have hrun := Scan.effects_of_nested (f := o.flags.inlined) rfl
    (o.separator.not_mem_normalize (by decide) hc) hbase (Nat.zero_le _) hn hrest
    (show _ = Scan.lexemesOf o text.toList from rfl)
  rw [← hpattern, o.flags.outer_base, List.length_nil, Int.natCast_zero, Int.zero_add] at hrun
  rw [exists_read_iff_effects fun _ => hc]
  obtain ⟨hp, k, ks, hk, hks⟩ | ⟨hp, he⟩ := hrun
  · simp only [hk, Except.ok.injEq, exists_eq_left', hks.outer_eq_nil_iff]
    exact and_congr_right fun _ => (and_iff_left hp).symm
  · simp only [he, reduceCtorEq, false_and, exists_false, false_iff, not_and]
    exact fun _ _ => Int.not_le.2 hp

/-- **Which globs compile.** In a glob without classes whose groups and choices are nested properly,
the parentheses left open in the pattern after each character are those of the open groups and
choices. The glob compiles exactly if nothing is open at its end, nowhere in its pattern more than
63 parentheses are open, and the regex that the pattern then is does not nest too deep; otherwise
the error holds the pattern. -/
theorem compile_of_nested (o : Options) (text : String) (hc : '[' ∉ text.toList)
    (hn : Scan.Nested o text.toList) :
    (∀ a ∈ Scan.statesOf o text.toList,
      unclosed (Piece.body o.separator a.pieces) = a.context.groups.length + a.context.braces) ∧
    ((∃ g, compile o text = .ok g) ↔
      (scan o text.toList).context.groups = [] ∧ (scan o text.toList).context.braces = 0 ∧
        (∀ p, p <+: (translate o text).pattern.toList → unclosed p ≤ 63) ∧
        ∀ r, Regex.read (o.flags.inlineGroup ++ (translate o text).pattern.toList) = .ok r →
          r.fits = true) ∧
    ∀ e, compile o text = .error e → ∃ reason, e = .invalid (translate o text).pattern reason := by
  refine ⟨fun a ha => ?_, ?_, fun e he => exists_reason_of_compile he⟩
  · have hc' := o.separator.not_mem_normalize (by decide) hc
    rw [Scan.unclosed_of_mem_states [] rfl hc' rfl ha, Context.opened, Int.natCast_add]
  · have hread := exists_read_iff_peak hc hn
    rw [peak_le_iff] at hread
    rw [exists_compile_iff_fits]
    constructor
    · rintro ⟨r, hr, hf⟩
      obtain ⟨hgroups, hbraces, hp⟩ := hread.1 ⟨r, hr⟩
      exact ⟨hgroups, hbraces, hp, fun r' hr' => Except.ok.inj (hr.symm.trans hr') ▸ hf⟩
    · rintro ⟨hgroups, hbraces, hp, hf⟩
      obtain ⟨r, hr⟩ := hread.2 ⟨hgroups, hbraces, hp⟩
      exact ⟨r, hr, hf r hr⟩

/-- `+(a|{b,c})` is nested properly and compiles. -/
theorem compile_of_nested_group :
    '[' ∉ "+(a|\x7bb,c\x7d)".toList ∧ Scan.Nested { extended := true } "+(a|\x7bb,c\x7d)".toList ∧
      ∃ g, compile { extended := true } "+(a|\x7bb,c\x7d)" = .ok g := by
  have hc : '[' ∉ "+(a|\x7bb,c\x7d)".toList := by decide
  have hn : Scan.Nested { extended := true } "+(a|\x7bb,c\x7d)".toList := by decide
  have hf : (Regex.read "^(a|(b|c))+$".toList).toOption.any Regex.fits = true := by decide +kernel
  have hp : (translate { extended := true } "+(a|\x7bb,c\x7d)").pattern = "^(a|(b|c))+$" := by
    decide
  refine ⟨hc, hn, (compile_of_nested _ _ hc hn).2.1.2 ⟨by decide, by decide, ?_, fun r hr => ?_⟩⟩
  · exact peak_le_iff.1 (by decide)
  · rw [hp] at hr
    rw [show Regex.read "^(a|(b|c))+$".toList = .ok r from hr] at hf
    exact hf

/-- Groups in 63 levels, each with a choice and a row in it, are nested properly and leave nothing
open, but they nest too deep for a regex. -/
theorem compile_of_tower_ne_ok :
    '[' ∉ tower "+(a|b)".toList 62 ∧
      Scan.Nested { extended := true } (tower "+(a|b)".toList 62) ∧
      (scan { extended := true } (tower "+(a|b)".toList 62)).context = {} ∧
      (∀ p, p <+: (translate { extended := true }
        (String.ofList (tower "+(a|b)".toList 62))).pattern.toList → unclosed p ≤ 63) ∧
      ¬∃ g, compile { extended := true } (String.ofList (tower "+(a|b)".toList 62)) = .ok g := by
  have hclass : '[' ∉ "+(a|b)".toList := by decide
  have hreads : Scan.ReadsAs { extended := true } (tower [] 1) (Scan.towerLexemes [] 1) :=
    Scan.readsAs_tower rfl (fun b x rest => ⟨b, rfl⟩) 1
  refine ⟨(mem_tower (by decide) _).not.2 hclass, by decide +kernel, by decide +kernel,
    peak_le_iff.1 ?_, ?_⟩
  · rw [translate, String.toList_ofList, String.toList_ofList]
    decide +kernel
  · rw [exists_compile_tower_iff rfl rfl rfl hclass hreads
      (Lexeme.adds_choice (g := .marked .atLeastOne) nofun) (by decide) rfl rfl]
    decide

end Glob

end PathGlob
