import PathGlob.Proofs.Basic
import PathGlob.Proofs.Glob.Demand

/-!
# Repeated separators

Where separators are not mandatory, a glob should not demand more of them for writing a separator
several times. So it should accept all paths that it accepts with every run of separators collapsed
to a single one. There are two places where it demands more: after a globstar, which takes one
separator along and leaves the others, and under `\`, where separators are folded in pairs.

* `Path.collapse`: a text with every run of some characters collapsed;
* `Scan.overdemands`: the glob has one of the two places;
* `Scan.loosens_run`: the scans of a glob and of the collapsed glob, in lockstep;
* `Glob.accepts_of_collapsed_iff`: the glob accepts what the collapsed glob accepts exactly if it
  has none of the places.
-/

namespace PathGlob

/-! ### Collapsing -/

namespace Path

variable {p q : Char → Bool} {a c : Char} {cs : List Char}

/-- A text in which every run of characters with a given property is a single character, the last
one of the run. -/
def collapse (p : Char → Bool) : List Char → List Char
  | [] => []
  | c :: cs => if p c && cs.head?.any p then collapse p cs else c :: collapse p cs

theorem collapse_cons_of_not (h : p c = false) : collapse p (c :: cs) = c :: collapse p cs := by
  rw [collapse, h, Bool.false_and, if_neg Bool.false_ne_true]

theorem collapse_map {f : Char → Char} (h : ∀ c, q (f c) = p c) (cs : List Char) :
    (collapse p cs).map f = collapse q (cs.map f) := by
  induction cs with
  | nil => rfl
  | cons c cs ih =>
    have hnext : (cs.map f).head?.any q = cs.head?.any p := by
      cases cs with
      | nil => rfl
      | cons d cs => exact h d
    rw [collapse, List.map_cons, collapse, h, hnext, ← ih]
    split <;> rfl

theorem head?_collapse (a : Char) (cs : List Char) : (collapse (· == a) cs).head? = cs.head? := by
  induction cs with
  | nil => rfl
  | cons c cs ih =>
    rw [collapse]
    split
    · rename_i h
      rw [Bool.and_eq_true, beq_iff_eq] at h
      obtain ⟨rfl, hcs⟩ := h
      obtain ⟨d, hd, hda⟩ := (Option.any_eq_true _ _).1 hcs
      rw [ih, hd, eq_of_beq hda]
      rfl
    · rfl

theorem collapse_replicate_append (n : Nat) (h : cs.head? ≠ some a) :
    collapse (· == a) (List.replicate (n + 1) a ++ cs) = a :: collapse (· == a) cs := by
  induction n with
  | zero =>
    have hnext : cs.head?.any (· == a) = false := by
      cases cs with
      | nil => rfl
      | cons d cs => simpa using h
    rw [List.replicate_one, List.singleton_append, collapse, hnext, Bool.and_false,
      if_neg Bool.false_ne_true]
  | succ n ih =>
    rw [List.replicate_succ, List.cons_append, collapse, ih, if_pos]
    simp [List.replicate_succ]

theorem collapse_replicate_of_not (n : Nat) (h : p c = false) :
    collapse p (List.replicate n c ++ cs) = List.replicate n c ++ collapse p cs := by
  induction n with
  | zero => rfl
  | succ n ih =>
    rw [List.replicate_succ, List.cons_append, List.cons_append, collapse_cons_of_not h, ih]

end Path

/-- Separators can be collapsed before or after they are written in one way. -/
theorem Separator.normalize_collapse (s : Separator) (cs : List Char) :
    s.normalize (Path.collapse s.splits cs) = Path.collapse (· == s.char) (s.normalize cs) := by
  cases s with
  | posix => rfl
  | windows =>
    refine Path.collapse_map (fun c => ?_) cs
    by_cases hc : c = '/'
    · subst hc
      rfl
    · simp [splits, char, hc]

/-! ### Places where more is demanded -/

namespace Scan

variable {o : Options} {b : Option Char} {x : Context} {c : Char} {cs rest : List Char} {n : Nat}

/-- A globstar stands here, between `before` and `rest`, and two separators follow it; or three
separators stand here under `windows`. -/
def overdemandsHere (o : Options) (before : Option Char) (c : Char) (rest : List Char) : Bool :=
  let σ := o.separator.char
  let more := (rest.takeWhile (· == '*')).length
  o.globstar && c == '*' && more != 0 && atBoundary o.separator before &&
      [σ, σ].isPrefixOf (rest.drop more) ||
    o.separator == .windows && [σ, σ, σ].isPrefixOf (c :: rest)

/-- Somewhere in the glob more separators are demanded than in the collapsed glob. -/
def overdemands (o : Options) (before : Option Char) : List Char → Bool
  | [] => false
  | c :: rest => overdemandsHere o before c rest || overdemands o (some c) rest

theorem isPrefixOf_cons_eq_false {a : Char} (as : List Char) (h : cs.head? ≠ some a) :
    (a :: as).isPrefixOf cs = false := by
  cases cs with
  | nil => rfl
  | cons d cs =>
    rw [List.isPrefixOf, beq_false_of_ne (by simpa using Ne.symm h), Bool.false_and]

theorem isPrefixOf_separators_eq_false (hc : c ≠ o.separator.char) :
    [o.separator.char, o.separator.char, o.separator.char].isPrefixOf (c :: cs) = false :=
  isPrefixOf_cons_eq_false _ (by simpa using hc)

theorem overdemands_char (hs : c ≠ '*') (hc : c ≠ o.separator.char) :
    overdemands o b (c :: cs) = overdemands o (some c) cs := by
  rw [overdemands, overdemandsHere, isPrefixOf_separators_eq_false hc, beq_false_of_ne hs]
  simp

theorem overdemands_stars (n : Nat) (hs : rest.head? ≠ some '*') :
    overdemands o b (List.replicate (n + 1) '*' ++ rest) =
      (o.globstar && n != 0 && atBoundary o.separator b &&
          [o.separator.char, o.separator.char].isPrefixOf rest ||
        overdemands o (some '*') rest) := by
  have hne := o.separator.char_ne_star.symm
  have hhere : ∀ n b, overdemandsHere o b '*' (List.replicate n '*' ++ rest) =
      (o.globstar && n != 0 && atBoundary o.separator b &&
        [o.separator.char, o.separator.char].isPrefixOf rest) := by
    intro n b
    rw [overdemandsHere, isPrefixOf_separators_eq_false hne, length_takeWhile_stars hs]
    simp
  induction n generalizing b with
  | zero => rw [List.replicate_one, List.singleton_append, overdemands, ← hhere 0 b]; rfl
  | succ n ih =>
    -- no globstar begins in the middle of the run
    have hmiddle : atBoundary o.separator (some '*') = false := beq_false_of_ne hne
    rw [List.replicate_succ, List.cons_append, overdemands, hhere, ih, hmiddle]
    simp

theorem overdemands_separators (n : Nat) (hr : rest.head? ≠ some o.separator.char) :
    overdemands o b (List.replicate (n + 1) o.separator.char ++ rest) =
      (o.separator == .windows && decide (2 ≤ n) ||
        overdemands o (some o.separator.char) rest) := by
  have hne := o.separator.char_ne_star
  have hhere : ∀ n b, overdemandsHere o b o.separator.char
      (List.replicate n o.separator.char ++ rest) =
        (o.separator == .windows && decide (2 ≤ n)) := by
    intro n b
    rw [overdemandsHere, beq_false_of_ne hne]
    rcases n with _ | _ | n
    · simp [List.isPrefixOf, isPrefixOf_cons_eq_false _ hr]
    · simp [List.isPrefixOf, isPrefixOf_cons_eq_false _ hr]
    · simp [List.isPrefixOf, List.replicate_succ]
  induction n generalizing b with
  | zero =>
    rw [List.replicate_one, List.singleton_append, overdemands]
    exact congrArg (· || _) (hhere 0 b)
  | succ n ih =>
    rw [List.replicate_succ, List.cons_append, overdemands, hhere, ih]
    by_cases h : 2 ≤ n
    · simp [h, Nat.le_succ_of_le h]
    · simp [h]

end Scan

/-! ### Runs of separators -/

namespace Lexeme

variable {s : Separator} {l : Lexeme} {ls ls' : List Lexeme} {excess : Bool}

/-- The lexemes of a run of `n` separators that are not mandatory. -/
def separators (s : Separator) : Nat → List Lexeme
  | 0 => []
  | 1 => [separator false]
  | n + 2 => separator true ::
      match s with
      | .posix => separators s (n + 1)
      | .windows => separators s n

theorem demand_separators_pos (s : Separator) (n : Nat) : 1 ≤ demand s (separators s (n + 1)) := by
  induction n with
  | zero => cases s <;> exact Nat.le_refl 1
  | succ n ih =>
    cases s with
    | posix => exact ih
    | windows =>
      rw [separators, demand_cons]
      exact Nat.le_add_left 1 _

theorem two_le_demand_separators (n : Nat) : 2 ≤ demand .windows (separators .windows (n + 3)) := by
  rw [separators, demand_cons]
  exact Nat.succ_le_succ (demand_separators_pos .windows n)

theorem looser_separators {n : Nat} (hn : s = .windows → n < 2) (h : Looser s ls ls') :
    Looser s (separators s (n + 1) ++ ls) (separator false :: ls') := by
  induction n with
  | zero => exact .cons _ h
  | succ n ih =>
    cases s with
    | posix => exact .lenient rfl (ih nofun)
    | windows =>
      obtain rfl : n = 0 := Nat.lt_one_iff.1 (Nat.lt_of_succ_lt_succ (hn rfl))
      exact .separator rfl true false h

theorem forall_mem_separators {P : Lexeme → Prop} (h : ∀ lenient, P (separator lenient)) (n : Nat) :
    ∀ l ∈ separators s n, P l := by
  induction n using Nat.twoStepInduction with
  | zero => simp [separators]
  | one => simpa [separators] using h false
  | more n ih ih' =>
    cases s with
    | posix => exact List.forall_mem_cons.2 ⟨h true, ih'⟩
    | windows => exact List.forall_mem_cons.2 ⟨h true, ih⟩

/-! ### Two rows in lockstep -/

/-- The lexeme is one that a scan can yield without the extended syntax. -/
def Basic (s : Separator) (l : Lexeme) : Prop := l.Inert ∧ l ≠ .char s.char

/-- The first row is looser than the second one, unless it demands more: then `excess` is set. -/
structure Loosens (s : Separator) (excess : Bool) (ls ls' : List Lexeme) : Prop where
  basic : ∀ l ∈ ls ++ ls', l.Basic s
  looser : excess = false → Looser s ls ls'
  demand_le : demand s ls' + excess.toNat ≤ demand s ls

theorem Loosens.nil : Loosens s false [] [] := ⟨by simp, fun _ => .nil, Nat.le_refl _⟩

theorem Loosens.cons (h : Loosens s excess ls ls') (hl : l.Basic s) :
    Loosens s excess (l :: ls) (l :: ls') := by
  refine ⟨?_, fun ho => .cons l (h.looser ho), ?_⟩
  · have hb := List.forall_mem_append.1 h.basic
    exact List.forall_mem_append.2
      ⟨List.forall_mem_cons.2 ⟨hl, hb.1⟩, List.forall_mem_cons.2 ⟨hl, hb.2⟩⟩
  · rw [demand_cons, demand_cons]
    have := h.demand_le
    omega

theorem basic_separator (lenient : Bool) : (separator lenient).Basic s := ⟨trivial, nofun⟩

theorem Loosens.separators (h : Loosens s excess ls ls') (n : Nat) :
    Loosens s (s == .windows && decide (2 ≤ n) || excess) (separators s (n + 1) ++ ls)
      (separator false :: ls') := by
  obtain ⟨hls, hls'⟩ := List.forall_mem_append.1 h.basic
  refine ⟨?_, fun ho => ?_, ?_⟩
  · have hrun : ∀ l ∈ Lexeme.separators s (n + 1), l.Basic s :=
      forall_mem_separators basic_separator _
    exact List.forall_mem_append.2 ⟨List.forall_mem_append.2 ⟨hrun, hls⟩,
      List.forall_mem_cons.2 ⟨basic_separator false, hls'⟩⟩
  · rw [Bool.or_eq_false_iff] at ho
    refine looser_separators (fun hs => ?_) (h.looser ho.2)
    subst hs
    simpa using ho.1
  · have hdemand : demand s (separator false :: ls') = demand s ls' + 1 := demand_cons
    have hle := h.demand_le
    have hpos := demand_separators_pos s n
    rw [hdemand, demand_append]
    by_cases hn : s = .windows ∧ 2 ≤ n
    · obtain ⟨rfl, hn⟩ := hn
      have htwo : 2 ≤ demand .windows (Lexeme.separators .windows (n + 1)) := by
        obtain ⟨m, rfl⟩ := Nat.exists_eq_add_of_le' hn
        exact two_le_demand_separators m
      simp only [beq_self_eq_true, hn, decide_true, Bool.and_self, Bool.true_or, Bool.toNat_true]
      omega
    · have hfalse : (s == .windows && decide (2 ≤ n)) = false := by simpa using hn
      rw [hfalse, Bool.false_or]
      omega

theorem Loosens.separators_nil (h : Loosens s excess ls ls') (n : Nat) :
    Loosens s true (Lexeme.separators s (n + 1) ++ ls) ls' := by
  obtain ⟨hls, hls'⟩ := List.forall_mem_append.1 h.basic
  refine ⟨?_, nofun, ?_⟩
  · have hrun : ∀ l ∈ Lexeme.separators s (n + 1), l.Basic s :=
      forall_mem_separators basic_separator _
    exact List.forall_mem_append.2 ⟨List.forall_mem_append.2 ⟨hrun, hls⟩, hls'⟩
  · have hle := h.demand_le
    have hpos := demand_separators_pos s n
    rw [demand_append, Bool.toNat_true]
    omega

end Lexeme

/-! ### Scanning in lockstep -/

namespace Scan

variable {o : Options} {b : Option Char} {x : Context} {cs rest : List Char} {n : Nat}
  {excess : Bool}

theorem pieces_run_repeated (hst : o.strict = false) (hr : rest.head? ≠ some o.separator.char) :
    (run o b x 0 (List.replicate (n + 1) o.separator.char ++ rest)).pieces =
      (Lexeme.separators o.separator (n + 1)).map (Lexeme.piece o.separator) ++
        (run o (some o.separator.char) x 0 rest).pieces := by
  have hs := Symbol.ofChar_char o.separator
  have hmore : ∀ n b, (run o b x 0 (List.replicate (n + 2) o.separator.char ++ rest)).pieces =
      .separator true :: (run o (some o.separator.char) x
        (if o.separator = .windows then 1 else 0)
        (List.replicate (n + 1) o.separator.char ++ rest)).pieces := by
    intro n b
    rw [List.replicate_succ, List.cons_append, pieces_run_cons]
    simp [step, hs, separator, List.replicate_succ, hst]
  have hone : ∀ b, (run o b x 0 (o.separator.char :: rest)).pieces =
      .separator false :: (run o (some o.separator.char) x 0 rest).pieces := by
    intro b
    rw [pieces_run_cons]
    simp [step, hs, separator, if_neg hr]
  induction n using Nat.twoStepInduction generalizing b with
  | zero => exact hone b
  | one =>
    rw [hmore]
    cases hsep : o.separator with
    | posix =>
      rw [if_neg (by decide), ← hsep, List.replicate_one, List.singleton_append, hone, hsep]
      rfl
    | windows => rfl
  | more n ih ih' =>
    rw [hmore]
    cases hsep : o.separator with
    | posix =>
      rw [if_neg (by decide), ← hsep, ih', hsep]
      rfl
    | windows =>
      -- the second separator is used up by the first one
      rw [if_pos rfl, ← hsep, List.replicate_succ, List.cons_append, run, ih, hsep]
      rfl

/-- The scans of a glob and of the collapsed glob yield such rows of lexemes. -/
def Loosens (o : Options) (excess : Bool) (a a' : Scan) : Prop :=
  ∃ ls ls', a.pieces = ls.map (Lexeme.piece o.separator) ∧
    a'.pieces = ls'.map (Lexeme.piece o.separator) ∧ Lexeme.Loosens o.separator excess ls ls'

theorem Loosens.cons {a a' c c' : Scan} (h : Loosens o excess a a') {l : Lexeme}
    (hl : l.Basic o.separator) (hc : c.pieces = l.piece o.separator :: a.pieces)
    (hc' : c'.pieces = l.piece o.separator :: a'.pieces) : Loosens o excess c c' := by
  obtain ⟨ls, ls', ha, ha', hls⟩ := h
  refine ⟨l :: ls, l :: ls', ?_, ?_, hls.cons hl⟩
  · rw [hc, ha, List.map_cons]
  · rw [hc', ha', List.map_cons]

theorem literal_of_not_extended (he : o.extended = false) {c : Char} (hs : c ≠ '*')
    (hc : c ≠ o.separator.char) (next : Option Char) : Literal o {} c next :=
  { ne_separator := hc, ne_star := hs, noClass := rfl, ofExtended := by simp [he],
    ofGroups := by simp, ofBraces := by simp }

/-- A glob and the collapsed glob. -/
abbrev collapsed (o : Options) (cs : List Char) : List Char :=
  Path.collapse (· == o.separator.char) cs

section Lockstep

variable (he : o.extended = false) (hst : o.strict = false)

include he in
/-- A run of `*`. If it is a globstar, what follows is told by `after`. -/
theorem loosens_stars (hs : rest.head? ≠ some '*')
    (hrest : Loosens o (overdemands o (some '*') rest) (run o (some '*') {} 0 rest)
      (run o (some '*') {} 0 (collapsed o rest)))
    (hafter : atBoundary o.separator rest.head? = true →
      Loosens o ([o.separator.char, o.separator.char].isPrefixOf rest ||
        overdemands o (some '*') rest) (run o (some '*') {} 1 rest)
        (run o (some '*') {} 1 (collapsed o rest))) :
    Loosens o (overdemands o b (List.replicate (n + 1) '*' ++ rest))
      (run o b {} 0 (List.replicate (n + 1) '*' ++ rest))
      (run o b {} 0 (List.replicate (n + 1) '*' ++ collapsed o rest)) := by
  have hhead : (collapsed o rest).head? = rest.head? := Path.head?_collapse _ _
  have hs' : (collapsed o rest).head? ≠ some '*' := hhead ▸ hs
  rw [overdemands_stars n hs]
  cases hg : o.globstar with
  | false =>
    exact hrest.cons (l := .dots) ⟨trivial, nofun⟩ (pieces_run_dots hs (by simp [he]) hg)
      (pieces_run_dots hs' (by simp [he]) hg)
  | true =>
    by_cases hn : n ≠ 0 ∧ atBoundary o.separator b = true ∧
        atBoundary o.separator rest.head? = true
    · have hover : (true && n != 0 && atBoundary o.separator b) = true := by simp [hn.1, hn.2.1]
      rw [hover, Bool.true_and]
      exact (hafter hn.2.2).cons (l := .globstar) ⟨trivial, nofun⟩ (pieces_run_globstar he hg hs hn)
        (pieces_run_globstar he hg hs' (hhead ▸ hn))
    · have hover : (true && n != 0 && atBoundary o.separator b &&
          [o.separator.char, o.separator.char].isPrefixOf rest) = false := by
        rw [Bool.eq_false_iff]
        intro h
        simp only [Bool.true_and, Bool.and_eq_true, bne_iff_ne] at h
        refine hn ⟨h.1.1, h.1.2, ?_⟩
        obtain ⟨tail, rfl⟩ := List.isPrefixOf_iff_prefix.1 h.2
        exact beq_self_eq_true _
      rw [hover, Bool.false_or]
      exact hrest.cons (l := .run) ⟨trivial, nofun⟩ (pieces_run_run he hg hs hn)
        (pieces_run_run he hg hs' (hhead ▸ hn))

include hst in
theorem loosens_separators (hr : rest.head? ≠ some o.separator.char)
    (hrest : Loosens o (overdemands o (some o.separator.char) rest)
      (run o (some o.separator.char) {} 0 rest)
      (run o (some o.separator.char) {} 0 (collapsed o rest))) :
    Loosens o (overdemands o b (List.replicate (n + 1) o.separator.char ++ rest))
      (run o b {} 0 (List.replicate (n + 1) o.separator.char ++ rest))
      (run o b {} 0 (o.separator.char :: collapsed o rest)) := by
  have hr' : (collapsed o rest).head? ≠ some o.separator.char := by rwa [Path.head?_collapse]
  obtain ⟨ls, ls', ha, ha', hls⟩ := hrest
  refine ⟨_, _, ?_, ?_, (overdemands_separators n hr).symm ▸ hls.separators n⟩
  · rw [pieces_run_repeated hst hr, ha, List.map_append]
  · have h := pieces_run_repeated (o := o) (b := b) (x := {}) (n := 0) hst hr'
    rw [List.replicate_one, List.singleton_append] at h
    rw [h, ha']
    rfl

include hst in
/-- A run of separators after a globstar, which takes the first one along. -/
theorem loosens_separators_globstar (hr : rest.head? ≠ some o.separator.char)
    (hrest : Loosens o (overdemands o (some o.separator.char) rest)
      (run o (some o.separator.char) {} 0 rest)
      (run o (some o.separator.char) {} 0 (collapsed o rest))) :
    Loosens o ([o.separator.char, o.separator.char].isPrefixOf
        (List.replicate (n + 1) o.separator.char ++ rest) ||
      overdemands o b (List.replicate (n + 1) o.separator.char ++ rest))
      (run o b {} 1 (List.replicate (n + 1) o.separator.char ++ rest))
      (run o b {} 1 (o.separator.char :: collapsed o rest)) := by
  cases n with
  | zero =>
    have hover : [o.separator.char, o.separator.char].isPrefixOf
        (List.replicate 1 o.separator.char ++ rest) = false := by
      rw [List.replicate_one, List.singleton_append, List.isPrefixOf,
        isPrefixOf_cons_eq_false _ hr, Bool.and_false]
    rw [hover, overdemands_separators 0 hr, decide_eq_false (by decide), Bool.and_false,
      Bool.false_or, Bool.false_or]
    exact hrest
  | succ n =>
    rw [List.replicate_succ, List.cons_append, run, run]
    have hover : [o.separator.char, o.separator.char].isPrefixOf
        (o.separator.char :: (List.replicate (n + 1) o.separator.char ++ rest)) = true := by
      simp [List.replicate_succ]
    rw [hover, Bool.true_or]
    obtain ⟨ls, ls', ha, ha', hls⟩ := hrest
    refine ⟨_, ls', ?_, ha', hls.separators_nil n⟩
    rw [pieces_run_repeated hst hr, ha, List.map_append]

include he hst in
/-- **The scans of a glob and of the collapsed glob.** The glob yields a looser row of lexemes,
unless it demands more separators somewhere. The second part is about what follows a globstar. -/
theorem loosens_run (cs : List Char) :
    (∀ b, Loosens o (overdemands o b cs) (run o b {} 0 cs) (run o b {} 0 (collapsed o cs))) ∧
      (cs.head? = some o.separator.char → ∀ b,
        Loosens o ([o.separator.char, o.separator.char].isPrefixOf cs || overdemands o b cs)
          (run o b {} 1 cs) (run o b {} 1 (collapsed o cs))) := by
  have hstar := o.separator.char_ne_star.symm
  have hnil : ∀ b k, Loosens o false (run o b {} k []) (run o b {} k []) := fun b k =>
    ⟨[], [], rfl, rfl, .nil⟩
  induction cs using Path.runs_induction (fun c => c = '*' ∨ c = o.separator.char) with
  | nil => exact ⟨fun b => hnil b 0, nofun⟩
  | char c cs hc ih =>
    rw [not_or] at hc
    have hcollapsed : collapsed o (c :: cs) = c :: collapsed o cs :=
      Path.collapse_cons_of_not (beq_false_of_ne hc.2)
    refine ⟨fun b => ?_, fun h => absurd (Option.some.inj h) hc.2⟩
    rw [hcollapsed, overdemands_char hc.1 hc.2]
    exact (ih.1 (some c)).cons (l := .char c) ⟨trivial, fun h => hc.2 (Lexeme.char.inj h)⟩
      (pieces_run_literal (literal_of_not_extended he hc.1 hc.2 _))
      (pieces_run_literal (literal_of_not_extended he hc.1 hc.2 _))
  | run c n cs hc hcs ih =>
    rcases hc with rfl | rfl
    · have hcollapsed : collapsed o (List.replicate (n + 1) '*' ++ cs) =
          List.replicate (n + 1) '*' ++ collapsed o cs :=
        Path.collapse_replicate_of_not _ (beq_false_of_ne hstar)
      rw [hcollapsed]
      refine ⟨fun b => loosens_stars he hcs (ih.1 _) fun hbound => ?_,
        fun h => absurd (Option.some.inj h) hstar⟩
      cases cs with
      | nil => exact hnil _ 1
      | cons d cs => exact ih.2 (congrArg some (eq_of_beq hbound)) _
    · have hcollapsed : collapsed o (List.replicate (n + 1) o.separator.char ++ cs) =
          o.separator.char :: collapsed o cs := Path.collapse_replicate_append n hcs
      rw [hcollapsed]
      exact ⟨fun b => loosens_separators hst hcs (ih.1 _),
        fun _ b => loosens_separators_globstar hst hcs (ih.1 _)⟩

end Lockstep

end Scan

/-! ### Globs -/

namespace Glob

variable {o : Options}

/-- A glob with every run of separators collapsed to a single one. -/
def collapsed (s : Separator) (text : String) : String :=
  String.ofList (Path.collapse s.splits text.toList)

theorem exists_of_basic (hf : o.flags = {}) {text : String} {ls : List Lexeme}
    (hs : (scan o text.toList).pieces = ls.map (Lexeme.piece o.separator))
    (hls : ∀ l ∈ ls, l.Basic o.separator) :
    ∃ g, compile o text = .ok g ∧ ∀ path,
      g.accepts path = true ↔ (Lexeme.row o.separator {} ls).Matches [] path.toList [] := by
  have hflags : o.flags.inlined = {} := by rw [hf]; rfl
  have hb := Lexeme.builds_row (s := o.separator) (f := o.flags.inlined) fun l hl => (hls l hl).1
  obtain ⟨g, hg, ha⟩ := exists_of_lexemes hs hb (by decide)
    (List.forall_mem_map.2 fun l _ => Lexeme.nesting_part_lt l)
    (List.forall_mem_map.2 fun l _ => Lexeme.looksAhead_part l) (by rw [hf]) (by rw [hf])
  rw [hflags] at ha
  exact ⟨g, hg, ha⟩

/-- **Repeated separators.** Without the extended syntax, mandatory separators and flags, a glob
accepts all that the collapsed glob accepts, unless two separators follow a globstar in it or three
separators follow one another under `windows`. Then the collapsed glob accepts some path that the
glob does not accept. -/
theorem accepts_of_collapsed_iff (o : Options) (he : o.extended = false) (hst : o.strict = false)
    (hf : o.flags = {}) (text : String) :
    ∃ g w, compile o text = .ok g ∧ compile o (collapsed o.separator text) = .ok w ∧
      ((∀ path, w.accepts path = true → g.accepts path = true) ↔
        Scan.overdemands o none (o.separator.normalize text.toList) = false) := by
  obtain ⟨ls, ls', hscan, hscan', hls⟩ :=
    (Scan.loosens_run he hst (o.separator.normalize text.toList)).1 none
  have hcollapsed : scan o (collapsed o.separator text).toList =
      Scan.run o none {} 0 (Scan.collapsed o (o.separator.normalize text.toList)) := by
    rw [scan, collapsed, String.toList_ofList, Separator.normalize_collapse]
  rw [← hcollapsed] at hscan'
  obtain ⟨hbasic, hbasic'⟩ := List.forall_mem_append.1 hls.basic
  obtain ⟨g, hg, ha⟩ := exists_of_basic hf hscan hbasic
  obtain ⟨w, hw, ha'⟩ := exists_of_basic hf hscan' hbasic'
  refine ⟨g, w, hg, hw, ?_⟩
  constructor
  · intro haccepts
    rw [← Bool.not_eq_true]
    intro hover
    -- the collapsed glob accepts a path with no more separators than it demands
    obtain ⟨t, hcount, ht⟩ := Lexeme.exists_least (f := {}) rfl rfl fun l hl => (hbasic' l hl).2
    have hpath := haccepts (String.ofList t) ((ha' _).2 (by simpa using ht [] []))
    have hle := Lexeme.demand_le_count ((ha _).1 hpath)
    have hlt := hls.demand_le
    rw [String.toList_ofList, hcount] at hle
    rw [hover, Bool.toNat_true] at hlt
    omega
  · intro hover path hpath
    exact (ha path).2 ((hls.looser hover).matches ((ha' path).1 hpath))

/-- `a//**/b` accepts `a/x/b`, as `a/**/b` does. -/
theorem accepts_of_collapsed_iff_globstar :
    ∃ g w, compile { globstar := true, separator := .posix } "a//**/b" = .ok g ∧
      compile { globstar := true, separator := .posix } "a/**/b" = .ok w ∧
      w.accepts "a/x/b" = true ∧ g.accepts "a/x/b" = true := by
  obtain ⟨g, w, hg, hw, hiff⟩ :=
    accepts_of_collapsed_iff { globstar := true, separator := .posix } rfl rfl rfl "a//**/b"
  have ht : collapsed .posix "a//**/b" = "a/**/b" := by decide
  rw [ht] at hw
  have hc : (compile { globstar := true, separator := .posix } "a/**/b").toOption.map
      (·.accepts "a/x/b") = some true := by decide +kernel
  rw [hw] at hc
  have hacc : w.accepts "a/x/b" = true := Option.some.inj hc
  exact ⟨g, w, hg, hw, hacc, hiff.2 (by decide) "a/x/b" hacc⟩

/-- `**//b` does not accept `b`, which `**/b` accepts, and under `windows` the glob `a///b` does not
accept `a\b`, which `a/b` accepts. -/
theorem not_accepts_of_repeated_separators :
    (∃ g w, compile { globstar := true, separator := .posix } "**//b" = .ok g ∧
      compile { globstar := true, separator := .posix } (collapsed .posix "**//b") = .ok w ∧
      g.givenUp false "b" = [] ∧ w.accepts "b" = true ∧ g.accepts "b" = false) ∧
    ∃ g w, compile { separator := .windows } "a///b" = .ok g ∧
      compile { separator := .windows } (collapsed .windows "a///b") = .ok w ∧
      g.givenUp false "a\\b" = [] ∧ w.accepts "a\\b" = true ∧ g.accepts "a\\b" = false := by
  have hg : (compile { globstar := true, separator := .posix } "**//b").toOption.map
      (fun g => (g.givenUp false "b", g.accepts "b")) = some ([], false) := by decide +kernel
  have hw : (compile { globstar := true, separator := .posix }
      (collapsed .posix "**//b")).toOption.map (·.accepts "b") = some true := by decide +kernel
  have hg' : (compile { separator := .windows } "a///b").toOption.map
      (fun g => (g.givenUp false "a\\b", g.accepts "a\\b")) = some ([], false) := by decide +kernel
  have hw' : (compile { separator := .windows } (collapsed .windows "a///b")).toOption.map
      (·.accepts "a\\b") = some true := by decide +kernel
  obtain ⟨g, hg, h⟩ := exists_of_toOption_map hg
  obtain ⟨w, hw, hacc⟩ := exists_of_toOption_map hw
  obtain ⟨g', hg', h'⟩ := exists_of_toOption_map hg'
  obtain ⟨w', hw', hacc'⟩ := exists_of_toOption_map hw'
  exact ⟨⟨g, w, hg, hw, (Prod.mk.inj h).1, hacc, (Prod.mk.inj h).2⟩,
    ⟨g', w', hg', hw', (Prod.mk.inj h').1, hacc', (Prod.mk.inj h').2⟩⟩

end Glob

end PathGlob
