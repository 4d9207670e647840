import PathGlob.Proofs.Joined
import PathGlob.Proofs.Global
import PathGlob.Proofs.Glob.Similarity

/-!
# Mandatory separators

The switch `strict` makes all separators of a glob mandatory. Without it the first of two separators
may be left out, and nothing else changes. So `strict` can only take paths away, and the segments,
for which separators do not count, stay the same. But a separator that may be left out is a
repetition, and nests deeper than a mandatory one.

* `Scan.cut_run_strictly`: the scans with and without `strict` are cut alike;
* `Scan.eases_moves`: they make the same moves, except at separators;
* `Glob.accepts_of_strict`: a path that is accepted with `strict` is accepted without it.
-/

namespace PathGlob

/-- The options with the switch `strict` put in or taken out. -/
def Options.strictly (o : Options) (on : Bool) : Options := { o with strict := on }

namespace Scan

variable {o : Options} {b : Option Char} {x : Context} {c : Char} {k : Nat} {cs rest : List Char}

/-! ### Steps -/

theorem step_strictly (on : Bool) (hc : c ≠ o.separator.char) :
    step (o.strictly on) b x c rest = step o b x c rest := by
  have hs : Symbol.ofChar (o.strictly on).separator c = Symbol.ofChar o.separator c := rfl
  unfold step
  rw [hs]
  cases hsymbol : Symbol.ofChar o.separator c with
  | separator => exact absurd (Symbol.ofChar_eq_separator_iff.1 hsymbol) hc
  | operator op => cases op <;> rfl
  | plain | special | openParen | closeParen | bar | openBracket | closeBracket | openBrace
  | closeBrace | comma => rfl

/-- At a separator the switch matters for nothing but whether the path may leave it out. -/
theorem exists_step_separator (o : Options) (b : Option Char) (x : Context) (rest : List Char) :
    ∃ k, ∀ on, ∃ lenient, step (o.strictly on) b x o.separator.char rest =
      ⟨.separator lenient, x, k⟩ := by
  have hs : ∀ on, step (o.strictly on) b x o.separator.char rest =
      separator (o.strictly on) x rest := by
    intro on
    have hsymbol : Symbol.ofChar (o.strictly on).separator o.separator.char = .separator :=
      Symbol.ofChar_char o.separator
    simp only [step, hsymbol]
  by_cases hr : rest.head? = some o.separator.char
  · refine ⟨if o.separator = .windows then 1 else 0, fun on => ⟨!on, ?_⟩⟩
    rw [hs]
    exact if_pos hr
  · refine ⟨0, fun on => ⟨false, ?_⟩⟩
    rw [hs]
    exact if_neg hr

/-! ### Segments -/

/-- **The scans with and without the switch are cut alike.** -/
theorem cut_run_strictly (on on' : Bool) (opened : List Char) :
    Piece.cut o.separator opened (run (o.strictly on) b x k cs).pieces =
      Piece.cut o.separator opened (run (o.strictly on') b x k cs).pieces := by
  induction cs generalizing b x k opened with
  | nil => rfl
  | cons c rest ih =>
    cases k with
    | succ k => exact ih opened
    | zero =>
      rw [pieces_run_cons, pieces_run_cons]
      by_cases hc : c = o.separator.char
      · subst hc
        obtain ⟨k, hk⟩ := exists_step_separator o b x rest
        obtain ⟨lenient, hstep⟩ := hk on
        obtain ⟨lenient', hstep'⟩ := hk on'
        rw [hstep, hstep']
        exact congrArg (Segment.close opened false ++ ·) (ih [])
      · rw [step_strictly on hc, step_strictly on' hc]
        exact Piece.cut_cons_congr ih _ opened

/-! ### Moves -/

/-- The second move is the first one, or it takes in a separator that the path may leave out. -/
inductive Eases : Move → Move → Prop
  | same (m : Move) : Eases m m
  | separator (lenient : Bool) :
      Eases (.inert (.separator false)) (.inert (.separator lenient))

theorem move_strictly (on : Bool) (hc : c ≠ o.separator.char) :
    move (o.strictly on) b x c rest = move o b x c rest := by
  have hs : Symbol.ofChar (o.strictly on).separator c = Symbol.ofChar o.separator c := rfl
  unfold move
  rw [hs]
  cases hsymbol : Symbol.ofChar o.separator c with
  | separator => exact absurd (Symbol.ofChar_eq_separator_iff.1 hsymbol) hc
  | operator op => cases op <;> rfl
  | plain | special | openParen | closeParen | bar | openBracket | closeBracket | openBrace
  | closeBrace | comma => rfl

theorem move_separator (on : Bool) :
    move (o.strictly on) b x o.separator.char rest =
      .inert (.separator (rest.head? == some o.separator.char && !on)) := by
  have hs : Symbol.ofChar (o.strictly on).separator o.separator.char = .separator :=
    Symbol.ofChar_char o.separator
  simp only [move, hs]
  rfl

/-- **The scans with and without the switch make the same moves**, except that without it
separators may be left out. -/
theorem eases_moves (o : Options) (b : Option Char) (x : Context) (k : Nat) (cs : List Char) :
    List.Forall₂ Eases (moves (o.strictly true) b x k cs) (moves (o.strictly false) b x k cs) := by
  induction cs generalizing b x k with
  | nil => exact .nil
  | cons c rest ih =>
    cases k with
    | succ k => exact ih (some c) x k
    | zero =>
      unfold moves
      by_cases hc : c = o.separator.char
      · subst hc
        obtain ⟨k, hk⟩ := exists_step_separator o b x rest
        obtain ⟨lenient, hstep⟩ := hk true
        obtain ⟨lenient', hstep'⟩ := hk false
        rw [hstep, hstep', move_separator, move_separator, Bool.not_true, Bool.and_false]
        exact .cons (.separator _) (ih _ x k)
      · rw [step_strictly true hc, step_strictly false hc, move_strictly true hc,
          move_strictly false hc]
        exact .cons (.same _) (ih _ _ _)

end Scan

namespace Lexeme

open Regex

variable {s : Separator} {f : Flags}

theorem within_separator (lenient : Bool) :
    (part s f (.separator false)).Within False (part s f (.separator lenient)) := by
  refine ⟨fun {t p q} h => ?_, False.elim, fun _ => looksAhead_part _⟩
  cases s with
  | windows => exact h
  | posix =>
    cases lenient with
    | false => exact h
    | true => exact ⟨1, Nat.zero_le 1, fun n hn => Nat.le_of_eq (Option.some.inj hn), q, h, rfl⟩

theorem shallower_separator (lenient : Bool) :
    (part s f (.separator false)).Shallower (part s f (.separator lenient)) := by
  cases s with
  | windows => exact ⟨rfl, rfl, Nat.le_refl _⟩
  | posix =>
    cases lenient with
    | false => exact .refl _
    | true => exact ⟨rfl, rfl, Nat.zero_le _⟩

theorem similar_strictly {S : Similarity} (hpart : ∀ l, S.Rel (part s f l) (part s f l))
    (hsep : ∀ lenient, S.Rel (part s f (.separator false)) (part s f (.separator lenient)))
    {o : Options} {glob : List Char} (h : o.extended = true → ¬['!', '('] <:+: glob) :
    List.Forall₂ (Similar S s s f) (Scan.lexemesOf (o.strictly true) glob)
      (Scan.lexemesOf (o.strictly false) glob) := by
  have hmoves := Scan.eases_moves o none {} 0 (o.separator.normalize glob)
  have hnegated : ∀ m ∈ Scan.moves (o.strictly true) none {} 0 (o.separator.normalize glob),
      m.lexeme ≠ .opening (.marked .negated) := fun m hm =>
    Scan.ne_negated_of_mem_lexemesOf (o := o.strictly true) h (List.mem_map_of_mem hm)
  show List.Forall₂ _ (List.map Move.lexeme _) (List.map Move.lexeme _)
  rw [List.forall₂_map_left_iff, List.forall₂_map_right_iff]
  refine ((List.forall₂_and_left _ _).2 ⟨hnegated, hmoves⟩).imp fun m m' hm => ?_
  obtain ⟨hm, heases⟩ := hm
  cases heases with
  | same => exact similar_of_part (fun hn => absurd hn hm) (hpart _) (hpart .run)
  | separator lenient => exact .inert trivial trivial rfl (hsep lenient)

end Lexeme

/-! ### Globs -/

namespace Glob

section

variable {o : Options} {text : String}

theorem pattern_strictly (hc : o.extended = true → '[' ∉ text.toList) (on : Bool) :
    (translate (o.strictly on) text).pattern = String.ofList (o.flags.pattern
      ((Scan.lexemesOf (o.strictly on) text.toList).flatMap (Lexeme.write o.separator))) :=
  Scan.pattern_eq_lexemes (o := o.strictly on) hc

variable (h : o.extended = true → '[' ∉ text.toList ∧ ¬['!', '('] <:+: text.toList)

include h

/-- With mandatory separators the pattern nests no deeper. -/
theorem exists_compile_strictly_iff :
    (∃ w, compile (o.strictly false) text = .ok w) ↔
      (∃ g, compile (o.strictly true) text = .ok g) ∧
        ∀ p, compile (o.strictly false) text ≠ .error (.invalid p .treeTooDeep) := by
  have hclass : o.extended = true → '[' ∉ text.toList := fun he => (h he).1
  have hnegated : o.extended = true → ¬['!', '('] <:+: text.toList := fun he => (h he).2
  have hagree := Lexeme.effects_similar (S := Regex.Shallower.similarity)
    (Lexeme.similar_strictly (s := o.separator) (f := o.flags.inlined)
      (fun _ => Regex.Shallower.refl _) Lexeme.shallower_separator hnegated)
    (Lexeme.similar_base _ o.flags)
  constructor
  · rintro ⟨w, hw⟩
    refine ⟨?_, fun p hp => by rw [hw] at hp; cases hp⟩
    have hfits := exists_compile_iff_fits.1 ⟨w, hw⟩
    rw [pattern_strictly hclass, String.toList_ofList] at hfits
    rw [exists_compile_iff_fits, pattern_strictly hclass, String.toList_ofList]
    exact Lexeme.exists_fits_of_shallower hagree
      (fun l hl => Scan.ne_negated_of_mem_lexemesOf (o := o.strictly false) hnegated hl) hfits
  · rintro ⟨⟨g, hg⟩, hn⟩
    obtain ⟨r, hr, -⟩ := exists_compile_iff_fits.1 ⟨g, hg⟩
    rw [pattern_strictly hclass, String.toList_ofList] at hr
    rw [exists_compile_iff_read hn, pattern_strictly hclass, String.toList_ofList]
    exact (Lexeme.exists_read_iff_of_agree hagree).1 ⟨r, hr⟩

theorem accepts_strictly {g w : Glob} (hg : compile (o.strictly true) text = .ok g)
    (hw : compile (o.strictly false) text = .ok w) {path : String} (hpath : g.accepts path = true) :
    w.accepts path = true := by
  have hclass : o.extended = true → '[' ∉ text.toList := fun he => (h he).1
  have hagree := Lexeme.effects_similar (S := Regex.Within.similarity False)
    (Lexeme.similar_strictly (s := o.separator) (f := o.flags.inlined)
      (fun l => Regex.Within.refl fun _ => Lexeme.looksAhead_part l) Lexeme.within_separator
      fun he => (h he).2) (Lexeme.similar_base _ o.flags)
  have hm := matcher_of_compile hg
  have hm' := matcher_of_compile hw
  have hr := Matcher.read_of_compile hm
  have hr' := Matcher.read_of_compile hm'
  rw [pattern_strictly hclass, String.toList_ofList] at hr hr'
  have hwithin : g.matcher.regex.Within False w.matcher.regex :=
    Lexeme.rel_of_read hagree hr hr'
  exact Matcher.accepts_of_within hwithin hm hm' hpath

end

/-- **Mandatory separators.** The switch `strict` changes no segment of a glob. A glob without
classes and lookaheads compiles without `strict` exactly if it compiles with it and its regex does
not nest too deep, and the paths that it accepts with `strict` it accepts without it too. -/
theorem accepts_of_strict (o : Options) (text : String) :
    (translate (o.strictly true) text).segments = (translate (o.strictly false) text).segments ∧
      ((o.extended = true → '[' ∉ text.toList ∧ ¬['!', '('] <:+: text.toList) →
        ((∃ w, compile (o.strictly false) text = .ok w) ↔
            (∃ g, compile (o.strictly true) text = .ok g) ∧
              ∀ p, compile (o.strictly false) text ≠ .error (.invalid p .treeTooDeep)) ∧
          ∀ g w, compile (o.strictly true) text = .ok g → compile (o.strictly false) text = .ok w →
            ∀ path, g.accepts path = true → w.accepts path = true) :=
  ⟨Scan.cut_run_strictly true false [], fun h => ⟨exists_compile_strictly_iff h,
    fun _ _ hg hw _ => accepts_strictly h hg hw⟩⟩

/-- `+(a//)b` accepts `a//a//b` with `strict`, and so it accepts the path without. -/
theorem accepts_of_strict_group :
    ∃ g w, compile (Options.strictly { extended := true, separator := .posix } true) "+(a//)b" =
        .ok g ∧
      compile (Options.strictly { extended := true, separator := .posix } false) "+(a//)b" =
        .ok w ∧
      g.accepts "a//a//b" = true ∧ w.accepts "a//a//b" = true := by
  obtain ⟨-, h⟩ := accepts_of_strict { extended := true, separator := .posix } "+(a//)b"
  obtain ⟨hiff, haccepts⟩ := h fun _ => by decide
  have hpath : (compile (Options.strictly { extended := true, separator := .posix } true)
      "+(a//)b").toOption.map (·.accepts "a//a//b") = some true := by decide +kernel
  have hw : (compile (Options.strictly { extended := true, separator := .posix } false)
      "+(a//)b").toOption.map (·.pattern) = some "^(a\\/?\\/)+b$" := by decide +kernel
  obtain ⟨w, hw, -⟩ := exists_of_toOption_map hw
  obtain ⟨g, hg⟩ := (hiff.1 ⟨w, hw⟩).1
  rw [hg] at hpath
  have hacc : g.accepts "a//a//b" = true := Option.some.inj hpath
  exact ⟨g, w, hg, hw, hacc, haccepts g w hg hw "a//a//b" hacc⟩

theorem readsAs_separators {o : Options} (he : o.extended = true) (hs : o.separator = .posix) :
    Scan.ReadsAs o "\x7b//\x7d".toList
      [.opening .bare, .separator (!o.strict), .separator false, .closing .bare] := by
  refine fun b x rest => ⟨some '\x7d', ?_⟩
  simp [Scan.moves, Scan.move, Scan.step, Symbol.ofChar, hs, Separator.char, he, Scan.separator,
    Move.lexeme, Move.context, Step.text]

/-- Two separators in 62 groups nest as deep as they may if both are mandatory. If the first one may
be left out, it is a repetition, and nests too deep. -/
theorem compile_lenient_ne_ok :
    '[' ∉ tower "\x7b//\x7d".toList 62 ∧ ¬['!', '('] <:+: tower "\x7b//\x7d".toList 62 ∧
      (∃ g,
        compile (.strictly
            { extended := true, separator := .posix, flags := { global := true } } true)
          (String.ofList (tower "\x7b//\x7d".toList 62)) = .ok g) ∧
      ¬∃ w,
        compile (.strictly
            { extended := true, separator := .posix, flags := { global := true } } false)
          (String.ofList (tower "\x7b//\x7d".toList 62)) = .ok w := by
  have hclass : '[' ∉ "\x7b//\x7d".toList := by decide
  refine ⟨(mem_tower (by decide) _).not.2 hclass, fun h => ?_, ?_, ?_⟩
  · exact absurd ((mem_tower (by decide) 62).1 (h.subset List.mem_cons_self)) (by decide)
  · rw [exists_compile_tower_iff rfl rfl rfl hclass (readsAs_separators rfl rfl)
      (Lexeme.adds_row [.separator false, .separator false] (by simp [Lexeme.Inert]) (by decide))
      (by decide) rfl rfl]
    decide
  · rw [exists_compile_tower_iff rfl rfl rfl hclass (readsAs_separators rfl rfl)
      (Lexeme.adds_row [.separator true, .separator false] (by simp [Lexeme.Inert]) (by decide))
      (by decide) rfl rfl]
    decide

end Glob

end PathGlob
