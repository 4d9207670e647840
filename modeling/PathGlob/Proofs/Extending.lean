import PathGlob.Proofs.Basic
import PathGlob.Proofs.Global

/-!
# Globs that the extended syntax leaves alone

The extended syntax gives a meaning to few marks: to `?`, `[` and an opening brace wherever they
stand, and to `+`, `@`, `!` and `*` where `(` follows. Closing ends, bars and commas have a meaning
only after one of these. So a glob without the marks is read in one way, whether the extended syntax
is on or off.

* `Scan.marks` and `Scan.Unmarked`: the marks, and the texts without any;
* `Scan.step_extending`: a step at an unmarked text does not see the switch;
* `Scan.run_extending`: nor does a whole scan;
* `Glob.accepts_extending`: the translations of an unmarked glob, and the paths that it accepts.
-/

namespace PathGlob

/-- The options with the extended syntax switched on or off. -/
def Options.extending (o : Options) (on : Bool) : Options := { o with extended := on }

namespace Scan

/-- The texts that have a meaning in the extended syntax only. -/
def marks : List (List Char) :=
  [['?'], ['['], ['\x7b'], ['+', '('], ['@', '('], ['!', '('], ['*', '(']]

/-- A text that contains none of the marks. -/
def Unmarked (cs : List Char) : Prop := ∀ m ∈ marks, ¬m <:+: cs

/-! ### Unmarked texts -/

namespace Unmarked

variable {c : Char} {cs rest : List Char}

theorem tail (h : Unmarked (c :: rest)) : Unmarked rest := fun m hm hr =>
  h m hm (hr.trans (List.suffix_cons c rest).isInfix)

theorem normalize (h : Unmarked cs) (s : Separator) : Unmarked (s.normalize cs) := by
  intro m hm hr
  have hslash : ∀ m ∈ marks, '\\' ∉ m := by decide
  exact h m hm (s.infix_of_infix_normalize (hslash m hm) hr)

theorem not_prefix {m : List Char} (h : Unmarked cs) (hm : m ∈ marks) : ¬m <+: cs := fun hp =>
  h m hm hp.isInfix

theorem ne (h : Unmarked (c :: rest)) {d : Char} (hd : [d] ∈ marks) : c ≠ d := by
  rintro rfl
  exact h.not_prefix hd ⟨rest, rfl⟩

theorem head?_ne (h : Unmarked (c :: rest)) (hc : [c, '('] ∈ marks) : rest.head? ≠ some '(' := by
  intro hr
  obtain ⟨tail, rfl⟩ := List.head?_eq_some_iff.1 hr
  exact h.not_prefix hc ⟨tail, rfl⟩

end Unmarked

/-! ### Steps -/

variable {o : Options} {b : Option Char} {x : Context} {c : Char} {k : Nat} {cs rest : List Char}

/-- Of the operators only `?` is read differently in the extended syntax, outside classes. -/
theorem operator_extending (on : Bool) (hx : x.inClass = false) {op : Operator}
    (hop : op ≠ .atMostOne) : operator (o.extending on) b x rest op = operator o b x rest op := by
  cases op with
  | atMostOne => exact absurd rfl hop
  | anyNumber | atLeastOne | exactlyOne => rfl
  | negated => simp only [operator, hx, Bool.and_false, Bool.false_eq_true, ↓reduceIte]

/-- **A step at an unmarked text** does not see the switch. -/
theorem step_extending (on : Bool) (h : Unmarked (c :: rest)) (hx : x.inClass = false) :
    step (o.extending on) b x c rest = step o b x c rest := by
  have hc := Symbol.char?_ofChar o.separator c
  have hs : Symbol.ofChar (o.extending on).separator c = Symbol.ofChar o.separator c := rfl
  unfold step
  rw [hs]
  cases hsymbol : Symbol.ofChar o.separator c with
  | openBracket => exact absurd (hc '[' (by rw [hsymbol]; rfl)) (h.ne (by decide))
  | openBrace => exact absurd (hc '\x7b' (by rw [hsymbol]; rfl)) (h.ne (by decide))
  | operator op =>
    -- an operator other than `?` is a mark only together with a parenthesis
    obtain ⟨hop, hmark⟩ : op ≠ .atMostOne ∧ [c, '('] ∈ marks := by
      rw [hsymbol] at hc
      cases op with
      | atMostOne => exact absurd (hc '?' rfl) (h.ne (by decide))
      | anyNumber => exact ⟨by decide, by rw [hc '*' rfl]; decide⟩
      | atLeastOne => exact ⟨by decide, by rw [hc '+' rfl]; decide⟩
      | exactlyOne => exact ⟨by decide, by rw [hc '@' rfl]; decide⟩
      | negated => exact ⟨by decide, by rw [hc '!' rfl]; decide⟩
    have hopens : ∀ o' : Options, opensGroup o' x rest op = false := fun o' =>
      opensGroup_eq_false (h.head?_ne hmark) op
    simp only [hopens, operator_extending on hx hop]
  | plain | special | separator | openParen | closeParen | bar | closeBracket | closeBrace
  | comma => rfl

theorem inClass_step (h : Unmarked (c :: rest)) (hx : x.inClass = false) :
    (step o b x c rest).context.inClass = false := by
  rw [step_eq_move hx fun _ => h.ne (by decide), Move.inClass_context, hx]

/-- **The scan of an unmarked text** does not see the switch. -/
theorem run_extending (on : Bool) (h : Unmarked cs) (hx : x.inClass = false) :
    run (o.extending on) b x k cs = run o b x k cs := by
  induction cs generalizing b x k with
  | nil => rfl
  | cons c rest ih =>
    cases k with
    | zero =>
      have hx' : (step o b x c rest).context.inClass = false := inClass_step h hx
      simp only [run, step_extending on h hx, ih h.tail hx']
    | succ k => exact ih h.tail hx

end Scan

/-! ### Globs -/

theorem translate_extending (o : Options) (on : Bool) {text : String}
    (h : Scan.Unmarked text.toList) : translate (o.extending on) text = translate o text := by
  have hscan : scan (o.extending on) text.toList = scan o text.toList :=
    Scan.run_extending on (h.normalize o.separator) rfl
  simp only [translate, hscan]
  rfl

namespace Glob

/-- **Globs that the extended syntax leaves alone.** A glob without marks has one translation,
whether the extended syntax is on or off. It compiles, and it accepts the same paths, as a whole and
by segments. -/
theorem accepts_extending (o : Options) {text : String} (h : Scan.Unmarked text.toList)
    (on on' : Bool) :
    translate (o.extending on) text = translate (o.extending on') text ∧
      ∃ g w, compile (o.extending on) text = .ok g ∧ compile (o.extending on') text = .ok w ∧
        ∀ path, g.accepts path = w.accepts path ∧
          g.acceptsSegments path = w.acceptsSegments path := by
  have htranslate : translate (o.extending on) text = translate (o.extending on') text :=
    (translate_extending o on h).trans (translate_extending o on' h).symm
  -- without the extended syntax every glob compiles
  have hcompile : ∀ on, ∃ g, compile (o.extending on) text = .ok g := by
    intro on
    obtain ⟨g, hg, -⟩ := exists_of_not_extended (o := o.extending false) rfl text
    rw [exists_compile_iff, translate_extending o on h, ← translate_extending o false h]
    exact exists_compile_iff.1 ⟨g, hg⟩
  obtain ⟨g, hg⟩ := hcompile on
  obtain ⟨w, hw⟩ := hcompile on'
  refine ⟨htranslate, g, w, hg, hw, fun path => ?_⟩
  obtain ⟨hoptions, -, hmatcher, hsegments⟩ := eq_of_compile hg
  obtain ⟨hoptions', -, hmatcher', hsegments'⟩ := eq_of_compile hw
  rw [htranslate] at hmatcher hsegments
  have hsame : g.matcher = w.matcher := Except.ok.inj (hmatcher.symm.trans hmatcher')
  have hsame' : g.segments = w.segments := hsegments.trans hsegments'.symm
  constructor
  · rw [accepts, accepts, hsame]
  · unfold acceptsSegments stages components
    rw [hsame', hoptions, hoptions']
    rfl

/-- Nothing is open in `**/+a(|b,)]}`, so its bar, its comma and its closing ends stand for
themselves. -/
theorem accepts_extending_stray_ends :
    ∃ g w, compile (Options.extending { globstar := true } true) "**/+a(|b,)]\x7d" = .ok g ∧
      compile (Options.extending { globstar := true } false) "**/+a(|b,)]\x7d" = .ok w ∧
      g.accepts "x/+a(|b,)]\x7d" = true ∧ w.accepts "x/+a(|b,)]\x7d" = true := by
  have hc : (compile (Options.extending { globstar := true } false)
      "**/+a(|b,)]\x7d").toOption.map (·.accepts "x/+a(|b,)]\x7d") = some true := by
    decide +kernel
  have hun : Scan.Unmarked "**/+a(|b,)]\x7d".toList := by
    unfold Scan.Unmarked
    decide
  obtain ⟨-, g, w, hg, hw, hpaths⟩ := accepts_extending { globstar := true } hun true false
  have hacc : w.accepts "x/+a(|b,)]\x7d" = true := by
    rw [hw] at hc
    exact Option.some.inj hc
  exact ⟨g, w, hg, hw, (hpaths _).1.trans hacc, hacc⟩

end Glob

end PathGlob
