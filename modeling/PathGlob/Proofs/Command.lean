import PathGlob.Command.Request
import Mathlib.Data.List.Nodup

/-!
# Reading a command line

The words of a command line become arguments, and the arguments are added to a draft one by one. So
what a row of words does is a composition: the words before `--` choose the options, and those after
it are operands whatever they look like.

* `Argument.ofWords_append` and `Draft.addAll_append`: a command line in two parts;
* `Command.Asks`: the words before `--` ask for given options;
* `Command.Asks.read_operands`: the words after the glob are the paths.
-/

namespace PathGlob

/-! ### Arguments -/

namespace Argument

variable {v : Verb} {ws : List String}

theorem ofWords_cons {w : String} (h : w ≠ "--") (ws : List String) :
    ofWords v (w :: ws) = ofWord v w ++ ofWords v ws := by
  rw [ofWords]
  exact h

theorem ofWords_append (h : "--" ∉ ws) (us : List String) :
    ofWords v (ws ++ us) = ws.flatMap (ofWord v) ++ ofWords v us := by
  induction ws with
  | nil => rfl
  | cons w ws ih =>
    rw [List.mem_cons, not_or] at h
    rw [List.cons_append, ofWords_cons (Ne.symm h.1), ih h.2, List.flatMap_cons, List.append_assoc]

theorem splitValue_append {name : List Char} (h : '=' ∉ name) (value : List Char) :
    splitValue (name ++ '=' :: value) = (String.ofList name, some (String.ofList value)) := by
  have hne : ∀ c ∈ name, (c != '=') = true := by
    intro c hc
    rw [bne_iff_ne]
    rintro rfl
    exact h hc
  rw [splitValue, List.takeWhile_append_of_pos hne, List.dropWhile_append_of_pos hne]
  simp

theorem ofWord_switch {s : Switch} (h : s ∈ Switch.ofVerb v :: Switch.shared) :
    ofWord v ("--" ++ s.name) = [.switch s] := by
  cases v <;> cases s <;> first | rfl | exact absurd h (by decide)

theorem ofWord_flags (v : Verb) (letters : String) :
    ofWord v ("--flags=" ++ letters) = [.flags letters] := by
  have hname : '=' ∉ "flags".toList := by decide
  have hlist : ("--flags=" ++ letters).toList =
      '-' :: '-' :: ("flags".toList ++ '=' :: letters.toList) := by
    rw [String.toList_append]
    rfl
  rw [ofWord, hlist]
  simp only [splitValue_append hname, String.ofList_toList]
  cases v <;> rfl

end Argument

/-! ### Drafts -/

namespace Draft

variable {v : Verb} {d d' : Draft}

theorem addAll_append (v : Verb) (d : Draft) (as bs : List Argument) :
    d.addAll v (as ++ bs) = (d.addAll v as).bind (·.addAll v bs) := by
  induction as generalizing d with
  | nil => rfl
  | cons a as ih =>
    rw [List.cons_append, addAll, addAll]
    cases d.add v a with
    | error r => rfl
    | ok d' => exact ih d'

/-- Reading stops with a refusal or for a help text, but not for a command. -/
theorem add_ne_run (v : Verb) (d : Draft) (a : Argument) (c : Command) :
    d.add v a ≠ .error (.run c) := by
  have hrefused : ∀ {α : Type} (x : Except Refusal α),
      x.mapError Request.refused ≠ .error (.run c) := by
    intro α x
    cases x <;> simp [Except.mapError]
  cases a with
  | switch s => exact hrefused _
  | louder => exact hrefused _
  | help =>
    rw [add]
    cases d.settle <;> simp [Except.mapError, Except.bind]
  | flags letters => exact hrefused _
  | flagsNext => exact hrefused _
  | word w =>
    rw [add]
    split
    · simp
    · exact hrefused _
  | operand w => exact hrefused _
  | refused r => simp [add]

theorem addAll_ne_run (v : Verb) (d : Draft) (as : List Argument) (c : Command) :
    d.addAll v as ≠ .error (.run c) := by
  induction as generalizing d with
  | nil => simp [addAll]
  | cons a as ih =>
    rw [addAll]
    cases h : d.add v a with
    | error r =>
      rintro ⟨⟩
      exact add_ne_run v d a c h
    | ok d' => exact ih d'

theorem settle_of_settled (h : d.value = .settled) : d.settle = .ok d := by
  rw [settle, h]

theorem value_of_settle (h : d.settle = .ok d') : d'.value = .settled := by
  unfold settle at h
  split at h
  · rename_i hv
    cases h
    exact hv
  · cases h
  · unfold setFlags at h
    split at h
    · cases h
    · split at h
      · cases h
        rfl
      · cases h

theorem addAll_operands (h : d.value = .settled) (xs : List String) :
    d.addAll .test (xs.map .operand) = .ok { d with operands := d.operands ++ xs } := by
  induction xs generalizing d with
  | nil => simp [addAll]
  | cons x xs ih =>
    have hx : d.add .test (.operand x) = .ok { d with operands := d.operands ++ [x] } := by
      simp [add, addOperand, capacity, settle_of_settled h, Except.map, Except.mapError]
    rw [List.map_cons, addAll, hx]
    refine (ih (d := { d with operands := d.operands ++ [x] }) h).trans ?_
    rw [List.append_assoc, List.singleton_append]

/-- The first operand settles the value of `--flags`. -/
theorem addAll_operands_cons (d : Draft) (x : String) (xs : List String) :
    d.addAll .test (.operand x :: xs.map .operand) =
      (d.settle.map fun d => { d with operands := d.operands ++ x :: xs }).mapError .refused := by
  rw [addAll]
  simp only [add, addOperand, capacity, Option.any_none, Bool.false_eq_true, if_false]
  cases hd : d.settle with
  | error r => rfl
  | ok d' =>
    have hv : d'.value = .settled := value_of_settle hd
    refine (addAll_operands (d := { d' with operands := d'.operands ++ [x] }) hv xs).trans ?_
    rw [List.append_assoc, List.singleton_append]
    rfl

theorem finish_of_settled (h : d.value = .settled) : d.finish v =
    if .windows ∈ d.switches ∧ .posix ∈ d.switches then .error (.exclusive "windows" "posix")
    else match d.operands with
      | [] => .error .noGlob
      | glob :: paths => .ok
          { task := d.task v paths, glob, options := d.options, verbose := min d.verbose 255 } := by
  rw [finish, settle_of_settled h]
  rfl

theorem finish_operands {o : Options} {segments : Bool} {verbose : Nat} {glob : String}
    (hd : d.value = .settled)
    (h : { d with operands := d.operands ++ [glob] }.finish .test =
      .ok { task := .test segments [], glob, options := o, verbose }) (paths : List String) :
    { d with operands := d.operands ++ glob :: paths }.finish .test =
      .ok { task := .test segments paths, glob, options := o, verbose } := by
  rw [finish_of_settled (by exact hd)] at h ⊢
  split at h
  · cases h
  · rename_i hsep
    rw [if_neg hsep]
    -- the glob is the first operand, for otherwise it would be a path
    cases ho : d.operands with
    | nil =>
      simp only [ho, List.nil_append, Except.ok.injEq, Command.mk.injEq, task,
        Task.test.injEq] at h ⊢
      exact ⟨⟨h.1.1, trivial⟩, h.2⟩
    | cons g ps =>
      simp [ho, task] at h

end Draft

/-! ### Tests -/

theorem Request.ofVerb_eq_run_iff {v : Verb} {ws : List String} {c : Command} :
    ofVerb v ws = .run c ↔
      ∃ d, ({} : Draft).addAll v (Argument.ofWords v ws) = .ok d ∧ d.finish v = .ok c := by
  rw [ofVerb]
  cases hd : ({} : Draft).addAll v (Argument.ofWords v ws) with
  | error r =>
    have hr : r ≠ .run c := by
      rintro rfl
      exact Draft.addAll_ne_run _ _ _ _ hd
    simpa using hr
  | ok d => cases hf : d.finish v <;> simp [hf]

namespace Command

/-- The words, which come before `--`, ask for a test under given options: by segments or not, and
with a given verbosity. -/
def Asks (ws : List String) (o : Options) (segments : Bool) (verbose : Nat) : Prop :=
  "--" ∉ ws ∧ ∀ glob, Request.read ("match" :: ws ++ ["--", glob]) =
    .run { task := .test segments [], glob, options := o, verbose }

theorem read_test_eq_run_iff {ws : List String} (h : "--" ∉ ws) {x : String} {xs : List String}
    {c : Command} : Request.read ("match" :: ws ++ "--" :: x :: xs) = .run c ↔
      ∃ d d', ({} : Draft).addAll .test (ws.flatMap (Argument.ofWord .test)) = .ok d ∧
        d.settle = .ok d' ∧
        { d' with operands := d'.operands ++ x :: xs }.finish .test = .ok c := by
  change Request.ofVerb .test (ws ++ "--" :: x :: xs) = .run c ↔ _
  rw [Request.ofVerb_eq_run_iff, Argument.ofWords_append h]
  change (∃ d, Draft.addAll .test {} (_ ++ .operand x :: xs.map .operand) = .ok d ∧ _) ↔ _
  rw [Draft.addAll_append]
  cases hd : ({} : Draft).addAll .test (ws.flatMap (Argument.ofWord .test)) with
  | error r => simp [Except.bind]
  | ok d =>
    cases hs : d.settle <;>
      simp [Except.bind, Draft.addAll_operands_cons, hs, Except.map, Except.mapError]

/-- **The words after the glob are the paths**, whatever they look like. -/
theorem Asks.read_operands {ws : List String} {o : Options} {segments : Bool} {verbose : Nat}
    (h : Asks ws o segments verbose) (glob : String) (paths : List String) :
    Request.read ("match" :: ws ++ "--" :: glob :: paths) =
      .run { task := .test segments paths, glob, options := o, verbose } := by
  obtain ⟨d, d', hd, hs, hf⟩ := (read_test_eq_run_iff h.1).1 (h.2 glob)
  exact (read_test_eq_run_iff h.1).2
    ⟨d, d', hd, hs, Draft.finish_operands (Draft.value_of_settle hs) hf paths⟩

end Command

end PathGlob
