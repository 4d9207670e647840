import PathGlob.Run
import PathGlob.Proofs.Lines
import PathGlob.Proofs.Spelling

/-!
# Runs of a test

A test takes its paths from the command line or, if there are none, from the input. It is the same
test either way, and verbosity changes only what is logged.

* `Command.out_testPaths` and `Command.exit_testPaths`: the verdicts that a test prints, and its
  exit status;
* `Request.outcome_of_lists`: a test of paths on the command line and one of the same paths in the
  input leave the same behind.
-/

namespace PathGlob

namespace Command

variable {c c' : Command} {segments : Bool} {paths paths' : List String} {input input' : ByteArray}

theorem testPaths_congr (h : Lines.load paths input = Lines.load paths' input') :
    c.testPaths segments paths input = c.testPaths segments paths' input' := by
  rw [testPaths, testPaths, h]

theorem testPaths_of_error {e : MatcherError} (h : Glob.compile c.options c.glob = .error e) :
    c.testPaths segments paths input = .failure (c.log c.translationEvents) e.message := by
  rw [testPaths, h]

/-- Tests of one glob under the same options differ in what they log. -/
theorem testPaths_eq_of_quiet (ho : c.options = c'.options) (hg : c.glob = c'.glob) :
    c.testPaths segments paths input =
      { c'.testPaths segments paths input with err := (c.testPaths segments paths input).err } := by
  rw [testPaths, testPaths, ← ho, ← hg]
  cases Glob.compile c.options c.glob with
  | error e => rfl
  | ok g => cases Lines.load paths input <;> rfl

section Compiled

variable {g : Glob} (hg : Glob.compile c.options c.glob = .ok g)
  (hl : Lines.load paths input = .ok paths')

include hg hl

theorem out_testPaths : (c.testPaths segments paths input).out = verdicts g segments paths' := by
  simp only [testPaths, hg, hl]

theorem exit_testPaths : (c.testPaths segments paths input).exit = 0 ↔
    ∀ p ∈ paths', g.acceptsBy segments p = true := by
  simp only [testPaths, hg, hl, ← List.all_eq_true]
  split <;> simp_all

end Compiled

end Command

namespace Request

variable {o : Options} {segments : Bool} {glob : String} {paths : List String}

/-- **A test reports the same for paths on the command line and for the same paths in the input**,
one to a line. It prints a verdict on every path, and the exit status is 0 if all of them are
matches. A glob that is none prints nothing. Verbosity changes the error output only. -/
theorem outcome_of_lists (hne : paths ≠ []) (hp : ∀ p ∈ paths, Lines.Listable p) {text : String}
    (ht : Lines.Lists paths text.toList) :
    (∀ n, Command.Asks (Command.words o segments n) o segments (min n 255)) ∧
    ∃ exit out,
      (∀ g, Glob.compile o glob = .ok g →
        out = String.join (paths.map fun p => Report.verdict p (g.acceptsBy segments p) ++ "\n") ∧
        (exit = 0 ↔ ∀ p ∈ paths, g.acceptsBy segments p = true)) ∧
      (∀ e, Glob.compile o glob = .error e → out = "" ∧ exit = 1) ∧
      ∀ ws verbose, Command.Asks ws o segments verbose → ∃ err,
        (∀ input, (read ("match" :: ws ++ "--" :: glob :: paths)).outcome input =
          { exit, out, err }) ∧
        (read ("match" :: ws ++ ["--", glob])).outcome text.toUTF8 = { exit, out, err } := by
  -- the words of the command line choose no more than the verbosity
  let c (verbose : Nat) : Command := { task := .test segments paths, glob, options := o, verbose }
  have hload : ∀ input, Lines.load paths input = .ok paths := by
    intro input
    obtain ⟨p, ps, rfl⟩ := List.exists_cons_of_ne_nil hne
    rfl
  have hread : Lines.load [] text.toUTF8 = .ok paths := Lines.read_of_lists ht hp hne
  let r := (c 0).testPaths segments paths .empty
  refine ⟨Command.asks_words o segments, r.exit, r.out, ?_, ?_, ?_⟩
  · intro g hg
    exact ⟨Command.out_testPaths (c := c 0) hg (hload _),
      Command.exit_testPaths (c := c 0) hg (hload _)⟩
  · intro e he
    have hr : r = _ := Command.testPaths_of_error (c := c 0) he
    rw [hr]
    exact ⟨rfl, rfl⟩
  · intro ws verbose hws
    have hquiet : ∀ paths' input, Lines.load paths' input = .ok paths →
        (c verbose).testPaths segments paths' input =
          { r with err := ((c verbose).testPaths segments paths .empty).err } := by
      intro paths' input h
      rw [Command.testPaths_congr (h.trans (hload .empty).symm)]
      exact Command.testPaths_eq_of_quiet rfl rfl
    refine ⟨((c verbose).testPaths segments paths .empty).err, fun input => ?_, ?_⟩
    · rw [hws.read_operands]
      exact hquiet paths input (hload input)
    · rw [hws.2 glob]
      exact hquiet [] text.toUTF8 hread

/-- Two paths, on lines with different ends and a blank line between them. -/
theorem outcome_of_lists_blank :
    (read ["match", "-g", "--", "*.rs", "a.rs", "b.c"]).outcome .empty =
      (read ["match", "-g", "--", "*.rs"]).outcome "a.rs\r\n\nb.c".toUTF8 := by
  have hg : Command.Asks ["-g"] { globstar := true } false 0 := ⟨by decide, fun glob => rfl⟩
  have ht : Lines.Lists ["a.rs", "b.c"] "a.rs\r\n\nb.c".toList :=
    .line "a.rs" (k := 1) (by decide)
      (.blank (k := 0) (by decide) (.last "b.c" (k := 0) (by decide)))
  obtain ⟨-, exit, out, -, -, h⟩ :=
    @outcome_of_lists { globstar := true } false "*.rs" _ (by decide) (by decide) _ ht
  obtain ⟨err, hargs, hinput⟩ := h ["-g"] 0 hg
  exact (hargs .empty).trans hinput.symm

end Request

end PathGlob
