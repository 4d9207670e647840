import PathGlob.Command
import PathGlob.Proofs.Flags

/-!
# What a command line says

The same command can be written in many ways: its options may come in any order and among the
operands, by letters or by names, and letters may share a word. What the words say is a row of
clauses, and the clauses ask for a command.

* `Clause`: one thing that a command line says, and `Clause.Spells`: the words that say a row of
  clauses;
* `Clause.Describes`: a row of clauses asks for a command;
* `Clause.exists_spells`: every command can be spelled.
-/

namespace PathGlob

/-! ### Clauses -/

/-- One thing that a command line says. -/
inductive Clause where
  | switch (s : Switch)
  /-- `-v`. -/
  | louder
  /-- The flags of the matchers. -/
  | flags (fs : List Flag)
  /-- The glob or a path. -/
  | operand (w : String)
  deriving DecidableEq, Repr

namespace Clause

/-- A letter that can stand for a switch. -/
inductive Letter where
  | extended
  | globstar
  | louder
  deriving DecidableEq, Repr

namespace Letter

/-- The letter. -/
def char : Letter → Char
  | extended => 'e'
  | globstar => 'g'
  | louder => 'v'

/-- What the letter says. -/
def clause : Letter → Clause
  | extended => .switch .extended
  | globstar => .switch .globstar
  | louder => .louder

end Letter

/-- The word can be an operand before `--`. -/
def Plain (w : String) : Prop := w.toList.head? = some '-' → w = "-"

instance (w : String) : Decidable (Plain w) := inferInstanceAs (Decidable (_ → _))

/-- The words after a verb that say a row of clauses. -/
inductive Spells (v : Verb) : List String → List Clause → Prop
  | nil : Spells v [] []
  /-- Letters in one word. -/
  | letters (l : Letter) (ls : List Letter) {ws : List String} {cs : List Clause} :
      Spells v ws cs →
      Spells v (String.ofList ('-' :: (l :: ls).map Letter.char) :: ws)
        ((l :: ls).map Letter.clause ++ cs)
  /-- A switch by its name. -/
  | name {s : Switch} (hs : s ∈ Switch.ofVerb v :: Switch.shared) {ws : List String}
      {cs : List Clause} : Spells v ws cs → Spells v (("--" ++ s.name) :: ws) (.switch s :: cs)
  /-- Flags in one word with their option. -/
  | flags (fs : List Flag) {ws : List String} {cs : List Clause} :
      Spells v ws cs → Spells v (("--flags=" ++ Flags.text fs) :: ws) (.flags fs :: cs)
  /-- Flags in a word of their own. -/
  | flagsNext (fs : List Flag) {ws : List String} {cs : List Clause} :
      Spells v ws cs → Spells v ("--flags" :: Flags.text fs :: ws) (.flags fs :: cs)
  | operand {w : String} (hw : Plain w) {ws : List String} {cs : List Clause} :
      Spells v ws cs → Spells v (w :: ws) (.operand w :: cs)
  /-- After `--` all words are operands. -/
  | operands (xs : List String) : Spells v ("--" :: xs) (xs.map .operand)

section Parts

variable (cs cs' : List Clause)

/-- The switches in a row of clauses. -/
def switches : List Switch :=
  cs.flatMap fun | switch s => [s] | _ => []

/-- The lists of flags in a row of clauses. -/
def flagLists : List (List Flag) :=
  cs.flatMap fun | flags fs => [fs] | _ => []

/-- The glob and the paths in a row of clauses. -/
def operandsOf : List String :=
  cs.flatMap fun | operand w => [w] | _ => []

/-- How often a row of clauses asks for more of a log. -/
def verbosity : Nat := cs.count louder

theorem switches_append : switches (cs ++ cs') = switches cs ++ switches cs' := List.flatMap_append

theorem flagLists_append : flagLists (cs ++ cs') = flagLists cs ++ flagLists cs' :=
  List.flatMap_append

theorem operandsOf_append : operandsOf (cs ++ cs') = operandsOf cs ++ operandsOf cs' :=
  List.flatMap_append

end Parts

end Clause

/-! ### Commands -/

/-- The verb of a task. -/
def Task.verb : Task → Verb
  | translate _ => .translate
  | test _ _ => .test

/-- The paths of a task. -/
def Task.paths : Task → List String
  | translate _ => []
  | test _ paths => paths

namespace Command

/-- The switch is on under the options. -/
def isOn (o : Options) (segments : Bool) : Switch → Bool
  | .extended => o.extended
  | .globstar => o.globstar
  | .strict => o.strict
  | .windows => o.separator == .windows
  | .posix => o.separator == .posix
  | .json => false
  | .segments => segments

/-- The switch is on in the command. -/
def has (c : Command) : Switch → Bool
  | .json => c.task == .translate true
  | s => isOn c.options (c.task == .test true c.task.paths) s

end Command

namespace Clause

/-- The clauses ask for the command. No switch and no flag is repeated, and `/` need not be asked
for as the separator. -/
structure Describes (cs : List Clause) (c : Command) : Prop where
  operands : operandsOf cs = c.glob :: c.task.paths
  nodup : (switches cs).Nodup
  switches : ∀ s, s ≠ .posix → (s ∈ switches cs ↔ c.has s = true)
  posix : .posix ∈ Clause.switches cs → c.has .posix = true
  flags : flagLists cs = [] ∧ c.options.flags = {} ∨
    ∃ fs, flagLists cs = [fs] ∧ fs.Nodup ∧ ∀ f, f ∈ fs ↔ c.options.flags.has f = true
  verbose : c.verbose = min (verbosity cs) 255

/-! ### Existence -/

section Existence

variable {v : Verb} {ws : List String} {cs : List Clause}

theorem Spells.names {ss : List Switch} (hss : ∀ s ∈ ss, s ∈ Switch.ofVerb v :: Switch.shared)
    (h : Spells v ws cs) :
    Spells v (ss.map (fun s => "--" ++ s.name) ++ ws) (ss.map .switch ++ cs) := by
  induction ss with
  | nil => exact h
  | cons s ss ih =>
    obtain ⟨hs, hss⟩ := List.forall_mem_cons.1 hss
    exact .name hs (ih hss)

theorem Spells.louder (n : Nat) (h : Spells v ws cs) :
    Spells v (List.replicate n "-v" ++ ws) (List.replicate n .louder ++ cs) := by
  induction n with
  | zero => exact h
  | succ n ih => exact .letters .louder [] ih

/-- The switches that are on in a command. -/
def onSwitches (c : Command) : List Switch :=
  (Switch.ofVerb c.task.verb :: Switch.shared).filter c.has

/-- Clauses that ask for a command, with `n` times `-v`. -/
def ofCommand (c : Command) (n : Nat) : List Clause :=
  List.replicate n .louder ++ ((onSwitches c).map .switch ++
    (.flags c.options.flags.toList :: (c.glob :: c.task.paths).map .operand))

theorem spells_ofCommand (c : Command) (n : Nat) : Spells c.task.verb
    (List.replicate n "-v" ++ ((onSwitches c).map (fun s => "--" ++ s.name) ++
      ("--flags=" ++ c.options.flags.toString) :: "--" :: c.glob :: c.task.paths))
    (ofCommand c n) :=
  .louder n <| .names (fun _ hs => List.mem_of_mem_filter hs) <|
    .flags c.options.flags.toList <| .operands (c.glob :: c.task.paths)

theorem mem_onSwitches {c : Command} {s : Switch} : s ∈ onSwitches c ↔ c.has s = true := by
  have hverb : c.has s = true → s ∈ Switch.ofVerb c.task.verb :: Switch.shared := by
    cases s with
    | json =>
      intro h
      rw [beq_iff_eq.1 h]
      decide
    | segments =>
      intro h
      rw [beq_iff_eq.1 h]
      exact List.mem_cons_self
    | _ => exact fun _ => List.mem_cons_of_mem _ (by decide)
  rw [onSwitches, List.mem_filter]
  exact ⟨And.right, fun h => ⟨hverb h, h⟩⟩

theorem nodup_onSwitches (c : Command) : (onSwitches c).Nodup := by
  refine List.Nodup.filter _ ?_
  cases c.task.verb <;> decide

theorem describes_ofCommand {c : Command} {n : Nat} (h : c.verbose = min n 255) :
    Describes (ofCommand c n) c := by
  have hnil : ∀ {α β : Type} (l : List α), l.flatMap (fun _ => ([] : List β)) = [] :=
    fun l => List.flatMap_eq_nil_iff.2 fun _ _ => rfl
  have hswitches : switches (ofCommand c n) = onSwitches c := by
    simp [ofCommand, switches, List.flatMap_map, List.flatMap_replicate, hnil]
  have hflags : flagLists (ofCommand c n) = [c.options.flags.toList] := by
    simp [ofCommand, flagLists, List.flatMap_map, List.flatMap_replicate, hnil]
  have hverbosity : verbosity (ofCommand c n) = n := by
    have hs : ((onSwitches c).map switch).count louder = 0 := List.count_eq_zero.2 (by simp)
    have ho : (c.task.paths.map operand).count louder = 0 := List.count_eq_zero.2 (by simp)
    simp [ofCommand, verbosity, hs, ho]
  refine ⟨?_, ?_, ?_, ?_, ?_, ?_⟩
  · simp [ofCommand, operandsOf, List.flatMap_map, List.flatMap_replicate, hnil]
  · rw [hswitches]
    exact nodup_onSwitches c
  · intro s _
    rw [hswitches, mem_onSwitches]
  · rw [hswitches, mem_onSwitches]
    exact id
  · exact .inr ⟨c.options.flags.toList, hflags, Flags.nodup_toList _, fun _ => Flags.mem_toList⟩
  · rw [hverbosity, h]

/-- **Every command has a spelling**, if its verbosity can be counted. -/
theorem exists_spells (c : Command) (h : c.verbose ≤ 255) :
    ∃ ws cs, Spells c.task.verb ws cs ∧ Describes cs c :=
  ⟨_, _, spells_ofCommand c c.verbose, describes_ofCommand (Nat.min_eq_left h).symm⟩

end Existence

end Clause

end PathGlob
