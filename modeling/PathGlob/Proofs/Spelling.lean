import PathGlob.Proofs.Clause
import PathGlob.Proofs.Command
import Mathlib.Data.List.Induction

/-!
# Spellings of a command

However the words of a command line are ordered and put together, the draft that is read from them
is that of their clauses, up to a value of `--flags` that is still to be checked. So all spellings
of a command are read as the command.

* `Clause.draft`: the draft that a row of clauses makes, and `Clause.Leads`: another draft comes to
  it as soon as its flags are checked;
* `Clause.Says`: arguments that bring one such draft to the next, and `Clause.Spells.says`: so do
  the words of a command line;
* `Command.words`: words that ask for any given options (`Command.asks_words`);
* `Request.read_of_spells`: every spelling of a command is read as the command.
-/

namespace PathGlob

namespace Clause

/-! ### Drafts -/

/-- Adds a clause to a draft. -/
def put (d : Draft) : Clause → Draft
  | switch s => { d with switches := s :: d.switches }
  | louder => { d with verbose := d.verbose + 1 }
  | flags fs => { d with flags := some (Flags.ofList fs) }
  | operand w => { d with operands := d.operands ++ [w] }

/-- The draft that a row of clauses makes. -/
def draft (cs : List Clause) : Draft := cs.foldl put {}

section Draft

variable {v : Verb} {d : Draft} {cs cs' : List Clause}

theorem draft_concat (cs : List Clause) (a : Clause) : draft (cs ++ [a]) = put (draft cs) a :=
  List.foldl_concat ..

theorem value_draft (cs : List Clause) : (draft cs).value = .settled := by
  induction cs using List.reverseRecOn with
  | nil => rfl
  | append_singleton cs a ih =>
    rw [draft_concat]
    cases a <;> exact ih

theorem switches_draft (cs : List Clause) : (draft cs).switches = (switches cs).reverse := by
  induction cs using List.reverseRecOn with
  | nil => rfl
  | append_singleton cs a ih =>
    rw [draft_concat, switches_append, List.reverse_append]
    cases a <;> simp [put, ih, switches]

theorem flags_draft (cs : List Clause) :
    (draft cs).flags = (flagLists cs).getLast?.map Flags.ofList := by
  induction cs using List.reverseRecOn with
  | nil => rfl
  | append_singleton cs a ih =>
    rw [draft_concat, flagLists_append]
    cases a <;> simp [put, ih, flagLists]

theorem operands_draft (cs : List Clause) : (draft cs).operands = operandsOf cs := by
  induction cs using List.reverseRecOn with
  | nil => rfl
  | append_singleton cs a ih =>
    rw [draft_concat, operandsOf_append]
    cases a <;> simp [put, ih, operandsOf]

theorem verbose_draft (cs : List Clause) : (draft cs).verbose = verbosity cs := by
  induction cs using List.reverseRecOn with
  | nil => rfl
  | append_singleton cs a ih =>
    rw [draft_concat, verbosity, List.count_append]
    cases a <;> simp [put, ih, verbosity]

/-- A draft can be made of the clauses: nothing is repeated, and the verb takes the operands. -/
structure Consistent (v : Verb) (cs : List Clause) : Prop where
  switches : (switches cs).Nodup
  flags : (flagLists cs).length ≤ 1
  letters : ∀ fs ∈ flagLists cs, fs.Nodup
  operands : ∀ n ∈ Draft.capacity v, (operandsOf cs).length ≤ n

theorem Consistent.of_append (h : Consistent v (cs ++ cs')) : Consistent v cs := by
  obtain ⟨hs, hf, hl, ho⟩ := h
  rw [switches_append] at hs
  rw [flagLists_append] at hf hl
  rw [operandsOf_append, List.length_append] at ho
  rw [List.length_append] at hf
  refine ⟨hs.of_append_left, by omega, fun fs hfs => hl fs (List.mem_append_left _ hfs), ?_⟩
  intro n hn
  have := ho n hn
  omega

/-- The draft comes to `e` as soon as the value of its `--flags` is checked. -/
structure Leads (d e : Draft) : Prop where
  settle : d.settle = .ok e
  operands : d.operands = e.operands
  value : d.value ≠ .awaited

theorem leads_draft (cs : List Clause) : Leads (draft cs) (draft cs) :=
  ⟨Draft.settle_of_settled (value_draft cs), rfl, by simp [value_draft]⟩

theorem Consistent.setFlags {fs : List Flag} (hc : Consistent v (cs ++ [.flags fs])) {e : Draft}
    (he : e.flags = (draft cs).flags) : e.setFlags (Flags.text fs) =
      .ok { e with flags := some (Flags.ofList fs), value := .settled } := by
  have hf := hc.flags
  have hl := hc.letters
  rw [flagLists_append] at hf hl
  have hnil : flagLists cs = [] := by
    rw [List.length_append] at hf
    exact List.length_eq_zero_iff.1 (Nat.le_zero.1 (Nat.le_of_add_le_add_right hf))
  have hnone : e.flags = none := by
    rw [he, flags_draft, hnil]
    rfl
  have hn : fs.Nodup := hl fs (List.mem_append_right _ (List.mem_singleton.2 rfl))
  rw [Draft.setFlags, hnone, Flags.ofString_text hn]

theorem Consistent.addOperand {w : String} (hc : Consistent v (cs ++ [.operand w]))
    (hd : Leads d (draft cs)) : d.addOperand v w = .ok (draft (cs ++ [.operand w])) := by
  have hroom : (Draft.capacity v).any (fun n => n ≤ d.operands.length) = false := by
    rw [hd.operands, operands_draft]
    cases hv : Draft.capacity v with
    | none => rfl
    | some n =>
      have hlength := hc.operands n hv
      rw [operandsOf_append, List.length_append] at hlength
      exact decide_eq_false (Nat.not_le_of_lt hlength)
  rw [Draft.addOperand, hroom, hd.settle, draft_concat]
  rfl

/-! ### Arguments -/

/-- The argument that says the clause. -/
def argument : Clause → Argument
  | switch s => .switch s
  | louder => .louder
  | flags fs => .flags (Flags.text fs)
  | operand w => .operand w

/-- The arguments say the clauses: where these can be added to a draft, the arguments add them. -/
def Says (v : Verb) (as : List Argument) (cs' : List Clause) : Prop :=
  ∀ ⦃cs : List Clause⦄ ⦃d : Draft⦄, Consistent v (cs ++ cs') → Leads d (draft cs) →
    ∃ d', d.addAll v as = .ok d' ∧ Leads d' (draft (cs ++ cs'))

theorem Says.addAll {as : List Argument} (h : Says v as cs) (hc : Consistent v cs) :
    ∃ d, ({} : Draft).addAll v as = .ok d ∧ Leads d (draft cs) :=
  @h [] {} hc (leads_draft [])

theorem says_nil : Says v [] [] := by
  intro cs d _ hd
  refine ⟨d, rfl, ?_⟩
  rwa [List.append_nil]

theorem Says.append {as bs : List Argument} (ha : Says v as cs) (hb : Says v bs cs') :
    Says v (as ++ bs) (cs ++ cs') := by
  intro cs₀ d hc hd
  rw [← List.append_assoc] at hc ⊢
  obtain ⟨d₁, hd₁, h₁⟩ := ha hc.of_append hd
  obtain ⟨d₂, hd₂, h₂⟩ := hb hc h₁
  refine ⟨d₂, ?_, h₂⟩
  rw [Draft.addAll_append, hd₁]
  exact hd₂

theorem says_singleton {a : Argument} {b : Clause}
    (h : ∀ {cs : List Clause} {d : Draft}, Consistent v (cs ++ [b]) → Leads d (draft cs) →
      d.add v a = .ok (draft (cs ++ [b]))) : Says v [a] [b] := by
  intro cs d hc hd
  refine ⟨draft (cs ++ [b]), ?_, leads_draft _⟩
  rw [Draft.addAll, h hc hd]
  rfl

/-- **One clause** is said by its argument. -/
theorem says_argument (b : Clause) : Says v [b.argument] [b] := by
  refine says_singleton fun {cs d} hc hd => ?_
  cases b with
  | switch s =>
    have hs : s ∉ (draft cs).switches := by
      have hn := hc.switches
      rw [switches_append, List.nodup_append] at hn
      rw [switches_draft, List.mem_reverse]
      exact fun hmem => hn.2.2 s hmem s (List.mem_singleton.2 rfl) rfl
    simp only [argument, Draft.add, hd.settle, Except.bind, Draft.turnOn, if_neg hs, draft_concat]
    rfl
  | louder =>
    simp only [argument, Draft.add, hd.settle, draft_concat]
    rfl
  | flags fs =>
    simp only [argument, Draft.add, hd.settle, Except.bind, hc.setFlags rfl, draft_concat]
    rw [← value_draft cs]
    rfl
  | operand w =>
    simp only [argument, Draft.add, hc.addOperand hd]
    rfl

theorem says_word (w : String) : Says v [.word w] [.operand w] := by
  refine says_singleton fun hc hd => ?_
  simp only [Draft.add, if_neg hd.value, hc.addOperand hd]
  rfl

/-- Flags in a word of their own are checked later. -/
theorem says_flagsNext (fs : List Flag) :
    Says v [.flagsNext, .word (Flags.text fs)] [.flags fs] := by
  intro cs d hc hd
  refine ⟨{ draft cs with value := .given (Flags.text fs) }, ?_, ?_, ?_, by simp⟩
  · simp only [Draft.addAll, Draft.add, hd.settle, Except.map, Except.mapError, Except.bind,
      ↓reduceIte]
  · rw [Draft.settle]
    simp only
    rw [hc.setFlags (e := { draft cs with value := .given (Flags.text fs) }) rfl, draft_concat,
      ← value_draft cs]
    rfl
  · rw [draft_concat]
    rfl

theorem says_map (cs : List Clause) : Says v (cs.map argument) cs := by
  induction cs with
  | nil => exact says_nil
  | cons b cs ih => exact (says_argument b).append ih

end Draft

/-! ### Words -/

section Words

variable {v : Verb} {ws : List String} {cs cs' : List Clause}

theorem ne_escape_of_toList {w : String} (h : w.toList ≠ ['-', '-']) : w ≠ "--" := by
  rintro rfl
  exact h rfl

theorem name_ne_escape (s : Switch) : "--" ++ s.name ≠ "--" := by cases s <;> decide

theorem flags_ne_escape (letters : String) : "--flags=" ++ letters ≠ "--" := by
  refine ne_escape_of_toList ?_
  rw [String.toList_append]
  rintro ⟨⟩

theorem ofWord_letters (v : Verb) (l : Letter) (ls : List Letter) :
    Argument.ofWord v (String.ofList ('-' :: (l :: ls).map Letter.char)) =
      ((l :: ls).map Letter.clause).map argument := by
  have hletter : ∀ l : Letter, Argument.ofLetter l.char = l.clause.argument := by
    intro l
    cases l <;> rfl
  have hword : ∀ cs : List Char, Argument.ofWord v (String.ofList ('-' :: l.char :: cs)) =
      (l.char :: cs).map Argument.ofLetter := by
    intro cs
    rw [Argument.ofWord, String.toList_ofList]
    cases l <;> rfl
  rw [List.map_cons, hword, ← List.map_cons, List.map_map, List.map_map]
  exact List.map_congr_left fun l _ => hletter l

theorem Plain.ofWord {w : String} (hw : Plain w) : Argument.ofWord v w = [.word w] := by
  by_cases hdash : w = "-"
  · subst hdash
    rfl
  · rw [Argument.ofWord]
    split
    · rename_i heq
      exact absurd (hw (by rw [heq]; rfl)) hdash
    · rename_i heq
      exact absurd (hw (by rw [heq]; rfl)) hdash
    · rfl

theorem Plain.ne_escape {w : String} (hw : Plain w) : w ≠ "--" := by
  rintro rfl
  exact absurd (hw rfl) (by decide)

/-- The letters of flags are no option. -/
theorem plain_text (fs : List Flag) : Plain (Flags.text fs) := by
  intro h
  rw [Flags.text, String.toList_ofList] at h
  cases fs with
  | nil => cases h
  | cons f fs => cases f <;> simp [Flag.letter] at h

/-- **The words of a command line** say its clauses. -/
theorem Spells.says (h : Spells v ws cs) : Says v (Argument.ofWords v ws) cs := by
  induction h with
  | nil => exact says_nil
  | letters l ls _ ih =>
    have hword : String.ofList ('-' :: (l :: ls).map Letter.char) ≠ "--" := by
      refine ne_escape_of_toList ?_
      rw [String.toList_ofList]
      cases l <;> simp [Letter.char]
    rw [Argument.ofWords_cons hword, ofWord_letters]
    exact (says_map _).append ih
  | @name s hs _ _ _ ih =>
    rw [Argument.ofWords_cons (name_ne_escape s), Argument.ofWord_switch hs]
    exact (says_argument (.switch s)).append ih
  | flags fs _ ih =>
    rw [Argument.ofWords_cons (flags_ne_escape _), Argument.ofWord_flags]
    exact (says_argument (.flags fs)).append ih
  | flagsNext fs _ ih =>
    have hname : Argument.ofWord v "--flags" = [.flagsNext] := by cases v <;> rfl
    rw [Argument.ofWords_cons (by decide), Argument.ofWords_cons (plain_text fs).ne_escape, hname,
      (plain_text fs).ofWord, ← List.append_assoc]
    exact (says_flagsNext fs).append ih
  | @operand w hw _ _ _ ih =>
    rw [Argument.ofWords_cons hw.ne_escape, hw.ofWord]
    exact (says_word w).append ih
  | operands xs =>
    have := says_map (v := v) (xs.map .operand)
    rwa [List.map_map] at this

end Words

/-! ### Described commands -/

section Described

variable {c : Command} {cs : List Clause}

theorem Describes.consistent (h : Describes cs c) : Consistent c.task.verb cs := by
  refine ⟨h.nodup, ?_, ?_, ?_⟩
  · rcases h.flags with ⟨hnil, -⟩ | ⟨fs, hfs, -⟩
    · simp [hnil]
    · simp [hfs]
  · rcases h.flags with ⟨hnil, -⟩ | ⟨fs, hfs, hn, -⟩
    · simp [hnil]
    · simpa [hfs] using hn
  · rw [h.operands]
    cases c.task <;> simp [Task.verb, Task.paths, Draft.capacity]

theorem Describes.flags_draft (h : Describes cs c) :
    (draft cs).flags.getD {} = c.options.flags := by
  rw [Clause.flags_draft]
  rcases h.flags with ⟨hnil, hflags⟩ | ⟨fs, hfs, -, hmem⟩
  · rw [hnil, hflags]
    rfl
  · rw [hfs]
    exact Flags.ofList_eq hmem

theorem Describes.mem_switches_draft (h : Describes cs c) {s : Switch} (hs : s ≠ .posix) :
    s ∈ (draft cs).switches ↔ c.has s = true := by
  rw [switches_draft, List.mem_reverse]
  exact h.switches s hs

theorem Describes.separator_draft (h : Describes cs c) :
    (draft cs).separator = c.options.separator := by
  rw [Draft.separator]
  simp only [h.mem_switches_draft (s := .windows) (by decide), Command.has, Command.isOn,
    beq_iff_eq]
  cases c.options.separator with
  | windows => rfl
  | posix => simp [Separator.host]

theorem Describes.not_exclusive (h : Describes cs c) :
    ¬ (.windows ∈ (draft cs).switches ∧ .posix ∈ (draft cs).switches) := by
  rintro ⟨hw, hp⟩
  rw [h.mem_switches_draft (by decide)] at hw
  rw [switches_draft, List.mem_reverse] at hp
  have hw' : c.options.separator = .windows := beq_iff_eq.1 hw
  have hp' : c.options.separator = .posix := beq_iff_eq.1 (h.posix hp)
  rw [hw'] at hp'
  cases hp'

/-- The command is made of the draft of its clauses. -/
theorem Describes.finish_draft (h : Describes cs c) : (draft cs).finish c.task.verb = .ok c := by
  have hmem {s : Switch} (hs : s ≠ .posix) := h.mem_switches_draft hs
  have htask : (draft cs).task c.task.verb c.task.paths = c.task := by
    have hjson : .json ∈ (draft cs).switches ↔ (c.task == .translate true) = true :=
      hmem (by decide)
    have hsegments : .segments ∈ (draft cs).switches ↔
        (c.task == .test true c.task.paths) = true := hmem (by decide)
    cases ht : c.task <;> simp [Task.verb, Task.paths, Draft.task, hjson, hsegments, ht]
  have hoptions : (draft cs).options = c.options := by
    rw [Draft.options, h.flags_draft, h.separator_draft]
    simp only [hmem (s := .extended) (by decide), hmem (s := .globstar) (by decide),
      hmem (s := .strict) (by decide), Command.has, Command.isOn, Bool.decide_eq_true]
  rw [Draft.finish_of_settled (value_draft cs), if_neg h.not_exclusive, operands_draft, h.operands]
  simp only [htask, hoptions, verbose_draft, ← h.verbose]

theorem Spells.finish {ws : List String} (hs : Spells c.task.verb ws cs) (hc : Describes cs c) :
    ∃ d, ({} : Draft).addAll c.task.verb (Argument.ofWords c.task.verb ws) = .ok d ∧
      d.finish c.task.verb = .ok c := by
  obtain ⟨d, hd, hl⟩ := hs.says.addAll hc.consistent
  refine ⟨d, hd, ?_⟩
  -- nothing but the value of `--flags` is still to be settled in `d`
  rw [← hc.finish_draft, Draft.finish, Draft.finish, hl.settle,
    Draft.settle_of_settled (value_draft cs)]

end Described

end Clause

/-! ### Words before the operands -/

namespace Command

/-- The switches that a test has on. -/
def switches (o : Options) (segments : Bool) : List Switch :=
  (Switch.ofVerb .test :: Switch.shared).filter (isOn o segments)

/-- Words that ask for a test under given options, with `n` times `-v`. -/
def words (o : Options) (segments : Bool) (n : Nat) : List String :=
  List.replicate n "-v" ++ (switches o segments).map (fun s => "--" ++ s.name) ++
    ["--flags=" ++ o.flags.toString]

variable (o : Options) (segments : Bool) (n : Nat)

theorem separator_not_mem_words : "--" ∉ words o segments n := by
  intro h
  simp only [words, List.mem_append, List.mem_replicate, List.mem_map, List.mem_singleton] at h
  rcases h with (⟨-, h⟩ | ⟨s, -, h⟩) | h
  · exact absurd h (by decide)
  · exact Clause.name_ne_escape s h
  · exact Clause.flags_ne_escape _ h.symm

theorem onSwitches_test (glob : String) (paths : List String) (verbose : Nat) :
    Clause.onSwitches { task := .test segments paths, glob, options := o, verbose } =
      switches o segments := by
  refine List.filter_congr fun s hs => ?_
  have hsegments : (Task.test segments paths == .test true paths) = segments := by
    cases segments <;> simp
  cases s with
  | json =>
    have hjson : .json ∉ Switch.ofVerb .test :: Switch.shared := by decide
    exact absurd hs hjson
  | segments => exact hsegments
  | _ => rfl

/-- **Any options can be asked for.** -/
theorem asks_words : Asks (words o segments n) o segments (min n 255) := by
  refine ⟨separator_not_mem_words o segments n, fun glob => ?_⟩
  have hs := Clause.spells_ofCommand
    { task := .test segments [], glob, options := o, verbose := min n 255 } n
  rw [onSwitches_test] at hs
  change Request.ofVerb .test (words o segments n ++ ["--", glob]) = _
  rw [words, List.append_assoc, List.append_assoc]
  exact Request.ofVerb_eq_run_iff.2 (hs.finish (Clause.describes_ofCommand rfl))

end Command

/-! ### All spellings -/

namespace Request

/-- **Every spelling of a command is read as the command.** -/
theorem read_of_spells {c : Command} {cs : List Clause} {ws : List String}
    (hs : Clause.Spells c.task.verb ws cs) (hc : Clause.Describes cs c) :
    read (c.task.verb.name :: ws) = .run c := by
  have hverb : read (c.task.verb.name :: ws) = ofVerb c.task.verb ws := by
    cases c.task <;> rfl
  rw [hverb, ofVerb_eq_run_iff]
  exact hs.finish hc

/-- An instance: the operands stand among the options, and the last one after `--`. -/
theorem read_of_spells_mixed :
    let c : Command :=
      { task := .test false ["-", "-b"], glob := "a",
        options := { globstar := true, strict := true,
                     flags := { ignoreCase := true, multiLine := true } }, verbose := 2 }
    let cs : List Clause :=
      [.operand "a", .louder, .switch .globstar, .flags [.multiLine, .ignoreCase], .operand "-",
        .switch .strict, .louder, .operand "-b"]
    let ws := ["a", "-vg", "--flags", "mi", "-", "--strict", "-v", "--", "-b"]
    Clause.Spells c.task.verb ws cs ∧ Clause.Describes cs c ∧
      read ("match" :: ws) = .run c := by
  intro c cs ws
  have hs : Clause.Spells c.task.verb ws cs :=
    .operand (by decide) <| .letters .louder [.globstar] <| .flagsNext [.multiLine, .ignoreCase] <|
      .operand (by decide) <| .name (s := .strict) (by decide) <| .letters .louder [] <|
        .operands ["-b"]
  have hc : Clause.Describes cs c := by
    refine ⟨rfl, by decide, ?_, fun h => absurd h (by decide),
      .inr ⟨_, rfl, by decide, ?_⟩, rfl⟩
    · intro s hs
      cases s <;> first | decide | exact absurd rfl hs
    · intro f
      cases f <;> decide
  exact ⟨hs, hc, read_of_spells hs hc⟩

end Request

end PathGlob
