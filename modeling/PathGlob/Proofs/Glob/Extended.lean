import PathGlob.Proofs.Glob.Scanning

/-!
# The extended syntax

A tree for the texts of the extended syntax, without classes and negated groups. The scan has no
parser: it keeps the open groups, the number of open braces, and looks at one character more. Where
the characters of a text are placed so that they mean what they should (`Items.WellPlaced`), the
scan attributes every bar, comma and bracket to the right opener.

* `Items.write` is the text, and `Items.lexemes` are the lexemes that it should yield;
* `Items.nesting` is how deep the regex nests, and `Items.nesting_le` bounds it by the depth of the
  tree;
* `Scan.Reads` says that the scan reads a text as lexemes, whatever comes before it;
* `Items.reads`: a well-placed row of items is read as its lexemes.
-/

namespace PathGlob

namespace Extended

/-! ### Syntax trees -/

mutual

/-- A part of a glob. -/
inductive Item where
  /-- A character that stands for itself. -/
  | char (c : Char)
  /-- `?`. -/
  | one
  /-- A run of `n + 1` times `*`. -/
  | stars (n : Nat)
  /-- `{A,B,...}`. -/
  | choice (as : Alternatives)
  /-- `(A|B|...)`, after an operator or bare. -/
  | group (g : Group) (as : Alternatives)

/-- Parts of a glob, one after the other. -/
inductive Items where
  | nil
  | cons (i : Item) (is : Items)

/-- The alternatives of a choice or a group; there is at least one. -/
inductive Alternatives where
  | one (is : Items)
  | more (is : Items) (as : Alternatives)

end

end Extended

/-- The text before the `(` of a group. -/
def Group.mark : Group → List Char
  | marked op => (Symbol.operator op).char?.toList
  | bare => []

namespace Extended

mutual

/-- The text of an item. -/
def Item.write : Item → List Char
  | .char c => [c]
  | .one => ['?']
  | .stars n => List.replicate (n + 1) '*'
  | .choice as => '\x7b' :: as.write ',' ++ ['\x7d']
  | .group g as => g.mark ++ '(' :: as.write '|' ++ [')']

/-- The text of a row of items. -/
def Items.write : Items → List Char
  | .nil => []
  | .cons i is => i.write ++ is.write

/-- The text of alternatives, with `sep` between them. -/
def Alternatives.write (sep : Char) : Alternatives → List Char
  | .one is => is.write
  | .more is as => is.write ++ sep :: as.write sep

end

mutual

/-- How deep choices and groups are nested. -/
def Item.depth : Item → Nat
  | .char _ | .one | .stars _ => 0
  | .choice as => as.depth + 1
  | .group _ as => as.depth + 1

/-- How deep choices and groups are nested. -/
def Items.depth : Items → Nat
  | .nil => 0
  | .cons i is => max i.depth is.depth

/-- How deep choices and groups are nested. -/
def Alternatives.depth : Alternatives → Nat
  | .one is => is.depth
  | .more is as => max is.depth as.depth

end

/-- The items begin with a run of `*`. -/
def Items.beginsRun : Items → Bool
  | .cons (.stars _) _ => true
  | _ => false

/-- The run of `*` continues in the items after it. -/
def Item.continues : Item → Items → Bool
  | .stars _, is => is.beginsRun
  | _, _ => false

/-- The number of parts of a regex for the row. Runs of `*` that meet are one part. -/
def Items.parts : Items → Nat
  | .nil => 0
  | .cons i is => (if i.continues is then 0 else 1) + is.parts

/-- There are two or more parts. -/
def Items.isRow (is : Items) : Bool := 2 ≤ is.parts

/-- There is only one alternative. -/
def Alternatives.isOne : Alternatives → Bool
  | .one _ => true
  | .more _ _ => false

mutual

/-- How deep a regex for the item nests. A group is a level, and so is a repetition. -/
def Item.nesting : Item → Nat
  | .char _ | .one => 0
  | .stars _ => 1
  | .choice as | .group .bare as => as.nesting + 1
  | .group (.marked _) as => as.nesting + 2

/-- How deep the items nest, one by one. -/
def Items.nesting : Items → Nat
  | .nil => 0
  | .cons i is => max i.nesting is.nesting

/-- How deep a regex for the alternatives nests. A row of two or more parts is a level, and so is a
choice between two or more alternatives. -/
def Alternatives.nesting : Alternatives → Nat
  | .one is => is.nesting + is.isRow.toNat
  | .more is as => max (is.nesting + is.isRow.toNat + 1) (as.nesting + as.isOne.toNat)

end

mutual

theorem Item.nesting_le (i : Item) : i.nesting ≤ 4 * i.depth + 1 := by
  cases i with
  | char | one => exact Nat.zero_le _
  | stars => exact Nat.le_refl _
  | choice as =>
    have := as.nesting_le
    simp only [Item.nesting, Item.depth]
    omega
  | group g as =>
    have := as.nesting_le
    cases g <;> simp only [Item.nesting, Item.depth] <;> omega

/-- A level of the tree is at most four levels of a regex: a row, a choice, a group and a
repetition. -/
theorem Items.nesting_le (is : Items) : is.nesting ≤ 4 * is.depth + 1 := by
  cases is with
  | nil => exact Nat.zero_le _
  | cons i is =>
    have := i.nesting_le
    have := is.nesting_le
    simp only [Items.nesting, Items.depth]
    omega

theorem Alternatives.nesting_le (as : Alternatives) :
    as.nesting + as.isOne.toNat ≤ 4 * as.depth + 3 := by
  cases as with
  | one is =>
    have := is.nesting_le
    have := Bool.toNat_le is.isRow
    simp only [Alternatives.nesting, Alternatives.depth, Alternatives.isOne, Bool.toNat_true]
    omega
  | more is as =>
    have := is.nesting_le
    have := Bool.toNat_le is.isRow
    have := as.nesting_le
    change max (is.nesting + is.isRow.toNat + 1) (as.nesting + as.isOne.toNat) ≤
      4 * max is.depth as.depth + 3
    omega

end

/-! ### Placement -/

/-- The item keeps its meaning before `rest`: no `(` makes an operator of it. -/
def Item.MayPrecede (rest : List Char) : Item → Prop
  | .char c => c ∈ ['+', '@', '!'] → rest.head? ≠ some '('
  | .one => rest.head? ≠ some '('
  | .stars _ => rest.head? ≠ some '(' ∧ ¬['*', '('] <+: rest
  | .choice _ | .group _ _ => True

mutual

/-- All characters of the item have the meaning that the tree gives them, inside a group or a
choice or outside of them. -/
def Item.WellPlaced (inGroup inChoice : Bool) : Item → Prop
  | .char c => c ∉ ['/', '[', '\x7b', '?', '*'] ∧ (inGroup = true → c ∉ ['(', ')', '|']) ∧
      (inChoice = true → c ∉ [',', '\x7d'])
  | .one | .stars _ => True
  | .choice as => as.WellPlaced inGroup true
  | .group g as =>
    g ≠ .marked .negated ∧ (g = .bare → inGroup = true) ∧ as.WellPlaced true inChoice

/-- All items are well-placed, and each of them may precede the next one. -/
def Items.WellPlaced (inGroup inChoice : Bool) : Items → Prop
  | .nil => True
  | .cons i is =>
    i.WellPlaced inGroup inChoice ∧ i.MayPrecede is.write ∧ is.WellPlaced inGroup inChoice

/-- All alternatives are well-placed. -/
def Alternatives.WellPlaced (inGroup inChoice : Bool) : Alternatives → Prop
  | .one is => is.WellPlaced inGroup inChoice
  | .more is as => is.WellPlaced inGroup inChoice ∧ as.WellPlaced inGroup inChoice

end

/-! ### Lexemes -/

mutual

/-- The lexemes of an item. -/
def Item.lexemes : Item → List Lexeme
  | .char c => [.char c]
  | .one => [.dot]
  | .stars _ => [.dots]
  | .choice as => .opening .bare :: as.lexemes ++ [.closing .bare]
  | .group g as => .opening g :: as.lexemes ++ [.closing g]

/-- The lexemes of a row of items; runs of `*` that meet are one run. -/
def Items.lexemes : Items → List Lexeme
  | .nil => []
  | .cons i is => (if i.continues is then [] else i.lexemes) ++ is.lexemes

/-- The lexemes of alternatives. -/
def Alternatives.lexemes : Alternatives → List Lexeme
  | .one is => is.lexemes
  | .more is as => is.lexemes ++ .bar :: as.lexemes

end

end Extended

/-! ### Reading -/

/-- The scan reads `cs` before `rest` as the given lexemes, whatever comes before it, and gets from
the context `x` to `y`. -/
def Scan.Reads (o : Options) (x y : Context) (cs rest : List Char) (ls : List Lexeme) : Prop :=
  ∀ b, ∃ b', (run o b x 0 (cs ++ rest)).pieces =
    ls.map (Lexeme.piece o.separator) ++ (run o b' y 0 rest).pieces

namespace Scan

variable {o : Options} {x y z : Context} {cs ds rest : List Char} {ls ms : List Lexeme}

theorem Reads.nil : Reads o x x [] rest [] := fun b => ⟨b, rfl⟩

theorem Reads.append (h : Reads o x y cs (ds ++ rest) ls) (h' : Reads o y z ds rest ms) :
    Reads o x z (cs ++ ds) rest (ls ++ ms) := by
  intro b
  obtain ⟨b₁, h₁⟩ := h b
  obtain ⟨b₂, h₂⟩ := h' b₁
  exact ⟨b₂, by rw [List.append_assoc, h₁, h₂, List.map_append, List.append_assoc]⟩

theorem Reads.of_step {c : Char} {l : Lexeme}
    (h : ∀ b, step o b x c rest = { piece := l.piece o.separator, context := y }) :
    Reads o x y [c] rest [l] := by
  intro b
  refine ⟨some c, ?_⟩
  rw [List.singleton_append, pieces_run_cons, h]
  rfl

end Scan

/-- The place is inside a group. -/
def Context.inGroup (x : Context) : Bool := !x.groups.isEmpty

/-- The place is inside a choice. -/
def Context.inChoice (x : Context) : Bool := x.braces != 0

namespace Scan

section Brackets

variable {o : Options} {x : Context} {rest : List Char} (he : o.extended = true)
  (hs : o.separator = .posix)

include he hs in
theorem reads_opening {g : Group} (hc : x.inClass = false) (hg : g = .bare → x.inGroup = true) :
    Reads o x { x with groups := g :: x.groups } (g.mark ++ ['(']) rest [.opening g] := by
  cases g with
  | bare =>
    refine Reads.of_step fun b => ?_
    have hne : x.groups ≠ [] := by simpa [Context.inGroup] using hg rfl
    simp [step, hs, Symbol.ofChar, Separator.char, openParen, hne, Lexeme.piece, Step.text]
  | marked op =>
    intro b
    refine ⟨some '(', ?_⟩
    have hstep : ∀ c, (Symbol.operator op).char? = some c →
        step o b x c ('(' :: rest) = openGroup x op := by
      intro c h
      have ho : Symbol.ofChar .posix c = .operator op := by
        cases op <;> cases h <;> decide
      simp [step, hs, ho, opensGroup, he, hc]
    obtain ⟨c, h⟩ : ∃ c, (Symbol.operator op).char? = some c := by cases op <;> exact ⟨_, rfl⟩
    have hm : (Group.marked op).mark = [c] := by rw [Group.mark, h]; rfl
    rw [hm]
    simp only [List.cons_append, List.nil_append, pieces_run_cons, hstep c h]
    rfl

include hs in
theorem reads_closing (g : Group) :
    Reads o { x with groups := g :: x.groups } x [')'] rest [.closing g] := by
  refine Reads.of_step fun b => ?_
  simp [step, hs, Symbol.ofChar, Separator.char, closeParen, Lexeme.piece, Step.text]

include hs in
theorem reads_bar (hx : x.inGroup = true) : Reads o x x ['|'] rest [.bar] := by
  refine Reads.of_step fun b => ?_
  have hne : x.groups ≠ [] := by simpa [Context.inGroup] using hx
  simp [step, hs, Symbol.ofChar, Separator.char, hne, Lexeme.piece, Step.text]

include he hs in
theorem reads_openBrace :
    Reads o x { x with braces := x.braces + 1 } ['\x7b'] rest [.opening .bare] := by
  refine Reads.of_step fun b => ?_
  simp [step, hs, Symbol.ofChar, Separator.char, he, Lexeme.piece, Step.text, Group.opening]

include hs in
theorem reads_closeBrace :
    Reads o { x with braces := x.braces + 1 } x ['\x7d'] rest [.closing .bare] := by
  refine Reads.of_step fun b => ?_
  simp [step, hs, Symbol.ofChar, Separator.char, Lexeme.piece, Step.text, Group.closing]

include hs in
theorem reads_comma (hx : x.inChoice = true) : Reads o x x [','] rest [.bar] := by
  refine Reads.of_step fun b => ?_
  have hne : x.braces ≠ 0 := by simpa [Context.inChoice] using hx
  simp [step, hs, Symbol.ofChar, Separator.char, hne, Lexeme.piece, Step.text]

include he hs in
theorem reads_one (hr : rest.head? ≠ some '(') : Reads o x x ['?'] rest [.dot] := by
  refine Reads.of_step fun b => ?_
  simp [step, hs, Symbol.ofChar, Separator.char, opensGroup_eq_false hr, operator, he, Lexeme.piece,
    Step.text]

end Brackets

section Stars

variable {o : Options} {x : Context} {rest : List Char} (hg : o.globstar = false)

include hg

theorem reads_stars (n : Nat) (hs : rest.head? ≠ some '*') (hp : rest.head? ≠ some '(') :
    Reads o x x (List.replicate (n + 1) '*') rest [.dots] := by
  intro b
  refine ⟨some '*', ?_⟩
  rw [pieces_run_dots hs (fun _ => head?_append_ne ?_ hp) hg]
  · rfl
  · cases n <;> simp [List.replicate_succ]

/-- A run of `*` that continues yields nothing by itself. -/
theorem reads_stars_continued (n : Nat) (hp : rest.head? ≠ some '(') :
    Reads o x x (List.replicate (n + 1) '*') ('*' :: rest) [] :=
  fun b => ⟨b, pieces_run_stars_append n (fun _ => hp) hg⟩

end Stars

end Scan

namespace Extended

/-! ### Reading trees -/

/-- A text that may follow a row of items: nothing in front of it changes its meaning. -/
def Stops (rest : List Char) : Prop := rest.head? ≠ some '(' ∧ rest.head? ≠ some '*'

theorem stops_cons {c : Char} (h : c ≠ '(') (h' : c ≠ '*') (rest : List Char) : Stops (c :: rest) :=
  ⟨by simpa using h, by simpa using h'⟩

theorem Item.MayPrecede.append {i : Item} {cs rest : List Char} (h : i.MayPrecede cs)
    (hr : Stops rest) : i.MayPrecede (cs ++ rest) := by
  cases i with
  | char c => exact fun hc => Scan.head?_append_ne (h hc) hr.1
  | one => exact Scan.head?_append_ne h hr.1
  | stars n =>
    refine ⟨Scan.head?_append_ne h.1 hr.1, ?_⟩
    intro hp
    -- the two characters lie in `cs`, in `rest`, or one in each
    cases cs with
    | nil =>
      obtain ⟨tail, rfl⟩ := hp
      exact hr.2 rfl
    | cons c cs =>
      cases cs with
      | nil =>
        rw [List.cons_append, List.nil_append, List.cons_prefix_cons] at hp
        obtain ⟨-, tail, rfl⟩ := hp
        exact hr.1 rfl
      | cons d cs =>
        rw [List.cons_append, List.cons_append, List.cons_prefix_cons, List.cons_prefix_cons] at hp
        obtain ⟨rfl, rfl, -⟩ := hp
        exact h.2 ⟨cs, rfl⟩
  | choice as | group g as => trivial

/-- Only a run of `*` and a group opened by `*` begin with `*`. -/
theorem Items.head?_write_ne_star {inGroup inChoice : Bool} {is : Items}
    (hw : is.WellPlaced inGroup inChoice) (hp : ¬['*', '('] <+: is.write)
    (hr : is.beginsRun = false) : is.write.head? ≠ some '*' := by
  cases is with
  | nil => simp [Items.write]
  | cons i is =>
    rw [Items.write]
    cases i with
    | char c =>
      rw [Items.WellPlaced, Item.WellPlaced] at hw
      have hc : c ≠ '*' := by
        rintro rfl
        exact hw.1.1 (by simp)
      simpa [Item.write] using hc
    | one => simp [Item.write]
    | stars n => simp [Items.beginsRun] at hr
    | choice as => simp [Item.write]
    | group g as =>
      rw [Items.write, Item.write] at hp
      cases g with
      | bare => simp [Item.write, Group.mark]
      | marked op =>
        cases op with
        | anyNumber => exact absurd ⟨_, by simp [Group.mark, Symbol.char?]; rfl⟩ hp
        | atMostOne | atLeastOne | exactlyOne | negated =>
          simp [Item.write, Group.mark, Symbol.char?]

theorem Items.exists_write_of_beginsRun {is : Items} (h : is.beginsRun = true) :
    ∃ cs, is.write = '*' :: cs := by
  cases is with
  | nil => cases h
  | cons i is =>
    cases i with
    | stars n => exact ⟨List.replicate n '*' ++ is.write, rfl⟩
    | char | one | choice | group => cases h

end Extended

/-- The options under which globs are read in the extended syntax. -/
structure Options.ReadsExtended (o : Options) : Prop where
  extended : o.extended = true
  globstar : o.globstar = false
  separator : o.separator = .posix

namespace Extended

section Reading

open Scan

variable {o : Options}

mutual

/-- **A well-placed item is read as its lexemes.** If it is a run of `*`, the run must not
continue. -/
theorem Item.reads (i : Item) (ho : o.ReadsExtended) {x : Context} (hc : x.inClass = false)
    (hw : i.WellPlaced x.inGroup x.inChoice) {rest : List Char} (hr : i.MayPrecede rest)
    (hn : ∀ n, i = .stars n → rest.head? ≠ some '*') : Reads o x x i.write rest i.lexemes := by
  cases i with
  | char c =>
    obtain ⟨hw, hgroup, hchoice⟩ := hw
    refine Reads.of_step fun b => step_literal ?_
    exact {
      ne_separator := by rw [ho.separator]; rintro rfl; exact hw (by decide)
      ne_star := by rintro rfl; exact hw (by decide)
      noClass := hc
      ofExtended := fun _ => ⟨fun hc => hw (by simp_all), hr⟩
      ofGroups := fun hne => hgroup (by simpa [Context.inGroup] using hne)
      ofBraces := fun hne => hchoice (by simpa [Context.inChoice] using hne) }
  | one => exact reads_one ho.extended ho.separator hr
  | stars n => exact reads_stars ho.globstar n (hn n rfl) hr.1
  | choice as =>
    have ha := as.reads (x := { x with braces := x.braces + 1 }) ',' ho hc hw (by decide)
      (by decide) (fun _ => reads_comma ho.separator rfl)
      (stops_cons (c := '\x7d') (by decide) (by decide) rest)
    exact ((reads_openBrace ho.extended ho.separator).append ha).append
      (reads_closeBrace ho.separator)
  | group g as =>
    obtain ⟨-, hbare, hw⟩ := hw
    have ha := as.reads (x := { x with groups := g :: x.groups }) '|' ho hc hw (by decide)
      (by decide) (fun _ => reads_bar ho.separator rfl)
      (stops_cons (c := ')') (by decide) (by decide) rest)
    have h := ((reads_opening ho.extended ho.separator hc hbare).append ha).append
      (reads_closing ho.separator g)
    rw [List.append_assoc g.mark] at h
    exact h

/-- **A well-placed row of items is read as its lexemes.** -/
theorem Items.reads (is : Items) (ho : o.ReadsExtended) {x : Context} (hc : x.inClass = false)
    (hw : is.WellPlaced x.inGroup x.inChoice) {rest : List Char} (hr : Stops rest) :
    Reads o x x is.write rest is.lexemes := by
  cases is with
  | nil => exact Reads.nil
  | cons i is =>
    obtain ⟨hi, hp, his⟩ := hw
    refine Reads.append ?_ (is.reads ho hc his hr)
    have hp' := hp.append hr
    split
    · -- the scan takes a run that continues together with the next one
      rename_i hrun
      cases i with
      | stars n =>
        obtain ⟨cs, hcs⟩ := Items.exists_write_of_beginsRun hrun
        rw [hcs, List.cons_append] at hp' ⊢
        refine reads_stars_continued ho.globstar n fun hparen => hp'.2 ?_
        obtain ⟨tail, htail⟩ := List.head?_eq_some_iff.1 hparen
        exact ⟨tail, by rw [htail]; rfl⟩
      | char | one | choice | group => cases hrun
    · rename_i hrun
      refine i.reads ho hc hi hp' ?_
      rintro n rfl
      exact head?_append_ne (Items.head?_write_ne_star his hp.2 (Bool.not_eq_true _ ▸ hrun)) hr.2

/-- **Well-placed alternatives are read as their lexemes**, with bars for what separates them. -/
theorem Alternatives.reads (as : Alternatives) (sep : Char) (ho : o.ReadsExtended) {x : Context}
    (hc : x.inClass = false) (hw : as.WellPlaced x.inGroup x.inChoice) (hsep : sep ≠ '(')
    (hsep' : sep ≠ '*') (hbar : ∀ rest, Reads o x x [sep] rest [.bar]) {rest : List Char}
    (hr : Stops rest) : Reads o x x (as.write sep) rest as.lexemes := by
  cases as with
  | one is => exact is.reads ho hc hw hr
  | more is as =>
    obtain ⟨his, has⟩ := hw
    exact (is.reads ho hc his (stops_cons hsep hsep' _)).append
      ((hbar _).append (as.reads sep ho hc has hsep hsep' hbar hr))

end

end Reading

end Extended

end PathGlob
