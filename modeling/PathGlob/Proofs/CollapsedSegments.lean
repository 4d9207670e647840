import Mathlib.Data.List.DropRight
import PathGlob.Proofs.Joined
import PathGlob.Proofs.Collapsed

/-!
# Repeated separators between segments

For the walk by segments it does not matter how often a separator is written. A run of separators in
a glob cuts it in the same place as a single one, whatever is open there, and a run in a path begins
no component.

* `Path.components_collapse` and `Path.components_trim`: the components of a path;
* `Scan.InStep`: what two steps have in common that are at the same character of a glob and of the
  collapsed glob;
* `Scan.cutAlike`: the scans of the two globs are cut alike;
* `Glob.acceptsSegments_collapsed`: the segments of the two globs and the walks along a path.
-/

namespace PathGlob

/-! ### Collapsing -/

namespace Path

variable {p : Char → Bool} {a c d : Char} {cs : List Char}

theorem collapse_append_cons (h : p d = false) (cs ds : List Char) :
    collapse p (cs ++ d :: ds) = collapse p cs ++ d :: collapse p ds := by
  induction cs with
  | nil => exact collapse_cons_of_not h
  | cons c cs ih =>
    have hnext : (cs ++ d :: ds).head?.any p = cs.head?.any p := by
      cases cs with
      | nil => exact h
      | cons e cs => rfl
    rw [List.cons_append, collapse, collapse, hnext, ih]
    split <;> rfl

theorem mem_collapse : d ∈ collapse (· == a) cs ↔ d ∈ cs := by
  induction cs with
  | nil => rfl
  | cons c cs ih =>
    rw [collapse]
    split
    · rename_i h
      rw [Bool.and_eq_true, beq_iff_eq] at h
      obtain ⟨rfl, hcs⟩ := h
      obtain ⟨e, he, hec⟩ := (Option.any_eq_true _ _).1 hcs
      have hmem : c ∈ cs := eq_of_beq hec ▸ List.mem_of_mem_head? he
      rw [ih, List.mem_cons]
      exact ⟨.inr, fun h => h.elim (fun h => h ▸ hmem) id⟩
    · rw [List.mem_cons, List.mem_cons, ih]

theorem collapse_eq_self (h : ∀ c ∈ cs, p c = false) : collapse p cs = cs := by
  induction cs with
  | nil => rfl
  | cons c cs ih =>
    rw [List.forall_mem_cons] at h
    rw [collapse_cons_of_not h.1, ih h.2]

/-- The text without the characters of a kind at its ends. -/
def trim (p : Char → Bool) (cs : List Char) : List Char := (cs.dropWhile p).rdropWhile p

/-! ### Components -/

section Components

variable {s : Separator}

theorem components_append_cons (hc : s.splits c = true) (as bs : List Char) :
    components s (as ++ c :: bs) = components s as ++ components s bs := by
  simp only [components, split_eq_splitOnP]
  rw [List.splitOnP_append_cons _ _ hc, List.filter_append]

theorem components_cons (hc : s.splits c = true) (cs : List Char) :
    components s (c :: cs) = components s cs := components_append_cons hc [] cs

/-- **A run of separators in a path counts as one.** -/
theorem components_collapse (s : Separator) (path : List Char) :
    components s (collapse s.splits path) = components s path := by
  -- the text before a run stays in front of what is collapsed
  suffices h : ∀ as, components s (as ++ collapse s.splits path) = components s (as ++ path) from
    h []
  induction path with
  | nil => exact fun as => rfl
  | cons c cs ih =>
    intro as
    rw [collapse]
    split
    · rename_i h
      rw [Bool.and_eq_true] at h
      obtain ⟨hc, hcs⟩ := h
      obtain ⟨d, hd, hsplits⟩ := (Option.any_eq_true _ _).1 hcs
      obtain ⟨ds, rfl⟩ := List.head?_eq_some_iff.1 hd
      rw [ih, components_append_cons hc, components_append_cons hsplits, components_cons hsplits]
    · have h := ih (as ++ [c])
      rwa [List.append_assoc, List.append_assoc] at h

/-- Separators at the ends of a path do not matter. -/
theorem components_trim (s : Separator) (path : List Char) :
    components s (trim s.splits path) = components s path := by
  have hleft : ∀ cs, components s (cs.dropWhile s.splits) = components s cs := by
    intro cs
    induction cs with
    | nil => rfl
    | cons c cs ih =>
      rw [List.dropWhile_cons]
      split
      · rename_i hc
        rw [ih, components_cons hc]
      · rfl
  have hright : ∀ cs, components s (cs.rdropWhile s.splits) = components s cs := by
    intro cs
    induction cs using List.reverseRecOn with
    | nil => rfl
    | append_singleton cs c ih =>
      rw [List.rdropWhile_concat]
      split
      · rename_i hc
        rw [ih, components_append_cons hc]
        exact (List.append_nil _).symm
      · rfl
  rw [trim, hright, hleft]

end Components

end Path

/-! ### Scanning in lockstep -/

theorem classText_of_mem {s : Separator} {name : List Char} (h : s.char ∈ name) :
    classText name = [] := by
  have hnames : ∀ entry ∈ classNames, s.char ∉ entry.1 := by cases s <;> decide
  have hnone : classNames.lookup name = none := by
    rw [List.lookup_eq_none_iff]
    intro entry hentry
    exact bne_iff_ne.2 fun he => hnames entry hentry (he ▸ h)
  rw [classText, hnone]
  rfl

namespace Scan

variable {o : Options} {b : Option Char} {x : Context} {c : Char} {cs rest : List Char}

theorem collapsed_cons (hc : c ≠ o.separator.char) (cs : List Char) :
    collapsed o (c :: cs) = c :: collapsed o cs :=
  Path.collapse_cons_of_not (beq_false_of_ne hc)

theorem collapsed_append_cons (hc : c ≠ o.separator.char) (cs ds : List Char) :
    collapsed o (cs ++ c :: ds) = collapsed o cs ++ c :: collapsed o ds :=
  Path.collapse_append_cons (p := (· == o.separator.char)) (beq_false_of_ne hc) cs ds

theorem collapsed_stars (o : Options) (n : Nat) (cs : List Char) :
    collapsed o (List.replicate n '*' ++ cs) = List.replicate n '*' ++ collapsed o cs :=
  Path.collapse_replicate_of_not n (beq_false_of_ne o.separator.char_ne_star.symm)

theorem classText_collapsed (o : Options) (name : List Char) :
    classText (collapsed o name) = classText name := by
  by_cases h : o.separator.char ∈ name
  · rw [classText_of_mem h, classText_of_mem (Path.mem_collapse.2 h)]
  · have hne : ∀ c ∈ name, (c == o.separator.char) = false := fun c hc =>
      beq_false_of_ne fun he => h (he ▸ hc)
    rw [collapsed, Path.collapse_eq_self hne]

/-- Two steps yield the same, and after them a text and the collapsed text are left. Either both
take along text that ends in the same way, or both are at a globstar that fills a segment. -/
inductive InStep (o : Options) : List Char → Step → Step → Prop
  | taken {taken taken' : List Char} (left : List Char) (p : Piece) (x : Context)
      (hc : collapsed o (taken ++ left) = taken' ++ collapsed o left)
      (hl : taken'.getLast? = taken.getLast?) :
      InStep o (taken ++ left) ⟨p, x, taken.length⟩ ⟨p, x, taken'.length⟩
  | globstar (n : Nat) (left : List Char) (x : Context)
      (hb : atBoundary o.separator left.head? = true) :
      InStep o (List.replicate n '*' ++ left) ⟨.globstar, x, n + 1⟩ ⟨.globstar, x, n + 1⟩

theorem InStep.of_skip_eq_zero {a : Step} (h : a.skip = 0) : InStep o rest a a := by
  obtain ⟨p, x, k⟩ := a
  obtain rfl : k = 0 := h
  have hlast : ([] : List Char).getLast? = [].getLast? := rfl
  exact .taken rest p x rfl hlast

theorem inStep_stars (o : Options) (b : Option Char) (x : Context) (rest : List Char) :
    InStep o rest (stars o b x rest) (stars o b x (collapsed o rest)) := by
  obtain ⟨n, left, rfl, hs⟩ := exists_stars rest
  have hhead : (collapsed o left).head? = left.head? := Path.head?_collapse _ _
  have hs' : (collapsed o left).head? ≠ some '*' := hhead ▸ hs
  have htaken : ∀ p, InStep o (List.replicate n '*' ++ left) ⟨p, x, n⟩ ⟨p, x, n⟩ := by
    intro p
    have h := InStep.taken left p x (collapsed_stars o n left) rfl
    rwa [List.length_replicate] at h
  simp only [stars, collapsed_stars, length_takeWhile_stars hs, length_takeWhile_stars hs',
    List.drop_left' List.length_replicate, hhead]
  split
  · exact htaken _
  · split
    · rename_i h
      rw [Bool.and_eq_true] at h
      exact .globstar n left x h.2
    · exact htaken _

theorem inStep_openGroup (x : Context) (op : Operator) (h : rest.head? = some '(') :
    InStep o rest (openGroup x op) (openGroup x op) := by
  obtain ⟨left, rfl⟩ := List.head?_eq_some_iff.1 h
  have hparen : collapsed o (['('] ++ left) = ['('] ++ collapsed o left :=
    collapsed_cons o.separator.char_ne_openParen.symm left
  exact .taken left _ _ hparen rfl

theorem inStep_operator (o : Options) (b : Option Char) (x : Context) (rest : List Char)
    (op : Operator) :
    InStep o rest (operator o b x rest op) (operator o b x (collapsed o rest) op) := by
  have hchoice : ∀ (p : Bool) (cs : List Char) (c : Char),
      (if p = true then Step.text x cs else Step.escape x c).skip = 0 := by
    intro p cs c
    split <;> rfl
  cases op with
  | anyNumber => exact inStep_stars o b x rest
  | atMostOne | negated => exact .of_skip_eq_zero (hchoice _ _ _)
  | atLeastOne | exactlyOne => exact .of_skip_eq_zero rfl

theorem inStep_className (o : Options) (x : Context) (rest : List Char) :
    InStep o rest (className x rest) (className x (collapsed o rest)) := by
  have hcolon : ':' ≠ o.separator.char := by cases o.separator <;> decide
  have hbracket : ']' ≠ o.separator.char := by cases o.separator <;> decide
  by_cases hr : rest.head? = some ':'
  · obtain ⟨tail, rfl⟩ := List.head?_eq_some_iff.1 hr
    rw [collapsed_cons hcolon]
    by_cases ht : ':' ∈ tail
    · obtain ⟨name, after, rfl, hname⟩ := List.eq_append_cons_of_mem ht
      have hname' : ':' ∉ collapsed o name := fun h => hname (Path.mem_collapse.1 h)
      have hhead : (collapsed o after).head? = after.head? := Path.head?_collapse _ _
      rw [collapsed_append_cons hcolon, className_append hname, className_append hname',
        classText_collapsed, hhead]
      -- a bracket after the name is taken along
      obtain ⟨close, left, rfl, hclose, hlength⟩ : ∃ close left, after = close ++ left ∧
          collapsed o after = close ++ collapsed o left ∧
          close.length = if after.head? = some ']' then 1 else 0 := by
        by_cases ha : after.head? = some ']'
        · obtain ⟨left, rfl⟩ := List.head?_eq_some_iff.1 ha
          exact ⟨[']'], left, rfl, collapsed_cons hbracket left, rfl⟩
        · exact ⟨[], after, rfl, rfl, (if_neg ha).symm⟩
      rw [← hlength]
      have htaken : collapsed o (':' :: (name ++ ':' :: close) ++ left) =
          ':' :: (collapsed o name ++ ':' :: close) ++ collapsed o left := by
        rw [List.cons_append, List.append_assoc, List.cons_append, collapsed_cons hcolon,
          collapsed_append_cons hcolon, hclose, List.cons_append, List.append_assoc,
          List.cons_append]
      have hlast : (':' :: (collapsed o name ++ ':' :: close)).getLast? =
          (':' :: (name ++ ':' :: close)).getLast? := by
        simp [List.getLast?_cons, List.getLast?_append]
      have h := InStep.taken left (.text (classText name)) x htaken hlast
      simpa [Nat.add_assoc, Nat.add_comm 2] using h
    · rw [className_of_not_mem ht, className_of_not_mem fun h => ht (Path.mem_collapse.1 h)]
      exact .of_skip_eq_zero rfl
  · have hr' : (collapsed o rest).head? ≠ some ':' := by rwa [Path.head?_collapse]
    rw [className_of_head? hr, className_of_head? hr']
    exact .of_skip_eq_zero rfl

/-- **A step does not see how often a separator that follows is written**, unless it is at a
separator itself. -/
theorem inStep_step (o : Options) (b : Option Char) (x : Context) {c : Char} (rest : List Char)
    (hc : c ≠ o.separator.char) :
    InStep o rest (step o b x c rest) (step o b x c (collapsed o rest)) := by
  cases hs : Symbol.ofChar o.separator c with
  | separator => exact absurd (Symbol.ofChar_eq_separator_iff.1 hs) hc
  | operator op =>
    have hopens : opensGroup o x (collapsed o rest) op = opensGroup o x rest op := by
      rw [opensGroup, opensGroup, Path.head?_collapse]
    simp only [step, hs, hopens]
    split
    · rename_i h
      rw [opensGroup, Bool.and_eq_true, Bool.and_eq_true] at h
      exact inStep_openGroup x op (eq_of_beq h.1.2)
    · exact inStep_operator o b x rest op
  | openBracket =>
    simp only [step, hs]
    split
    · exact inStep_className o x rest
    · refine .of_skip_eq_zero ?_
      split <;> rfl
  | plain | special | openParen | closeParen | bar | closeBracket | openBrace | closeBrace
  | comma =>
    simp only [step, hs, openParen, closeParen]
    refine .of_skip_eq_zero ?_
    first | rfl | split <;> rfl

/-- The scans of a text and of the collapsed text are cut alike, wherever they begin. -/
def CutAlike (o : Options) (cs : List Char) : Prop :=
  ∀ b x opened, Piece.cut o.separator opened (run o b x 0 (collapsed o cs)).pieces =
    Piece.cut o.separator opened (run o b x 0 cs).pieces

/-- The first separator after a globstar is taken along. To the cut it is one of many. -/
theorem cut_run_globstar (hb : atBoundary o.separator cs.head? = true) :
    Piece.cut o.separator [] (run o b x 1 cs).pieces =
      Piece.cut o.separator [] (run o (some o.separator.char) x 0 cs).pieces := by
  cases cs with
  | nil => rfl
  | cons c cs =>
    obtain rfl : c = o.separator.char := eq_of_beq hb
    rw [cut_run_separator]
    rfl

theorem InStep.cut_eq {a a' : Step} (h : InStep o rest a a')
    (ih : ∀ left, left.length ≤ rest.length → CutAlike o left) (opened : List Char) :
    Piece.cut o.separator opened
        (a'.piece :: (run o b a'.context a'.skip (collapsed o rest)).pieces) =
      Piece.cut o.separator opened (a.piece :: (run o b a.context a.skip rest).pieces) := by
  cases h with
  | @taken taken taken' left p y htaken hlast =>
    have hleft : CutAlike o left := ih left (by simp)
    refine Piece.cut_cons_congr (fun opened => ?_) p opened
    have hrun : run o b y taken.length (taken ++ left) =
        run o (taken.getLast?.or b) y 0 left := run_append taken 0
    have hrun' : run o b y taken'.length (taken' ++ collapsed o left) =
        run o (taken'.getLast?.or b) y 0 (collapsed o left) := run_append taken' 0
    rw [htaken, hrun, hrun', hlast]
    exact hleft _ _ _
  | globstar n left y hb =>
    have hleft : CutAlike o left := ih left (by simp)
    have hb' : atBoundary o.separator (collapsed o left).head? = true := by
      rwa [Path.head?_collapse]
    have hrun : ∀ cs, run o b y (n + 1) (List.replicate n '*' ++ cs) =
        run o ((List.replicate n '*').getLast?.or b) y 1 cs := by
      intro cs
      rw [← run_append, List.length_replicate]
    simp only [Piece.cut, collapsed_stars, hrun]
    rw [cut_run_globstar hb, cut_run_globstar hb', hleft]

/-- **The scans of a glob and of the collapsed glob are cut alike**, whatever is open. -/
theorem cutAlike (o : Options) (cs : List Char) : CutAlike o cs := by
  -- a step may take text along, so the induction is on the length of what is left
  induction hn : cs.length using Nat.strong_induction_on generalizing cs with
  | _ n ih =>
    subst hn
    intro b x opened
    match cs with
    | [] => rfl
    | c :: rest =>
      have hrest : ∀ left : List Char, left.length ≤ rest.length → CutAlike o left := by
        intro left hl
        exact ih _ (Nat.lt_succ_of_le hl) left rfl
      by_cases hc : c = o.separator.char
      · subst hc
        by_cases hr : rest.head? = some o.separator.char
        · have hcollapsed : collapsed o (o.separator.char :: rest) = collapsed o rest := by
            simp [Path.collapse, hr]
          obtain ⟨left, rfl⟩ := List.head?_eq_some_iff.1 hr
          rw [hcollapsed, hrest _ (Nat.le_refl _), cut_run_separator, cut_run_separator,
            cut_run_separator]
          rfl
        · have hcollapsed : collapsed o (o.separator.char :: rest) =
              o.separator.char :: collapsed o rest := Path.collapse_replicate_append 0 hr
          rw [hcollapsed, cut_run_separator, cut_run_separator, hrest _ (Nat.le_refl _)]
      · rw [collapsed_cons hc, pieces_run_cons, pieces_run_cons]
        exact (inStep_step o b x rest hc).cut_eq hrest opened

end Scan

/-! ### Globs -/

/-- **The segments of a glob do not depend on how often separators are written.** -/
theorem Translation.segments_collapsed (o : Options) (text : String) :
    (translate o (Glob.collapsed o.separator text)).segments = (translate o text).segments := by
  have hscan : scan o (Glob.collapsed o.separator text).toList =
      Scan.run o none {} 0 (Scan.collapsed o (o.separator.normalize text.toList)) := by
    rw [scan, Glob.collapsed, String.toList_ofList, Separator.normalize_collapse]
  simp only [translate, hscan]
  exact Scan.cutAlike o _ none {} []

namespace Glob

/-- A path with every run of separators collapsed to a single one, and without separators at its
ends. -/
def tidied (s : Separator) (path : String) : String :=
  String.ofList (Path.trim s.splits (Path.collapse s.splits path.toList))

/-- **Repeated separators between segments.** A glob and the collapsed glob have the same segments.
If both compile, the walks by segments along a path agree, and it does not matter how often the path
has separators between its components or whether it has any at its ends. -/
theorem acceptsSegments_collapsed (o : Options) (text : String) :
    (translate o (collapsed o.separator text)).segments = (translate o text).segments ∧
      ∀ g w, compile o text = .ok g → compile o (collapsed o.separator text) = .ok w → ∀ path,
        w.acceptsSegments path = g.acceptsSegments path ∧
          g.acceptsSegments (tidied o.separator path) = g.acceptsSegments path := by
  have hsegments := Translation.segments_collapsed o text
  refine ⟨hsegments, fun g w hg hw path => ?_⟩
  obtain ⟨hoptions, -, -, hg⟩ := eq_of_compile hg
  obtain ⟨hoptions', -, -, hw⟩ := eq_of_compile hw
  constructor
  · unfold acceptsSegments stages components
    rw [hg, hw, hsegments, hoptions, hoptions']
  · have hcomponents : g.components (tidied o.separator path) = g.components path := by
      unfold components tidied
      rw [hoptions, String.toList_ofList, Path.components_trim, Path.components_collapse]
    unfold acceptsSegments
    rw [hcomponents]

/-- `@(a|b)///**//?` walks along `//b///x/` as `@(a|b)/**/?` does along `b/x`. -/
theorem acceptsSegments_collapsed_globstar :
    ∃ g w, compile { extended := true, globstar := true, separator := .posix }
        "@(a|b)///**//?" = .ok g ∧
      compile { extended := true, globstar := true, separator := .posix } "@(a|b)/**/?" = .ok w ∧
      w.acceptsSegments "b/x" = true ∧ g.acceptsSegments "//b///x/" = true := by
  have hcollapsed : collapsed .posix "@(a|b)///**//?" = "@(a|b)/**/?" := by decide
  have htidied : tidied .posix "//b///x/" = "b/x" := by decide
  have hg : (compile { extended := true, globstar := true, separator := .posix }
      "@(a|b)///**//?").toOption.map (fun _ => true) = some true := by decide +kernel
  have hw : (compile { extended := true, globstar := true, separator := .posix }
      "@(a|b)/**/?").toOption.map (·.acceptsSegments "b/x") = some true := by decide +kernel
  obtain ⟨g, hg, -⟩ := exists_of_toOption_map hg
  obtain ⟨w, hw, hpath⟩ := exists_of_toOption_map hw
  obtain ⟨-, hwalk⟩ := acceptsSegments_collapsed
    { extended := true, globstar := true, separator := .posix } "@(a|b)///**//?"
  rw [hcollapsed] at hwalk
  have hsame := (hwalk g w hg hw "b/x").1
  have hpaths := (hwalk g w hg hw "//b///x/").2
  rw [htidied] at hpaths
  exact ⟨g, w, hg, hw, hpath, by rw [← hpaths, ← hsame, hpath]⟩

end Glob

end PathGlob
