import PathGlob.Proofs.Glob.Extended

/-!
# A star before a group

A `*` opens a group if `(` follows it, and otherwise it begins a run that takes in every `*` after
it. So a `*` before a group is a run of its own and leaves the group as it is, unless the group
begins with a `*` itself. Then that one belongs to the run, and the `(` after it opens nothing.

* `Operator.group`: the text of a group, and `Translation.body`: the pattern without its anchors;
* `Scan.run_before_of_not_globstar`: without globstars a scan does not look back;
* `Translation.body_stars`: a run of `*` is written before what follows it;
* `Translation.body_star_group_iff`: the operators before which a `*` leaves the group a group.
-/

namespace PathGlob

/-- The text of a group: the operator, and what the group holds between parentheses. -/
def Operator.group (op : Operator) (held : List Char) : List Char :=
  (Group.marked op).mark ++ '(' :: (held ++ [')'])

namespace Translation

/-- The pattern of a glob for whole paths without its anchors. -/
def body (o : Options) (glob : List Char) : List Char :=
  Piece.body o.separator (scan o glob).pieces

theorem pattern_eq_body (o : Options) (glob : String) :
    (translate o glob).pattern = String.ofList (wholePattern o (body o glob.toList)) := rfl

end Translation

/-! ### Scans that do not look back -/

namespace Scan

variable {o : Options} {b : Option Char} {x : Context} {k : Nat} {cs : List Char}

/-- **Without globstars** the scan goes on in the same way whatever comes before. -/
theorem run_before_of_not_globstar (hg : o.globstar = false) (b' : Option Char) :
    run o b x k cs = run o b' x k cs := by
  have hstep : ∀ c rest, step o b x c rest = step o b' x c rest := by
    intro c rest
    have hop : ∀ op, operator o b x rest op = operator o b' x rest op := by
      intro op
      cases op <;> simp [operator, stars, hg]
    simp only [step, hop]
  cases cs with
  | nil => rfl
  | cons c rest =>
    cases k with
    | zero => simp only [run, hstep]
    | succ k => rfl

end Scan

/-! ### Bodies -/

theorem Separator.normalize_cons_of_ne {c : Char} (hc : c ≠ '/') (s : Separator) (cs : List Char) :
    s.normalize (c :: cs) = c :: s.normalize cs := by
  cases s with
  | posix => rfl
  | windows => simp [normalize, hc]

theorem Separator.normalize_replicate_star (s : Separator) (n : Nat) (cs : List Char) :
    s.normalize (List.replicate n '*' ++ cs) = List.replicate n '*' ++ s.normalize cs := by
  induction n with
  | zero => rfl
  | succ n ih =>
    rw [List.replicate_succ, List.cons_append, normalize_cons_of_ne (by decide), ih]
    rfl

theorem Separator.normalize_group (s : Separator) (op : Operator) (held : List Char) :
    s.normalize (op.group held) = op.group (s.normalize held) := by
  cases s with
  | posix => rfl
  | windows => cases op <;> simp [Operator.group, Group.mark, Symbol.char?, normalize]

namespace Translation

variable {o : Options} {cs : List Char}

/-- **A run of `*` is written before what follows it**, and what follows it is read as if it stood
at the beginning. -/
theorem body_stars (hg : o.globstar = false) (n : Nat)
    (hs : (o.separator.normalize cs).head? ≠ some '*')
    (hp : o.extended = true →
      (List.replicate n '*' ++ o.separator.normalize cs).head? ≠ some '(') :
    body o (List.replicate (n + 1) '*' ++ cs) = ['.', '*'] ++ body o cs := by
  have hrun : (Scan.run o none {} 0
      (List.replicate (n + 1) '*' ++ o.separator.normalize cs)).pieces = _ :=
    Scan.pieces_run_dots hs hp hg
  rw [body, scan, Separator.normalize_replicate_star, hrun,
    Scan.run_before_of_not_globstar hg none]
  rfl

theorem opening_prefix_body (he : o.extended = true) (op : Operator) (held : List Char) :
    (Group.marked op).opening <+: body o (op.group held) := by
  obtain ⟨c, hmark, hc⟩ : ∃ c, (Group.marked op).mark = [c] ∧
      Symbol.ofChar o.separator c = .operator op := by
    cases o.separator <;> cases op <;> exact ⟨_, rfl, by decide⟩
  have hstep : ∀ rest, Scan.step o none {} c ('(' :: rest) = Scan.openGroup {} op := by
    intro rest
    simp [Scan.step, hc, Scan.opensGroup, he]
  rw [body, scan, Separator.normalize_group, Operator.group, hmark, List.singleton_append,
    Scan.pieces_run_cons, hstep, Piece.body, List.flatMap_cons]
  exact List.prefix_append _ _

/-- Where nothing is open, a parenthesis stands for itself. -/
theorem escape_prefix_body (cs : List Char) : ['\\', '('] <+: body o ('(' :: cs) := by
  have hstep : ∀ rest, Scan.step o none {} '(' rest = .escape {} '(' := by
    intro rest
    have hc : Symbol.ofChar o.separator '(' = .openParen := by cases o.separator <;> rfl
    simp [Scan.step, hc, Scan.openParen]
  rw [body, scan, Separator.normalize_cons_of_ne (by decide), Scan.pieces_run_cons, hstep,
    Piece.body, List.flatMap_cons]
  exact List.prefix_append _ _

/-- **A `*` before a group leaves the group a group** exactly if the operator of the group is not a
`*` itself: then the pattern is that of the group after a run of characters. -/
theorem body_star_group_iff (he : o.extended = true) (hg : o.globstar = false) (op : Operator)
    (held : List Char) :
    body o ('*' :: op.group held) = ['.', '*'] ++ body o (op.group held) ↔ op ≠ .anyNumber := by
  constructor
  · rintro h rfl
    -- both stars are one run, and the parenthesis after it stands for itself
    have hnorm : o.separator.normalize ('(' :: (held ++ [')'])) =
        '(' :: o.separator.normalize (held ++ [')']) :=
      Separator.normalize_cons_of_ne (by decide) _ _
    have hrun : body o (List.replicate 2 '*' ++ '(' :: (held ++ [')'])) = _ :=
      body_stars hg 1 (by simp [hnorm]) (by simp)
    have hbody := List.append_cancel_left (hrun.symm.trans h)
    obtain ⟨rest, hgroup⟩ := opening_prefix_body he .anyNumber held
    obtain ⟨rest', hparen⟩ := @escape_prefix_body o (held ++ [')'])
    rw [← hgroup, ← hparen] at hbody
    exact absurd (List.head_eq_of_cons_eq hbody) (by decide)
  · intro hop
    have hhead : (o.separator.normalize (op.group held)).head? ∉ [some '*', some '('] := by
      rw [Separator.normalize_group]
      cases op with
      | anyNumber => exact absurd rfl hop
      | atMostOne | atLeastOne | exactlyOne | negated =>
        simp [Operator.group, Group.mark, Symbol.char?]
    simp only [List.mem_cons, List.not_mem_nil, or_false, not_or] at hhead
    exact body_stars hg 0 hhead.1 fun _ => hhead.2

/-- Any text, and then `a` or `b` once. -/
theorem body_star_group_once :
    (translate { extended := true } "*@(a|b)").pattern = "^.*(a|b)\x7b1\x7d$" := by
  have h := (@body_star_group_iff { extended := true } rfl rfl .exactlyOne
    "a|b".toList).2 (by decide)
  have hbody : body { extended := true } "*@(a|b)".toList = ".*(a|b)\x7b1\x7d".toList :=
    h.trans (by decide)
  rw [pattern_eq_body, hbody]
  rfl

/-- A `*` before `*(a)` takes the operator of the group into its run. The parentheses stand for
themselves, although nothing is left open and there is no class. -/
theorem body_star_group_lost :
    ∃ (op : Operator) (held : List Char),
      (scan { extended := true } (op.group held)).context = {} ∧ '[' ∉ held ∧
      body { extended := true } (op.group held) = "(a)*".toList ∧
      body { extended := true } ('*' :: op.group held) = ".*\\(a\\)".toList ∧
      ¬body { extended := true } ('*' :: op.group held) =
        ['.', '*'] ++ body { extended := true } (op.group held) :=
  ⟨.anyNumber, ['a'], by decide, by decide, by decide, by decide, by decide⟩

end Translation

end PathGlob
