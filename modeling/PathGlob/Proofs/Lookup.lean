import PathGlob.Proofs.Class

/-!
# Looking up a class name

Inside a class, `[:` begins a class name if another `:` follows, wherever it is. The scan goes on at
that second `:`, so a look-up that succeeds beyond the end of the class passes over all that stands
between. Where no `:` follows, the `[` stands for itself: the class goes on to its next `]`, and the
scan reads every character after it.

* `Place`: a place of a glob at which the scan reads a character; `Scan.places` are those of a scan,
  and `Scan.pieces_run_eq_places` are the pieces that it yields there;
* `Scan.Sign`: the characters that mean something together, and `Step.Keeps`: a step reads no more
  than a sign, and writes something for it;
* `Scan.keeps_step`: every step does so but the look-up of a class name;
* `Scan.classEnds_places`: a class in which nothing is looked up ends at its next `]`;
* `Scan.lookup_stays_iff`: which look-ups stay inside their class.
-/

namespace PathGlob

/-- A place of a glob at which the scan reads a character. -/
structure Place where
  before : Option Char
  context : Context
  char : Char
  rest : List Char
  deriving DecidableEq, Repr

namespace Place

/-- The step of the scan. -/
def step (o : Options) (p : Place) : Step := Scan.step o p.before p.context p.char p.rest

/-- The piece that is yielded. -/
def piece (o : Options) (p : Place) : Piece := (p.step o).piece

/-- The character with those after it that are used up. -/
def taken (o : Options) (p : Place) : List Char := p.char :: p.rest.take (p.step o).skip

end Place

namespace Scan

/-- The places at which a scan reads a character. -/
def places (o : Options) (before : Option Char) (x : Context) (skip : Nat) :
    List Char → List Place
  | [] => []
  | c :: rest =>
    match skip with
    | 0 =>
      let a := step o before x c rest
      ⟨before, x, c, rest⟩ :: places o (some c) a.context a.skip rest
    | k + 1 => places o (some c) x k rest

/-- The places at which the scan of a whole glob reads a character. -/
def placesOf (o : Options) (glob : List Char) : List Place :=
  places o none {} 0 (o.separator.normalize glob)

/-! ### Places -/

variable {o : Options} {b : Option Char} {x : Context} {c : Char} {k : Nat} {cs rest : List Char}

/-- **A scan yields a piece at each place.** -/
theorem pieces_run_eq_places (o : Options) (b : Option Char) (x : Context) (k : Nat)
    (cs : List Char) : (run o b x k cs).pieces = (places o b x k cs).map (Place.piece o) := by
  induction cs generalizing b x k with
  | nil => rfl
  | cons c rest ih =>
    cases k with
    | zero =>
      rw [run, places]
      simp only [ih, List.map_cons]
      rfl
    | succ k => exact ih _ _ _

theorem places_after {ps qs : List Place} {p : Place} (h : places o b x k cs = ps ++ p :: qs) :
    qs = places o (some p.char) (p.step o).context (p.step o).skip p.rest := by
  induction cs generalizing b x k ps with
  | nil => simp [places] at h
  | cons c rest ih =>
    cases k with
    | succ k => exact ih h
    | zero =>
      rw [places] at h
      cases ps with
      | nil =>
        obtain ⟨rfl, rfl⟩ := List.cons.inj h
        rfl
      | cons p' ps => exact ih (List.cons.inj h).2

theorem suffix_of_mem_places {p : Place} (h : p ∈ places o b x k cs) : p.char :: p.rest <:+ cs := by
  induction cs generalizing b x k with
  | nil => cases h
  | cons c rest ih =>
    cases k with
    | succ k => exact (ih h).trans (List.suffix_cons c rest)
    | zero =>
      rcases List.mem_cons.1 h with rfl | h
      · exact List.suffix_rfl
      · exact (ih h).trans (List.suffix_cons c rest)

/-- The characters that are taken make up the text. -/
theorem flatMap_taken_places (o : Options) (b : Option Char) (x : Context) (k : Nat)
    (cs : List Char) : (places o b x k cs).flatMap (Place.taken o) = cs.drop k := by
  induction cs generalizing b x k with
  | nil => simp [places]
  | cons c rest ih =>
    cases k with
    | succ k => exact ih _ _ _
    | zero =>
      rw [places, List.flatMap_cons, ih]
      exact congrArg (List.cons c) (List.take_append_drop _ rest)

/-! ### Signs -/

/-- Characters that mean something together. -/
inductive Sign (s : Separator) : List Char → Prop
  | char (c : Char) : Sign s [c]
  /-- A character that opens a group, and its parenthesis. -/
  | opening (c : Char) : Sign s [c, '(']
  | stars (n : Nat) : Sign s (List.replicate (n + 1) '*')
  /-- A run of `*` with the separator after it. -/
  | globstar (n : Nat) : Sign s (List.replicate (n + 1) '*' ++ [s.char])
  | separators : Sign s [s.char, s.char]

theorem Sign.mem_tail {s : Separator} {cs : List Char} (h : Sign s cs) :
    ∀ d ∈ cs.tail, d ∈ ['(', '*', s.char] := by
  intro d hd
  cases h with
  | char c => cases hd
  | opening c => simp_all
  | stars n => simp_all [List.replicate_succ]
  | globstar n =>
    rw [List.replicate_succ, List.cons_append, List.tail_cons, List.mem_append,
      List.mem_replicate, List.mem_singleton] at hd
    rcases hd with ⟨-, rfl⟩ | rfl <;> simp
  | separators => simp_all

end Scan

/-- The step, at `c` before `rest`, reads a sign and writes something for it. -/
structure Step.Keeps (s : Separator) (c : Char) (rest : List Char) (a : Step) : Prop where
  sign : Scan.Sign s (c :: rest.take a.skip)
  written : a.piece.write s ≠ []

namespace Scan

variable {o : Options} {b : Option Char} {x : Context} {c : Char} {k : Nat} {cs rest : List Char}

theorem keeps_text {s : Separator} {x : Context} (h : cs ≠ []) :
    (Step.text x cs).Keeps s c rest :=
  ⟨.char c, h⟩

theorem keeps_escape {s : Separator} {x : Context} {d : Char} : (Step.escape x d).Keeps s c rest :=
  keeps_text (by simp)

theorem keeps_separator : (separator o x rest).Keeps o.separator o.separator.char rest := by
  have hwrite : ∀ lenient, (Piece.separator lenient).write o.separator ≠ [] := by
    intro lenient
    cases o.separator <;> simp [Piece.write, Separator.token, Separator.escaped]
  rw [separator]
  split
  · rename_i hr
    obtain ⟨rest, rfl⟩ := List.head?_eq_some_iff.1 hr
    refine ⟨?_, hwrite _⟩
    dsimp only
    split
    · exact .separators
    · exact .char _
  · exact ⟨.char _, hwrite _⟩

theorem keeps_openGroup (op : Operator) (hr : rest.head? = some '(') :
    (openGroup x op).Keeps o.separator c rest := by
  obtain ⟨rest, rfl⟩ := List.head?_eq_some_iff.1 hr
  refine ⟨.opening c, ?_⟩
  cases op <;> simp [openGroup, Piece.write, Group.opening]

theorem keeps_stars : (stars o b x rest).Keeps o.separator '*' rest := by
  obtain ⟨n, left, rfl, hs⟩ := exists_stars rest
  have hrun : Sign o.separator ('*' :: (List.replicate n '*' ++ left).take n) := by
    rw [List.take_left' List.length_replicate]
    exact .stars n
  simp only [stars, length_takeWhile_stars hs, List.drop_left' List.length_replicate]
  split
  · exact ⟨hrun, by simp [Piece.write]⟩
  · split
    · rename_i h
      rw [Bool.and_eq_true] at h
      refine ⟨?_, by simp [Piece.write, Separator.globstar]⟩
      rw [List.take_append, List.length_replicate, Nat.add_sub_cancel_left,
        List.take_of_length_le (by simp)]
      -- a separator is next, or the end of the glob
      cases left with
      | nil =>
        rw [List.take_nil, List.append_nil]
        exact .stars n
      | cons d left =>
        obtain rfl : d = o.separator.char := eq_of_beq h.2
        exact .globstar n
    · exact ⟨hrun, by simp [Piece.write]⟩

/-- **A step reads a sign and writes something for it**, but for the look-up of a class name. -/
theorem keeps_step (b : Option Char) (x : Context) (c : Char) (h : ':' ∉ rest.tail) :
    (step o b x c rest).Keeps o.separator c rest := by
  cases hs : Symbol.ofChar o.separator c with
  | plain =>
    simp only [step, hs]
    exact keeps_text (by simp)
  | special =>
    simp only [step, hs]
    exact keeps_escape
  | separator =>
    obtain rfl := Symbol.ofChar_eq_separator_iff.1 hs
    simp only [step, hs]
    exact keeps_separator
  | openParen =>
    simp only [step, hs, openParen]
    split
    · exact keeps_escape
    · exact keeps_text (by simp [Group.opening])
  | closeParen =>
    simp only [step, hs, closeParen]
    split
    · exact keeps_escape
    · rename_i g gs _
      refine keeps_text ?_
      cases g with
      | bare => simp [Group.closing]
      | marked op => cases op <;> simp [Group.closing]
  | bar | comma | openBrace | closeBrace | closeBracket =>
    simp only [step, hs]
    split
    all_goals first | exact keeps_escape | exact keeps_text (by simp)
  | openBracket =>
    simp only [step, hs]
    split
    · have hname : className x rest = .escape x '[' := by
        by_cases hr : rest.head? = some ':'
        · obtain ⟨tail, rfl⟩ := List.head?_eq_some_iff.1 hr
          exact className_of_not_mem h
        · exact className_of_head? hr
      rw [hname]
      exact keeps_escape
    · split
      · exact keeps_text (by simp)
      · exact keeps_escape
  | operator op =>
    simp only [step, hs]
    split
    · rename_i hg
      rw [opensGroup, Bool.and_eq_true, Bool.and_eq_true] at hg
      exact keeps_openGroup op (eq_of_beq hg.1.2)
    · cases op with
      | anyNumber =>
        obtain rfl := Symbol.char?_ofChar o.separator c '*' (by rw [hs]; rfl)
        exact keeps_stars
      | atMostOne | negated =>
        simp only [operator]
        split
        · exact keeps_text (by simp)
        · exact keeps_escape
      | atLeastOne | exactlyOne => exact keeps_escape

/-! ### Classes -/

theorem inClass_context_step (hx : x.inClass = true) (hc : c ≠ ']') :
    (step o b x c rest).context.inClass = true := by
  obtain ⟨groups, braces, inClass⟩ := x
  obtain rfl : inClass = true := hx
  by_cases hspecial : c ∈ ['[', ']', '!']
  · have hsep : c ≠ o.separator.char := by
      rintro rfl
      revert hspecial
      cases o.separator <;> decide
    obtain rfl | rfl : c = '[' ∨ c = '!' := by simpa [hc] using hspecial
    · have hs : Symbol.ofChar o.separator '[' = .openBracket := by simp [Symbol.ofChar, hsep]
      simp only [step, hs, ↓reduceIte, className]
      split
      · split <;> rfl
      · rfl
    · have hs : Symbol.ofChar o.separator '!' = .operator .negated := by simp [Symbol.ofChar, hsep]
      simp only [step, hs, opensGroup, operator]
      simp only [beq_self_eq_true, Bool.and_true, Bool.not_true, Bool.and_false, Bool.false_eq_true,
        ↓reduceIte]
      split <;> rfl
  · rw [@step_inClass o b ⟨groups, braces, true⟩ c rest hspecial]

theorem step_closeBracket (hx : x.inClass = true) :
    step o b x ']' rest = .text { x with inClass := false } [']'] := by
  have hs : Symbol.ofChar o.separator ']' = .closeBracket := by cases o.separator <;> rfl
  simp only [step, hs, hx, ↓reduceIte]

/-- The places, from one inside a class, are inside it up to its end, where `inside` has been read.
After that the text `after` is read, all of it in signs for which something is written. -/
def ClassEnds (o : Options) (qs : List Place) (inside after : List Char) : Prop :=
  ∃ ms p rs, qs = ms ++ p :: rs ∧
    (ms.flatMap (Place.taken o) = inside ∧ ∀ q ∈ ms, q.context.inClass = true) ∧
    (p.taken o = [']'] ∧ p.context.inClass = true ∧
      p.step o = .text { p.context with inClass := false } [']']) ∧
    (rs.flatMap (Place.taken o) = after ∧ ∀ q ∈ rs, (q.step o).Keeps o.separator q.char q.rest)

/-- **A class without look-ups ends at its next `]`.** -/
theorem classEnds_places {inside after : List Char} (hx : x.inClass = true)
    (h : ':' ∉ inside ++ ']' :: after) (hi : ']' ∉ inside) (hk : k ≤ inside.length) :
    ClassEnds o (places o b x k (inside ++ ']' :: after)) (inside.drop k) after := by
  induction inside generalizing b x k with
  | nil =>
    obtain rfl : k = 0 := Nat.le_zero.1 hk
    have ha : ':' ∉ after := fun hm => h (List.mem_cons_of_mem _ hm)
    have hstep : (⟨b, x, ']', after⟩ : Place).step o = _ := step_closeBracket hx
    refine ⟨[], ⟨b, x, ']', after⟩, _, ?_, ⟨rfl, by simp⟩, ⟨?_, hx, hstep⟩,
      flatMap_taken_places o (some ']') { x with inClass := false } 0 after, fun q hq => ?_⟩
    · rw [List.nil_append, places, step_closeBracket hx]
      rfl
    · rw [Place.taken, hstep]
      rfl
    · have hq := (suffix_of_mem_places hq).subset
      exact keeps_step _ _ _ fun hm => ha (hq (List.mem_cons_of_mem _ (List.mem_of_mem_tail hm)))
  | cons c inside ih =>
    rw [List.cons_append, List.mem_cons, not_or] at h
    rw [List.mem_cons, not_or] at hi
    cases k with
    | succ k => exact ih hx h.2 hi.2 (Nat.le_of_succ_le_succ hk)
    | zero =>
      have htail : ':' ∉ (inside ++ ']' :: after).tail := fun hm => h.2 (List.mem_of_mem_tail hm)
      have hkeeps : (step o b x c (inside ++ ']' :: after)).Keeps _ _ _ := keeps_step b x c htail
      have hx' : (step o b x c (inside ++ ']' :: after)).context.inClass = true :=
        inClass_context_step hx (Ne.symm hi.1)
      have htaken : Place.taken o ⟨b, x, c, inside ++ ']' :: after⟩ =
          c :: (inside ++ ']' :: after).take (step o b x c (inside ++ ']' :: after)).skip := rfl
      rw [List.cons_append, places]
      generalize step o b x c (inside ++ ']' :: after) = a at hkeeps hx' htaken ⊢
      -- the sign ends before the bracket
      have hskip : a.skip ≤ inside.length := by
        by_contra hlt
        have hmem : ']' ∈ (inside ++ ']' :: after).take a.skip := by
          rw [List.take_append, List.take_of_length_le (by omega)]
          obtain ⟨n, hn⟩ : ∃ n, a.skip - inside.length = n + 1 :=
            ⟨a.skip - inside.length - 1, by omega⟩
          simp [hn]
        have hsep : ']' ≠ o.separator.char := by cases o.separator <;> decide
        simpa [hsep] using hkeeps.sign.mem_tail ']' hmem
      obtain ⟨ms, p, rs, hplaces, ⟨hms, hin⟩, hend⟩ := ih (b := some c) hx' h.2 hi.2 hskip
      refine ⟨⟨b, x, c, inside ++ ']' :: after⟩ :: ms, p, rs, congrArg _ hplaces, ⟨?_, ?_⟩, hend⟩
      · rw [List.flatMap_cons, hms, htaken, List.take_append_of_le_length hskip,
          List.cons_append, List.take_append_drop]
        rfl
      · exact List.forall_mem_cons.2 ⟨hx, hin⟩

/-! ### Look-ups -/

theorem className_ne_escape {tail : List Char} (h : ':' ∈ tail) :
    className x (':' :: tail) ≠ .escape x '[' := by
  obtain ⟨name, after, rfl, hname⟩ := List.eq_append_cons_of_mem h
  rw [className_append hname]
  intro he
  have := congrArg Step.skip he
  simp [Step.escape, Step.text] at this

/-- Where nothing is looked up, the class goes on with the `:`, which is no `[` itself. -/
theorem classEnds_colon {tail inside after : List Char} (hx : x.inClass = true) (ht : ':' ∉ tail)
    (hi : ':' :: tail = inside ++ ']' :: after) (hclose : ']' ∉ inside) :
    ClassEnds o (places o b x 0 (':' :: tail)) inside after := by
  obtain ⟨inside, rfl⟩ : ∃ inside', inside = ':' :: inside' := by
    cases inside with
    | nil => simp at hi
    | cons d inside => exact ⟨inside, by rw [(List.cons.inj hi).1]⟩
  obtain rfl : tail = inside ++ ']' :: after := (List.cons.inj hi).2
  have hcolon : step o b x ':' (inside ++ ']' :: after) = .text x [':'] := by
    have hs : Symbol.ofChar o.separator ':' = .plain := by cases o.separator <;> rfl
    simp only [step, hs]
  obtain ⟨ms, p, rs, hplaces, ⟨hms, hin⟩, hend⟩ :=
    classEnds_places (o := o) (b := some ':') (k := 0) hx ht
      (fun hm => hclose (List.mem_cons_of_mem _ hm)) (Nat.zero_le _)
  refine ⟨⟨b, x, ':', inside ++ ']' :: after⟩ :: ms, p, rs, ?_, ⟨?_, ?_⟩, hend⟩
  · rw [places, hcolon]
    exact congrArg _ hplaces
  · rw [List.flatMap_cons, hms, Place.taken, Place.step, hcolon]
    rfl
  · exact List.forall_mem_cons.2 ⟨hx, hin⟩

/-- **A look-up stays inside its class** exactly if no other `:` follows. Then `[` is escaped and
the scan goes on at the `:`, and the class ends at its next `]`. -/
theorem lookup_stays_iff {glob tail : List Char} {ps qs : List Place} {p : Place}
    (h : placesOf o glob = ps ++ p :: qs) (hx : p.context.inClass = true) (hc : p.char = '[')
    (hr : p.rest = ':' :: tail) :
    (scan o glob).pieces = (ps ++ p :: qs).map (Place.piece o) ∧
    (p.step o = .escape p.context '[' ↔ ':' ∉ tail) ∧
    (':' ∉ tail → ∀ inside after, p.rest = inside ++ ']' :: after → ']' ∉ inside →
      ClassEnds o qs inside after) := by
  obtain ⟨before, x, c, rest⟩ := p
  obtain rfl : c = '[' := hc
  obtain rfl : rest = ':' :: tail := hr
  have hx : x.inClass = true := hx
  have hstep : (⟨before, x, '[', ':' :: tail⟩ : Place).step o = className x (':' :: tail) := by
    have hs : Symbol.ofChar o.separator '[' = .openBracket := by cases o.separator <;> rfl
    simp only [Place.step, step, hs, hx, ↓reduceIte]
  refine ⟨?_, ?_, fun ht inside after hi hclose => ?_⟩
  · rw [← h]
    exact pieces_run_eq_places o none {} 0 _
  · rw [hstep]
    exact ⟨fun he hm => className_ne_escape hm he, className_of_not_mem⟩
  · have hqs := places_after h
    rw [hstep, className_of_not_mem ht] at hqs
    rw [hqs]
    exact classEnds_colon hx ht hi hclose

/-- In `[[:a]b` nothing is looked up: the class ends before the `b`. -/
theorem lookup_stays_without_colon :
    ∃ p qs, placesOf { extended := true } "[[:a]b".toList =
        [⟨none, {}, '[', "[:a]b".toList⟩] ++ p :: qs ∧
      p.step { extended := true } = .escape p.context '[' ∧
      ClassEnds { extended := true } qs [':', 'a'] ['b'] := by
  have h := @lookup_stays_iff { extended := true } "[[:a]b".toList ['a', ']', 'b']
    [⟨none, {}, '[', "[:a]b".toList⟩] _ ⟨some '[', { inClass := true }, '[', ":a]b".toList⟩
    rfl rfl rfl rfl
  exact ⟨_, _, rfl, h.2.1.2 (by decide), h.2.2 (by decide) _ _ rfl (by decide)⟩

/-- In `[[:a]b:c]` no `:]` follows the `[:`, but the look-up goes on at the `:` after the class. So
`a]b` is passed over, and the class ends at the last character of the glob. -/
theorem lookup_leaves_class :
    ∃ (glob : String) (ps qs : List Place) (p : Place) (tail : List Char),
      placesOf { extended := true } glob.toList = ps ++ p :: qs ∧ p.context.inClass = true ∧
      p.char = '[' ∧ p.rest = ':' :: tail ∧ ¬[':', ']'] <:+: p.rest ∧
      p.step { extended := true } ≠ .escape p.context '[' ∧
      (translate { extended := true } glob).pattern = "^[c]$" :=
  ⟨"[[:a]b:c]", [⟨none, {}, '[', "[:a]b:c]".toList⟩], _,
    ⟨some '[', { inClass := true }, '[', ":a]b:c]".toList⟩, "a]b:c]".toList,
    rfl, rfl, rfl, rfl, by decide, by decide, rfl⟩

end Scan

end PathGlob
