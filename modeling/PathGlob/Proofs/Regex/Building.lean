import PathGlob.Regex.Reader
import PathGlob.Matcher
import PathGlob.Proofs.Regex.Match

/-!
# Regexes from tokens

What the stack of open groups makes of a row of tokens.

* `Regex.proper_of_read`: what is read from a text has the bounds of all repetitions in order, so
  the search in `Matcher.accepts` is exact;
* `Regex.Builds d ts rs` says that the tokens `ts` add the parts `rs` to any open group, if groups
  may be nested `d` deep in it; the lemmas in its namespace build up a regex from its parts, and
  `Regex.Branches.close` makes a group of its branches.
-/

namespace PathGlob

namespace Regex

/-! ### Bounds in order -/

/-- All parts and branches so far have the bounds of their repetitions in order. -/
def Frame.Proper (k : Frame) : Prop := (∀ r ∈ k.parts, r.Proper) ∧ ∀ r ∈ k.branches, r.Proper

namespace Frame

theorem Proper.branch {k : Frame} (h : k.Proper) : k.branch.Proper :=
  proper_seqs.2 fun r hr => h.1 r (List.mem_reverse.1 hr)

theorem Proper.body {k : Frame} (h : k.Proper) : k.body.Proper := by
  refine proper_alts.2 fun r hr => ?_
  rcases List.mem_cons.1 (List.mem_reverse.1 hr) with rfl | hr
  · exact h.branch
  · exact h.2 r hr

theorem Proper.close {k : Frame} (h : k.Proper) : k.close.Proper := by
  unfold Frame.close
  split
  · exact h.body
  · exact h.body

theorem Proper.add {k : Frame} (h : k.Proper) {r : Regex} (hr : r.Proper) : (k.add r).Proper :=
  ⟨List.forall_mem_cons.2 ⟨hr, h.1⟩, h.2⟩

theorem Proper.split {k : Frame} (h : k.Proper) : k.split.Proper :=
  ⟨by simp [Frame.split], List.forall_mem_cons.2 ⟨h.branch, h.2⟩⟩

theorem Proper.repeatLast {k k' : Frame} (h : k.Proper) {lo : Nat} {hi : Option Nat}
    {greedy : Bool} (hb : ∀ b, hi = some b → lo ≤ b) (he : k.repeatLast lo hi greedy = .ok k') :
    k'.Proper := by
  unfold Frame.repeatLast at he
  split at he
  · rename_i r rs hp
    have hr := h.1
    rw [hp] at hr
    obtain ⟨hr, hrs⟩ := List.forall_mem_cons.1 hr
    split at he
    · cases he; exact ⟨List.forall_mem_cons.2 ⟨⟨hb, hr⟩, hrs⟩, h.2⟩
    · cases he; exact ⟨List.forall_mem_cons.2 ⟨⟨hb, hr⟩, hrs⟩, h.2⟩
    · cases he
  · cases he

end Frame

/-- All open groups have the bounds of their repetitions in order. -/
def Frames.Proper (s : Frames) : Prop := s.inner.Proper ∧ ∀ k ∈ s.outer, k.Proper

namespace Frames

theorem Proper.step {s s' : Frames} {t : Token} (h : s.Proper) (he : s.step t = .ok s') :
    s'.Proper := by
  cases t with
  | set a => cases he; exact ⟨h.1.add trivial, h.2⟩
  | edge e => cases he; exact ⟨h.1.add trivial, h.2⟩
  | openGroup | openNotAhead =>
    simp only [Frames.step, openGroup] at he
    split at he
    · cases he; exact ⟨⟨by simp, by simp⟩, List.forall_mem_cons.2 h⟩
    · cases he
  | close =>
    simp only [Frames.step, close] at he
    split at he
    · cases he
    · -- the group becomes a part of the one around it
      rename_i k ks ho
      have hk := h.2
      rw [ho] at hk
      obtain ⟨hk, hks⟩ := List.forall_mem_cons.1 hk
      cases he; exact ⟨hk.add h.1.close, hks⟩
  | bar => cases he; exact ⟨h.1.split, h.2⟩
  | count lo hi greedy =>
    simp only [Frames.step] at he
    split at he
    · cases he
    · rename_i hlt
      have hb : ∀ b, hi = some b → lo ≤ b := by
        rintro b rfl
        simpa using hlt
      cases hr : s.inner.repeatLast lo hi greedy with
      | error e => rw [hr] at he; cases he
      | ok k => rw [hr] at he; cases he; exact ⟨h.1.repeatLast hb hr, h.2⟩

theorem Proper.steps {s s' : Frames} {ts : List Token} (h : s.Proper) (he : s.steps ts = .ok s') :
    s'.Proper := by
  induction ts generalizing s with
  | nil => cases he; exact h
  | cons t ts ih =>
    rw [Frames.steps] at he
    cases hs : s.step t with
    | error e => rw [hs] at he; cases he
    | ok s₁ => rw [hs] at he; exact ih (h.step hs) he

end Frames

theorem proper_of_ofTokens {ts : List Token} {r : Regex} (h : ofTokens ts = .ok r) :
    r.Proper := by
  rw [ofTokens] at h
  cases hs : Frames.steps {} ts with
  | error e => rw [hs] at h; cases h
  | ok s =>
    have hp : s.Proper := Frames.Proper.steps ⟨⟨by simp, by simp⟩, by simp⟩ hs
    rw [hs] at h
    simp only [Except.bind, Frames.finish] at h
    split at h
    · cases h; exact hp.1.body
    · cases h

theorem proper_of_read {cs : List Char} {r : Regex} (h : read cs = .ok r) : r.Proper := by
  rw [read] at h
  cases ht : Token.read (readFlags cs).1 (readFlags cs).2 with
  | error e => simp only [ht] at h; cases h
  | ok ts => simp only [ht] at h; exact proper_of_ofTokens h

end Regex

namespace Matcher

variable {source : String} {f : Flags} {m : Matcher}

theorem compile_of_read {r : Regex} (h : Regex.read (f.inlineGroup ++ source.toList) = .ok r) :
    compile source f =
      if r.fits then .ok ⟨source, f, r⟩ else .error (.invalid source .treeTooDeep) := by
  rw [compile, h]

theorem read_and_fits_of_compile (h : compile source f = .ok m) :
    Regex.read (f.inlineGroup ++ source.toList) = .ok m.regex ∧ m.regex.fits = true := by
  rw [compile] at h
  split at h
  · rename_i hr
    split at h
    · rename_i hf
      cases h
      exact ⟨hr, hf⟩
    · cases h
  · cases h

theorem read_of_compile (h : compile source f = .ok m) :
    Regex.read (f.inlineGroup ++ source.toList) = .ok m.regex := (read_and_fits_of_compile h).1

/-- A text is compiled exactly if it is a regex that does not nest too deep. -/
theorem exists_compile_iff_fits : (∃ m, compile source f = .ok m) ↔
    ∃ r, Regex.read (f.inlineGroup ++ source.toList) = .ok r ∧ r.fits = true := by
  constructor
  · rintro ⟨m, h⟩
    exact ⟨_, read_and_fits_of_compile h⟩
  · rintro ⟨r, h, hf⟩
    exact ⟨_, (compile_of_read h).trans (if_pos hf)⟩

theorem proper_of_compile (h : compile source f = .ok m) : m.regex.Proper :=
  Regex.proper_of_read (read_of_compile h)

/-- Where the search does not give up, a matcher accepts the texts with a part that its regex
matches. -/
theorem accepts_iff_of_givesUp (h : compile source f = .ok m) {t : List Char}
    (hg : m.regex.givesUp t = false) : m.accepts t = true ↔ m.regex.MatchesIn t := by
  rw [accepts, hg, ← Regex.matchesIn_iff t (proper_of_compile h)]
  rfl

/-- A matcher without lookahead never gives up, and accepts the texts with a part that its regex
matches. -/
theorem accepts_iff_matches (h : compile source f = .ok m) (hl : m.regex.looksAhead = false)
    (t : List Char) :
    m.accepts t = true ↔ ∃ u w v, t = u ++ w ++ v ∧ m.regex.Matches u w v := by
  rw [← Regex.matchesIn_iff_matches]
  exact accepts_iff_of_givesUp h (by rw [Regex.givesUp, hl]; rfl)

end Matcher

namespace Regex

/-! ### Adding parts -/

theorem Frames.steps_append (s : Frames) (ts us : List Token) :
    s.steps (ts ++ us) = (s.steps ts).bind (·.steps us) := by
  induction ts generalizing s with
  | nil => rfl
  | cons t ts ih =>
    rw [List.cons_append, Frames.steps, Frames.steps]
    cases s.step t with
    | error e => rfl
    | ok s' => exact ih s'

/-- The tokens `ts` add the parts `rs` to the innermost group, wherever groups may be nested `d`
deeper. -/
def Builds (d : Nat) (ts : List Token) (rs : List Regex) : Prop :=
  ∀ s : Frames, s.outer.length + d ≤ maxDepth →
    s.steps ts = .ok (s.modify fun k => { k with parts := rs.reverse ++ k.parts })

namespace Builds

variable {d : Nat} {ts us : List Token} {rs rs' : List Regex}

theorem mono {d' : Nat} (h : Builds d ts rs) (hd : d ≤ d') : Builds d' ts rs :=
  fun s hs => h s (by omega)

theorem nil : Builds 0 [] [] := fun _ _ => rfl

theorem set (a : CharSet) : Builds 0 [.set a] [.set a] := fun _ _ => rfl

theorem edge (e : Edge) : Builds 0 [.edge e] [.edge e] := fun _ _ => rfl

theorem append (h : Builds d ts rs) (h' : Builds d us rs') : Builds d (ts ++ us) (rs ++ rs') := by
  intro s hs
  rw [Frames.steps_append, h s hs]
  -- the first tokens have left as many groups open as there were
  change Frames.steps _ us = _
  rw [h' (s.modify _) hs]
  simp [Frames.modify]

theorem times {r : Regex} (h : Builds d ts [r]) (hr : (∃ a, r = .set a) ∨ ∃ b, r = .group b)
    {lo : Nat} {hi : Option Nat} (greedy : Bool) (hb : ∀ b, hi = some b → lo ≤ b) :
    Builds d (ts ++ [.count lo hi greedy]) [.times lo hi greedy r] := by
  intro s hs
  rw [Frames.steps_append, h s hs]
  have hc : hi.any (· < lo) = false := by
    cases hi with
    | none => rfl
    | some b => simpa using hb b rfl
  rcases hr with ⟨a, rfl⟩ | ⟨b, rfl⟩ <;>
    simp [Frames.steps, Frames.step, Frames.modify, Frame.repeatLast, hc, Except.bind, Except.map]

end Builds

/-- The tokens make branches with bars between them. -/
inductive Branches (d : Nat) : List Token → List Regex → Prop
  | one {ts : List Token} {rs : List Regex} : Builds d ts rs → Branches d ts [seqs rs]
  | more {ts us : List Token} {rs bs : List Regex} :
      Builds d ts rs → Branches d us bs → Branches d (ts ++ .bar :: us) (seqs rs :: bs)

namespace Branches

variable {d : Nat} {ts : List Token} {bs : List Regex}

theorem ne_nil (h : Branches d ts bs) : bs ≠ [] := by cases h <;> simp

theorem mono {d' : Nat} (h : Branches d ts bs) (hd : d ≤ d') : Branches d' ts bs := by
  induction h with
  | one hb => exact one (hb.mono hd)
  | more hb _ ih => exact more (hb.mono hd) ih

theorem steps_close (h : Branches d ts bs) (negated : Bool) (done : List Regex) (k : Frame)
    (ks : List Frame) (hd : ks.length + 1 + d ≤ maxDepth) :
    Frames.steps ⟨{ negated, branches := done }, k :: ks⟩ (ts ++ [.close]) =
      .ok ⟨k.add (if negated then notAhead (alts (done.reverse ++ bs))
        else group (alts (done.reverse ++ bs))), ks⟩ := by
  induction h generalizing done with
  | one hb =>
    rw [Frames.steps_append, hb _ (by simpa using hd)]
    simp [Frames.steps, Frames.step, Frames.close, Frames.modify, Frame.close, Frame.body,
      Frame.branch, Except.bind]
  | more hb _ ih =>
    rename_i ts us rs bs _
    -- the bar makes a branch of the parts so far
    rw [List.append_assoc, Frames.steps_append, hb _ (by simpa using hd)]
    change Frames.steps ⟨{ negated, branches := _ :: done }, k :: ks⟩ (us ++ [.close]) = _
    rw [ih]
    simp [Frame.branch, Frames.modify]

theorem close (h : Branches d ts bs) :
    Builds (d + 1) (.openGroup :: ts ++ [.close]) [group (alts bs)] := by
  intro s hs
  have hlt : s.outer.length < maxDepth := by omega
  rw [List.cons_append, Frames.steps, Frames.step, Frames.openGroup, if_pos hlt]
  change Frames.steps ⟨{ negated := false, branches := [] }, s.inner :: s.outer⟩
    (ts ++ [.close]) = _
  rw [h.steps_close false [] s.inner s.outer (by omega)]
  rfl

theorem closeNotAhead (h : Branches d ts bs) :
    Builds (d + 1) (.openNotAhead :: ts ++ [.close]) [notAhead (alts bs)] := by
  intro s hs
  have hlt : s.outer.length < maxDepth := by omega
  rw [List.cons_append, Frames.steps, Frames.step, Frames.openGroup, if_pos hlt]
  change Frames.steps ⟨{ negated := true, branches := [] }, s.inner :: s.outer⟩ (ts ++ [.close]) = _
  rw [h.steps_close true [] s.inner s.outer (by omega)]
  rfl

end Branches

theorem ofTokens_of_builds {d : Nat} {ts : List Token} {rs : List Regex} (h : Builds d ts rs)
    (hd : d ≤ maxDepth) : ofTokens ts = .ok (seqs rs) := by
  rw [ofTokens, h {} (by simpa using hd)]
  simp [Except.bind, Frames.finish, Frames.modify, Frame.body, Frame.branch, alts]

end Regex

end PathGlob
