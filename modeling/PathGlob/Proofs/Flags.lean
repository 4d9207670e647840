import PathGlob.Flags
import Mathlib.Data.List.Nodup
import Mathlib.Data.List.Induction
import Mathlib.Data.Set.List

/-!
# Reading flags

Flags are read from their letters in any order and written in a fixed one. The reading takes in one
letter after the other and stops at the first that is no flag or that has been taken in before.

* `Flags.ofString_text`: the letters of flags are read in any order;
* `Flags.Readable`: letters that are taken in, and `Flags.Stops`: why the reading stops at a letter;
* `Flags.readable_or_stops`: all letters are taken in, or the reading stops at one of them;
* `Flags.ofString_reads`: the set that is read, and the error where none is.
-/

namespace PathGlob

/-! ### Letters -/

namespace Flag

/-- The letters of the flags, in the order in which a set of them is written. -/
def letters : List Char := "gimsu".toList

theorem letters_eq_map : letters = all.map letter := by decide

theorem letter_injective : Function.Injective letter := by
  intro f g h
  have hg := ofLetter?_letter g
  rw [← h, ofLetter?_letter] at hg
  exact Option.some.inj hg

theorem mem_letters_iff {c : Char} : c ∈ letters ↔ ∃ f : Flag, f.letter = c := by
  rw [letters_eq_map, List.mem_map]
  exact ⟨fun ⟨f, _, h⟩ => ⟨f, h⟩, fun ⟨f, h⟩ => ⟨f, mem_all f, h⟩⟩

theorem ofLetter?_eq_none {c : Char} (h : c ∉ letters) : ofLetter? c = none := by
  rw [Option.eq_none_iff_forall_ne_some]
  intro f hf
  exact h (mem_letters_iff.2 ⟨f, ofLetter?_eq_some_iff.1 hf⟩)

end Flag

namespace Flags

/-! ### Sets of flags -/

/-- The set of the given flags. -/
def ofList (fs : List Flag) : Flags := fs.foldl (fun s f => s.set f true) {}

/-- The letters of flags, in the order in which they are given. -/
def text (fs : List Flag) : String := String.ofList (fs.map Flag.letter)

theorem has_foldl_set (fs : List Flag) (s : Flags) (f : Flag) :
    (fs.foldl (fun s f => s.set f true) s).has f = true ↔ s.has f = true ∨ f ∈ fs := by
  induction fs generalizing s with
  | nil => simp
  | cons g fs ih =>
    rw [List.foldl_cons, ih, has_set, List.mem_cons]
    by_cases hg : f = g <;> simp [hg]

theorem has_ofList {fs : List Flag} {f : Flag} : (ofList fs).has f = true ↔ f ∈ fs := by
  have hempty : ({} : Flags).has f = false := by cases f <;> rfl
  rw [ofList, has_foldl_set, hempty]
  simp

theorem addLetters_map_letter {fs : List Flag} (h : fs.Nodup) {s : Flags}
    (hs : ∀ f ∈ fs, s.has f = false) :
    s.addLetters (fs.map Flag.letter) = .ok (fs.foldl (fun s f => s.set f true) s) := by
  induction fs generalizing s with
  | nil => rfl
  | cons f fs ih =>
    obtain ⟨hf, hfs⟩ := List.nodup_cons.1 h
    obtain ⟨hs₀, hs₁⟩ := List.forall_mem_cons.1 hs
    have hset : ∀ g ∈ fs, (s.set f true).has g = false := by
      intro g hg
      have hne : g ≠ f := fun he => hf (he ▸ hg)
      rw [has_set, if_neg hne, hs₁ g hg]
    rw [List.map_cons, addLetters, Flag.ofLetter?_letter]
    simp only [hs₀, Bool.false_eq_true, ↓reduceIte]
    exact ih hfs hset

/-- **Letters in any order** are read as the set of their flags, if none is repeated. -/
theorem ofString_text {fs : List Flag} (h : fs.Nodup) : ofString (text fs) = .ok (ofList fs) := by
  rw [ofString, text, String.toList_ofList]
  exact addLetters_map_letter h fun f _ => by cases f <;> rfl

theorem ofList_eq {fs : List Flag} {s : Flags} (h : ∀ f, f ∈ fs ↔ s.has f = true) :
    ofList fs = s := by
  ext f
  rw [Bool.eq_iff_iff, has_ofList, h]

theorem mem_toList {s : Flags} {f : Flag} : f ∈ s.toList ↔ s.has f = true := by
  rw [toList, List.mem_filter]
  exact ⟨And.right, fun h => ⟨Flag.mem_all f, h⟩⟩

theorem nodup_toList (s : Flags) : s.toList.Nodup := List.Nodup.filter _ (by decide)

theorem ofString_toString (s : Flags) : ofString s.toString = .ok s := by
  have hs : ofList s.toList = s := ofList_eq fun _ => mem_toList
  exact (ofString_text s.nodup_toList).trans (congrArg _ hs)

/-! ### Reading letters one by one -/

/-- Letters of flags, none of them twice. -/
structure Readable (cs : List Char) : Prop where
  known : cs ⊆ Flag.letters
  nodup : cs.Nodup

/-- The reading stops at the letter `c`, after the letters `before`, with an error. -/
inductive Stops (before : List Char) (c : Char) : FlagError → Prop
  | unknown (h : c ∉ Flag.letters) : Stops before c (.unknown c)
  | duplicate (h : c ∈ before) : Stops before c (.duplicate c)

variable {cs ds before after : List Char} {c : Char} {e : FlagError} {t : Flags}

theorem Readable.perm (h : Readable cs) (hp : ds.Perm cs) : Readable ds :=
  ⟨List.Subset.trans hp.subset h.known, hp.nodup_iff.2 h.nodup⟩

/-- **All letters can be taken in, or there is a first at which the reading stops.** -/
theorem readable_or_stops (cs : List Char) : Readable cs ∨
    ∃ before c after e, cs = before ++ c :: after ∧ Readable before ∧ Stops before c e := by
  induction cs using List.reverseRecOn with
  | nil => exact .inl ⟨by simp, .nil⟩
  | append_singleton cs c ih =>
    rcases ih with h | ⟨before, d, after, e, rfl, hb, hd⟩
    · by_cases hc : c ∈ Flag.letters
      · by_cases hmem : c ∈ cs
        · exact .inr ⟨cs, c, [], _, rfl, h, .duplicate hmem⟩
        · refine .inl ⟨?_, List.nodup_append.2 ⟨h.nodup, List.nodup_singleton c, ?_⟩⟩
          · exact List.append_subset.2 ⟨h.known, by simpa using hc⟩
          · rintro a ha _ hb rfl
            exact hmem (List.mem_singleton.1 hb ▸ ha)
      · exact .inr ⟨cs, c, [], _, rfl, h, .unknown hc⟩
    · exact .inr ⟨before, d, after ++ [c], e, by simp, hb, hd⟩

theorem addLetters_append (s : Flags) (cs ds : List Char) :
    s.addLetters (cs ++ ds) = (s.addLetters cs).bind fun t => t.addLetters ds := by
  induction cs generalizing s with
  | nil => rfl
  | cons c cs ih =>
    rw [List.cons_append, addLetters, addLetters]
    split
    · rfl
    · split
      · rfl
      · exact ih _

theorem Readable.exists_ofLetters (h : Readable cs) :
    ∃ t, ofLetters cs = .ok t ∧ ∀ f, t.has f = true ↔ f.letter ∈ cs := by
  obtain ⟨fs, rfl⟩ : cs ∈ Set.range (List.map Flag.letter) := by
    rw [Set.range_list_map]
    exact fun c hc => Flag.mem_letters_iff.1 (h.known hc)
  refine ⟨ofList fs, addLetters_map_letter (h.nodup.of_map _) fun f _ => by cases f <;> rfl, ?_⟩
  intro f
  rw [has_ofList, List.mem_map_of_injective Flag.letter_injective]

/-- The reading stops at the first letter that cannot be taken in. -/
theorem Stops.ofLetters_eq (h : Stops before c e) (hb : Readable before) :
    ofLetters (before ++ c :: after) = .error e := by
  obtain ⟨t, ht, hhas⟩ := hb.exists_ofLetters
  have hrest : ofLetters (before ++ c :: after) = t.addLetters (c :: after) := by
    rw [ofLetters, addLetters_append, ← ofLetters, ht]
    rfl
  rw [hrest, addLetters]
  cases h with
  | unknown h => rw [Flag.ofLetter?_eq_none h]
  | duplicate h =>
    obtain ⟨f, rfl⟩ := Flag.mem_letters_iff.1 (hb.known h)
    rw [Flag.ofLetter?_letter]
    exact if_pos ((hhas f).2 h)

/-- **Letters are read as a set exactly if all of them can be taken in.** -/
theorem exists_ofLetters_iff : (∃ t, ofLetters cs = .ok t) ↔ Readable cs := by
  constructor
  · rintro ⟨t, ht⟩
    rcases readable_or_stops cs with h | ⟨before, c, after, e, rfl, hb, he⟩
    · exact h
    · rw [he.ofLetters_eq hb] at ht
      cases ht
  · intro h
    obtain ⟨t, ht, -⟩ := h.exists_ofLetters
    exact ⟨t, ht⟩

/-- **The error of letters that are not read** is that of the first that cannot be taken in. -/
theorem ofLetters_eq_error_iff : ofLetters cs = .error e ↔
    ∃ before c after, cs = before ++ c :: after ∧ Readable before ∧ Stops before c e := by
  constructor
  · intro h
    rcases readable_or_stops cs with hr | ⟨before, c, after, e', rfl, hb, he⟩
    · obtain ⟨t, ht⟩ := exists_ofLetters_iff.2 hr
      rw [ht] at h
      cases h
    · rw [he.ofLetters_eq hb] at h
      cases h
      exact ⟨before, c, after, rfl, hb, he⟩
  · rintro ⟨before, c, after, rfl, hb, he⟩
    exact he.ofLetters_eq hb

theorem has_of_ofLetters (h : ofLetters cs = .ok t) (f : Flag) :
    t.has f = true ↔ f.letter ∈ cs := by
  obtain ⟨t', ht', hhas⟩ := (exists_ofLetters_iff.1 ⟨t, h⟩).exists_ofLetters
  rw [h] at ht'
  cases ht'
  exact hhas f

/-- **The order of the letters does not matter.** -/
theorem ofLetters_perm (h : ofLetters cs = .ok t) (hp : ds.Perm cs) : ofLetters ds = .ok t := by
  have hr : Readable ds := (exists_ofLetters_iff.1 ⟨t, h⟩).perm hp
  obtain ⟨t', ht', hhas⟩ := hr.exists_ofLetters
  have hsame : t' = t := by
    ext f
    rw [Bool.eq_iff_iff, hhas, has_of_ofLetters h, hp.mem_iff]
  rw [ht', hsame]

theorem letters_of_ofLetters (h : ofLetters cs = .ok t) :
    t.letters = Flag.letters.filter fun c => c ∈ cs := by
  rw [letters, toList, Flag.letters_eq_map, List.filter_map]
  congr 1
  refine List.filter_congr fun f _ => ?_
  rw [Bool.eq_iff_iff, has_of_ofLetters h, Function.comp_apply, decide_eq_true_iff]

/-- **Reading flags.** A string is read exactly if it consists of letters of flags and repeats none.
The set that is read has the flags of its letters, whatever their order; it is written with these
letters in the fixed order, and read back from there. Otherwise the error names the first letter
that is no flag or that has occurred before. -/
theorem ofString_reads (s : String) :
    ((∃ t, ofString s = .ok t) ↔ Readable s.toList) ∧
    (∀ t, ofString s = .ok t →
      (∀ f, t.has f = true ↔ f.letter ∈ s.toList) ∧
      (∀ s' : String, s'.toList.Perm s.toList → ofString s' = .ok t) ∧
      t.toString.toList = Flag.letters.filter (fun c => c ∈ s.toList) ∧
      ofString t.toString = .ok t) ∧
    ∀ e, ofString s = .error e ↔ ∃ before c after,
      s.toList = before ++ c :: after ∧ Readable before ∧ Stops before c e := by
  refine ⟨exists_ofLetters_iff, fun t ht => ⟨?_, ?_, ?_, ?_⟩, fun e => ofLetters_eq_error_iff⟩
  · exact has_of_ofLetters ht
  · exact fun s' hp => ofLetters_perm ht hp
  · rw [toString, String.toList_ofList, letters_of_ofLetters ht]
  · exact ofString_toString t

/-- `sig` is read as `gis` is, and the reading of `sigsx` stops at the second `s`. -/
theorem ofString_reads_any_order :
    ∃ t, ofString "sig" = .ok t ∧ ofString "gis" = .ok t ∧ t.toString = "gis" ∧
      ofString "sigsx" = .error (.duplicate 's') := by
  have hread : ∃ t, ofString "sig" = .ok t :=
    (ofString_reads "sig").1.2 ⟨by decide, by decide⟩
  obtain ⟨t, ht⟩ := hread
  obtain ⟨-, hperm, hwrite, -⟩ := (ofString_reads "sig").2.1 t ht
  refine ⟨t, ht, hperm "gis" (by decide), ?_, ?_⟩
  · exact String.toList_injective (hwrite.trans (by decide))
  · exact ((ofString_reads "sigsx").2.2 _).2
      ⟨['s', 'i', 'g'], 's', ['x'], by decide, ⟨by decide, by decide⟩, .duplicate (by decide)⟩

end Flags

end PathGlob
