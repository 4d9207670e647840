import PathGlob.Lines
import PathGlob.Proofs.Path

/-!
# Paths come back from their lines

A text that lists paths, one to a line, is read back as these paths. Line ends may be written with
or without a carriage return, the last line may lack its end, and lines without a path may stand
anywhere. The text is given as bytes and decoded line by line. No character but the newline has the
byte of a newline in it, so it is the same to cut the bytes or the text, and the lines are texts
exactly if the whole is one.

* `Lines.Listable`: the paths that can be listed;
* `Lines.Lists ps t`: the text `t` lists the paths `ps`;
* `Lines.split_encode`: the lines of the bytes of a text are the bytes of its lines;
* `Lines.read_toUTF8` and `Lines.isValidUTF8_of_read`: reading line by line is reading the text;
* `Lines.ofText_of_lists` and `Lines.read_of_lists`: the paths come back from the text, and from its
  bytes;
* `Lines.read_recovers`: what is read from any bytes.
-/

namespace PathGlob

namespace Lines

/-- The path can stand on a line of its own. -/
structure Listable (p : String) : Prop where
  ne_nil : p.toList ≠ []
  noNewline : '\n' ∉ p.toList
  noReturn : p.toList.getLast? ≠ some '\r'

instance (p : String) : Decidable (Listable p) :=
  decidable_of_iff (p.toList ≠ [] ∧ '\n' ∉ p.toList ∧ p.toList.getLast? ≠ some '\r')
    ⟨fun h => ⟨h.1, h.2.1, h.2.2⟩, fun h => ⟨h.ne_nil, h.noNewline, h.noReturn⟩⟩

/-- `k` carriage returns. -/
abbrev returns (k : Nat) : List Char := List.replicate k '\r'

/-- The text lists the paths, one to a line. Up to two carriage returns may stand before the newline
of a line, and one at the end of the text. -/
inductive Lists : List String → List Char → Prop
  /-- There is no path in what is left. -/
  | done {k : Nat} (hk : k ≤ 1) : Lists [] (returns k)
  /-- The last line may lack its newline. -/
  | last (p : String) {k : Nat} (hk : k ≤ 1) : Lists [p] (p.toList ++ returns k)
  /-- A line without a path. -/
  | blank {ps : List String} {t : List Char} {k : Nat} (hk : k ≤ 2) :
      Lists ps t → Lists ps (returns k ++ '\n' :: t)
  | line (p : String) {ps : List String} {t : List Char} {k : Nat} (hk : k ≤ 2) :
      Lists ps t → Lists (p :: ps) (p.toList ++ returns k ++ '\n' :: t)

/-! ### Lines -/

section Split

variable {α : Type} [DecidableEq α] {newline : α} {l : List α}

theorem split_of_not_mem (h : newline ∉ l) : split newline l = ([], l) := by
  induction l with
  | nil => rfl
  | cons c l ih =>
    rw [List.mem_cons, not_or] at h
    obtain ⟨hc, hl⟩ := h
    simp [split, ih hl, Ne.symm hc]

theorem split_append_newline (h : newline ∉ l) (t : List α) :
    split newline (l ++ newline :: t) = (l :: (split newline t).1, (split newline t).2) := by
  induction l with
  | nil => simp [split]
  | cons c l ih =>
    rw [List.mem_cons, not_or] at h
    obtain ⟨hc, hl⟩ := h
    simp [split, ih hl, Ne.symm hc]

theorem flatMap_split (newline : α) (t : List α) :
    (split newline t).1.flatMap (· ++ [newline]) ++ (split newline t).2 = t := by
  induction t using Path.parts_induction newline with
  | last l hl => rw [split_of_not_mem hl, List.flatMap_nil, List.nil_append]
  | part l t hl ih =>
    rw [split_append_newline hl, List.flatMap_cons, List.append_assoc, ih, List.append_assoc,
      List.singleton_append]

end Split

variable {l t : List Char}

/-- The path on a line, or nothing. -/
def path? (l : List Char) : List String := if l = [] then [] else [String.ofList l]

theorem ofText_of_not_mem (h : '\n' ∉ l) : ofText l = path? (dropReturn l) := by
  simp only [ofText, paths, split_of_not_mem h, path?]
  by_cases hl : dropReturn l = [] <;> simp [hl]

theorem ofText_append_newline (h : '\n' ∉ l) (t : List Char) :
    ofText (l ++ '\n' :: t) = path? (dropReturn (dropReturn l)) ++ ofText t := by
  simp only [ofText, paths, split_append_newline h, path?]
  by_cases hl : dropReturn (dropReturn l) = [] <;> simp [hl]

/-! ### Carriage returns -/

theorem dropReturn_of_getLast? (h : l.getLast? ≠ some '\r') : dropReturn l = l := if_neg h

theorem dropReturn_append_returns (l : List Char) (k : Nat) :
    dropReturn (l ++ returns (k + 1)) = l ++ returns k := by
  have hr : l ++ returns (k + 1) = l ++ returns k ++ ['\r'] := by
    rw [returns, List.replicate_succ', List.append_assoc]
  rw [hr, dropReturn, if_pos (List.getLast?_concat ..), List.dropLast_concat]

theorem dropReturn_append (h : l.getLast? ≠ some '\r') {k : Nat} (hk : k ≤ 1) :
    dropReturn (l ++ returns k) = l := by
  rcases Nat.le_one_iff_eq_zero_or_eq_one.1 hk with rfl | rfl
  · simpa using dropReturn_of_getLast? h
  · simpa using dropReturn_append_returns l 0

/-- Two carriage returns are dropped before a newline. -/
theorem dropReturn_dropReturn_append (h : l.getLast? ≠ some '\r') {k : Nat} (hk : k ≤ 2) :
    dropReturn (dropReturn (l ++ returns k)) = l := by
  cases k with
  | zero => simp [dropReturn_of_getLast? h]
  | succ k => rw [dropReturn_append_returns, dropReturn_append h (Nat.le_of_succ_le_succ hk)]

/-! ### Reading back -/

theorem newline_not_mem_append (h : '\n' ∉ l) (k : Nat) : '\n' ∉ l ++ returns k := by
  simp [h, List.mem_replicate]

theorem ofText_last (h : '\n' ∉ l) (hr : l.getLast? ≠ some '\r') {k : Nat} (hk : k ≤ 1) :
    ofText (l ++ returns k) = path? l := by
  rw [ofText_of_not_mem (newline_not_mem_append h k), dropReturn_append hr hk]

theorem ofText_line (h : '\n' ∉ l) (hr : l.getLast? ≠ some '\r') {k : Nat} (hk : k ≤ 2)
    (t : List Char) : ofText (l ++ returns k ++ '\n' :: t) = path? l ++ ofText t := by
  rw [ofText_append_newline (newline_not_mem_append h k), dropReturn_dropReturn_append hr hk]

theorem path?_toList {p : String} (h : Listable p) : path? p.toList = [p] := by
  rw [path?, if_neg h.ne_nil, String.ofList_toList]

/-- **Listed paths come back from the text.** -/
theorem ofText_of_lists {ps : List String} (h : Lists ps t) (hp : ∀ p ∈ ps, Listable p) :
    ofText t = ps := by
  -- a line without a path is one with the empty text on it
  have hnil : '\n' ∉ ([] : List Char) := by simp
  have hnil' : ([] : List Char).getLast? ≠ some '\r' := by simp
  induction h with
  | done hk => exact ofText_last hnil hnil' hk
  | last p hk =>
    have hp := hp p List.mem_cons_self
    rw [ofText_last hp.noNewline hp.noReturn hk, path?_toList hp]
  | blank hk _ ih => exact (ofText_line hnil hnil' hk _).trans (ih hp)
  | line p hk _ ih =>
    obtain ⟨hp, hps⟩ := List.forall_mem_cons.1 hp
    rw [ofText_line hp.noNewline hp.noReturn hk, path?_toList hp, ih hps, List.singleton_append]

/-! ### Bytes -/

/-- The bytes of a text. -/
def encode (t : List Char) : List UInt8 := t.flatMap String.utf8EncodeChar

theorem encode_append (t u : List Char) : encode (t ++ u) = encode t ++ encode u :=
  List.flatMap_append

theorem encode_newline : encode ['\n'] = ['\n'.toUInt8] := by decide

theorem encode_lines (ts : List (List Char)) :
    encode (ts.flatMap (· ++ ['\n'])) = (ts.map encode).flatMap (· ++ ['\n'.toUInt8]) := by
  induction ts with
  | nil => rfl
  | cons t ts ih =>
    rw [List.flatMap_cons, encode_append, encode_append, ih, encode_newline, List.map_cons,
      List.flatMap_cons]

/-- **No other character has the byte of a newline in it.** -/
theorem newline_not_mem_utf8EncodeChar {c : Char} (h : c ≠ '\n') :
    '\n'.toUInt8 ∉ String.utf8EncodeChar c := by
  have hval : c.val.toNat ≠ 10 := fun hc => h (Char.ext (UInt32.toNat_inj.1 hc))
  have hbyte : ∀ {n : Nat}, n % 256 ≠ 10 → '\n'.toUInt8 ≠ UInt8.ofNat n := by
    intro n hn h
    have := congrArg UInt8.toNat h
    rw [UInt8.toNat_ofNat'] at this
    exact hn this.symm
  -- a byte of a longer encoding is at least 128
  fun_cases String.utf8EncodeChar c <;>
    simp only [List.mem_cons, List.not_mem_nil, or_false, not_or]
  · exact hbyte (by omega)
  · exact ⟨hbyte (by omega), hbyte (by omega)⟩
  · exact ⟨hbyte (by omega), hbyte (by omega), hbyte (by omega)⟩
  · exact ⟨hbyte (by omega), hbyte (by omega), hbyte (by omega), hbyte (by omega)⟩

theorem newline_not_mem_encode (h : '\n' ∉ l) : '\n'.toUInt8 ∉ encode l := by
  rw [encode, List.mem_flatMap]
  rintro ⟨c, hc, hmem⟩
  exact newline_not_mem_utf8EncodeChar (fun he => h (he ▸ hc)) hmem

/-- **The lines of the bytes of a text are the bytes of its lines.** -/
theorem split_encode (t : List Char) : split '\n'.toUInt8 (encode t) =
    ((split '\n' t).1.map encode, encode (split '\n' t).2) := by
  induction t using Path.parts_induction '\n' with
  | last l hl =>
    rw [split_of_not_mem hl, split_of_not_mem (newline_not_mem_encode hl), List.map_nil]
  | part l t hl ih =>
    have hcons : encode ('\n' :: t) = '\n'.toUInt8 :: encode t := by
      rw [← List.singleton_append, encode_append, encode_newline, List.singleton_append]
    rw [encode_append, hcons, split_append_newline (newline_not_mem_encode hl), ih,
      split_append_newline hl, List.map_cons]

/-! ### Decoding -/

theorem toUTF8_eq_encode (t : String) : t.toUTF8.data.toList = encode t.toList := by
  rw [String.toUTF8_eq_toByteArray, ← String.utf8Encode_toList, List.utf8Encode,
    List.toList_data_toByteArray]
  rfl

theorem fromUTF8?_toUTF8 (t : String) : String.fromUTF8? t.toUTF8 = some t := by
  rw [String.toUTF8_eq_toByteArray, String.fromUTF8?, dif_pos t.isValidUTF8]
  rfl

theorem decode_encode (t : List Char) : decode (encode t) = .ok t := by
  have hbytes : (encode t).toByteArray = (String.ofList t).toUTF8 := by
    rw [String.toUTF8_eq_toByteArray, String.toByteArray_ofList]
    rfl
  rw [decode, hbytes, fromUTF8?_toUTF8]
  exact congrArg Except.ok String.toList_ofList

theorem decode_cases (line : List UInt8) :
    (∃ t, line = encode t) ∨ decode line = .error .notText := by
  by_cases hv : line.toByteArray.IsValidUTF8
  · refine .inl ⟨(String.ofByteArray line.toByteArray hv).toList, ?_⟩
    rw [← toUTF8_eq_encode]
    exact List.toList_data_toByteArray.symm
  · refine .inr ?_
    rw [decode, String.fromUTF8?, dif_neg hv]

theorem mapM_decode_encode (ts : List (List Char)) : (ts.map encode).mapM decode = .ok ts := by
  induction ts with
  | nil => rfl
  | cons t ts ih =>
    rw [List.map_cons, List.mapM_cons, decode_encode, ih]
    rfl

theorem mapM_decode_cases (ls : List (List UInt8)) :
    (∃ ts : List (List Char), ls = ts.map encode) ∨ ls.mapM decode = .error .notText := by
  induction ls with
  | nil => exact .inl ⟨[], rfl⟩
  | cons l ls ih =>
    rw [List.mapM_cons]
    obtain ⟨t, rfl⟩ | hl := decode_cases l
    · obtain ⟨ts, rfl⟩ | hls := ih
      · exact .inl ⟨t :: ts, rfl⟩
      · rw [decode_encode, hls]
        exact .inr rfl
    · rw [hl]
      exact .inr rfl

/-- **Reading line by line is reading the text.** -/
theorem read_toUTF8 (t : String) : read t.toUTF8 =
    match ofText t.toList with
    | [] => .error .noPaths
    | ps => .ok ps := by
  rw [read, toUTF8_eq_encode, split_encode]
  simp only [mapM_decode_encode, decode_encode]
  rfl

theorem isValidUTF8_of_encode {bytes : ByteArray} (h : bytes.data.toList = encode t) :
    bytes.IsValidUTF8 := by
  refine ⟨t, ByteArray.ext (Array.toList_inj.1 ?_)⟩
  rw [h, List.utf8Encode, List.toList_data_toByteArray]
  rfl

/-- **Bytes whose lines are texts are a text.** -/
theorem isValidUTF8_of_read {bytes : ByteArray} (h : read bytes ≠ .error .notText) :
    bytes.IsValidUTF8 := by
  have hbytes := flatMap_split '\n'.toUInt8 bytes.data.toList
  rw [read] at h
  generalize split '\n'.toUInt8 bytes.data.toList = lines at h hbytes
  obtain ⟨ls, rest⟩ := lines
  obtain ⟨ts, rfl⟩ | hls := mapM_decode_cases ls
  · obtain ⟨r, rfl⟩ | hrest := decode_cases rest
    · refine isValidUTF8_of_encode (t := ts.flatMap (· ++ ['\n']) ++ r) (hbytes.symm.trans ?_)
      rw [encode_append, encode_lines]
    · simp only [mapM_decode_encode, hrest] at h
      exact absurd rfl h
  · simp only [hls] at h
    exact absurd rfl h

/-! ### Lines without a path -/

theorem eq_returns_of_dropReturn {k : Nat} (h : dropReturn l = returns k) :
    ∃ j ≤ k + 1, l = returns j := by
  by_cases hr : l.getLast? = some '\r'
  · rw [dropReturn, if_pos hr] at h
    obtain ⟨l, rfl⟩ := List.getLast?_eq_some_iff.1 hr
    rw [List.dropLast_concat] at h
    exact ⟨k + 1, Nat.le_refl _, by rw [h, ← List.replicate_succ']⟩
  · rw [dropReturn_of_getLast? hr] at h
    exact ⟨k, Nat.le_succ k, h⟩

theorem path?_eq_nil_iff : path? l = [] ↔ l = [] := by
  rw [path?]
  split <;> simp_all

/-- **A text without paths** consists of lines without a path. -/
theorem ofText_eq_nil_iff : ofText t = [] ↔ Lists [] t := by
  refine ⟨fun h => ?_, fun h => ofText_of_lists h (by simp)⟩
  induction t using Path.parts_induction '\n' with
  | last l hl =>
    rw [ofText_of_not_mem hl, path?_eq_nil_iff] at h
    obtain ⟨k, hk, rfl⟩ := eq_returns_of_dropReturn (k := 0) h
    exact .done hk
  | part l t hl ih =>
    rw [ofText_append_newline hl, List.append_eq_nil_iff, path?_eq_nil_iff] at h
    obtain ⟨j, hj, h₁⟩ := eq_returns_of_dropReturn (k := 0) h.1
    obtain ⟨k, hk, rfl⟩ := eq_returns_of_dropReturn h₁
    exact .blank (by omega) (ih h.2)

theorem not_mem_dropReturn {c : Char} (h : c ∉ l) : c ∉ dropReturn l := by
  rw [dropReturn]
  split
  · exact fun hc => h (List.dropLast_subset l hc)
  · exact h

theorem of_mem_path? {p : String} (h : '\n' ∉ l) (hp : p ∈ path? l) :
    p.toList ≠ [] ∧ '\n' ∉ p.toList := by
  rw [path?] at hp
  split at hp
  · cases hp
  · rename_i hne
    obtain rfl := List.mem_singleton.1 hp
    rw [String.toList_ofList]
    exact ⟨hne, h⟩

/-- A path that is read is not empty and has no newline in it. -/
theorem of_mem_ofText {p : String} (hp : p ∈ ofText t) : p.toList ≠ [] ∧ '\n' ∉ p.toList := by
  induction t using Path.parts_induction '\n' with
  | last l hl =>
    rw [ofText_of_not_mem hl] at hp
    exact of_mem_path? (not_mem_dropReturn hl) hp
  | part l t hl ih =>
    rw [ofText_append_newline hl, List.mem_append] at hp
    rcases hp with hp | hp
    · exact of_mem_path? (not_mem_dropReturn (not_mem_dropReturn hl)) hp
    · exact ih hp

/-! ### Whole inputs -/

/-- **Listed paths come back from the bytes of the text.** -/
theorem read_of_lists {ps : List String} {t : String} (h : Lists ps t.toList)
    (hp : ∀ p ∈ ps, Listable p) (hne : ps ≠ []) : read t.toUTF8 = .ok ps := by
  obtain ⟨p, ps, rfl⟩ := List.exists_cons_of_ne_nil hne
  simp only [read_toUTF8, ofText_of_lists h hp]

section Bytes

variable {bytes : ByteArray}

theorem exists_toUTF8 (h : bytes.IsValidUTF8) : ∃ t : String, bytes = t.toUTF8 :=
  ⟨.ofByteArray bytes h, rfl⟩

theorem read_eq_notText_iff : read bytes = .error .notText ↔ ¬bytes.IsValidUTF8 := by
  constructor
  · intro h hv
    obtain ⟨t, rfl⟩ := exists_toUTF8 hv
    rw [read_toUTF8] at h
    split at h <;> cases h
  · intro hv
    by_contra h
    exact hv (isValidUTF8_of_read h)

theorem read_eq_noPaths_iff :
    read bytes = .error .noPaths ↔ ∃ t : String, bytes = t.toUTF8 ∧ Lists [] t.toList := by
  constructor
  · intro h
    have hv : bytes.IsValidUTF8 := isValidUTF8_of_read (by simp [h])
    obtain ⟨t, rfl⟩ := exists_toUTF8 hv
    refine ⟨t, rfl, ofText_eq_nil_iff.1 ?_⟩
    rw [read_toUTF8] at h
    split at h
    · assumption
    · cases h
  · rintro ⟨t, rfl, h⟩
    rw [read_toUTF8, ofText_eq_nil_iff.2 h]

theorem of_mem_read {ps : List String} (h : read bytes = .ok ps) :
    ps ≠ [] ∧ ∀ p ∈ ps, p.toList ≠ [] ∧ '\n' ∉ p.toList := by
  have hv : bytes.IsValidUTF8 := isValidUTF8_of_read (by simp [h])
  obtain ⟨t, rfl⟩ := exists_toUTF8 hv
  rw [read_toUTF8] at h
  split at h
  · cases h
  · rename_i hne
    obtain rfl := Except.ok.inj h
    exact ⟨hne, fun p hp => of_mem_ofText hp⟩

end Bytes

/-- **What is read from bytes.** It is an error if the bytes are no text, and another one if they
are a text that lists nothing; otherwise there are paths, and each of them could be on a line. And
the paths that a text lists are read from its bytes. -/
theorem read_recovers :
    (∀ bytes : ByteArray,
      (read bytes = .error .notText ↔ ¬bytes.IsValidUTF8) ∧
      (read bytes = .error .noPaths ↔ ∃ t : String, bytes = t.toUTF8 ∧ Lists [] t.toList) ∧
      (bytes.IsValidUTF8 → (¬∃ t : String, bytes = t.toUTF8 ∧ Lists [] t.toList) →
        ∃ ps, read bytes = .ok ps ∧ ps ≠ [] ∧ ∀ p ∈ ps, p.toList ≠ [] ∧ '\n' ∉ p.toList)) ∧
    ∀ (ps : List String) (t : String), ps ≠ [] → (∀ p ∈ ps, Listable p) → Lists ps t.toList →
      read t.toUTF8 = .ok ps := by
  refine ⟨fun bytes => ⟨read_eq_notText_iff, read_eq_noPaths_iff, fun hv hblank => ?_⟩,
    fun ps t hne hp h => read_of_lists h hp hne⟩
  cases h : read bytes with
  | error e =>
    cases e with
    | notText => exact absurd hv (read_eq_notText_iff.1 h)
    | noPaths => exact absurd (read_eq_noPaths_iff.1 h) hblank
  | ok ps => exact ⟨ps, rfl, of_mem_read h⟩

/-- Two paths, with a blank line between them and different line ends. -/
theorem read_recovers_blank : read "é\r\r\n\r\nb\r".toUTF8 = .ok ["é", "b"] := by
  have ht : Lists ["é", "b"] "é\r\r\n\r\nb\r".toList :=
    .line "é" (k := 2) (by decide) (.blank (k := 1) (by decide) (.last "b" (k := 1) (by decide)))
  exact read_recovers.2 ["é", "b"] _ (by decide) (by decide) ht

end Lines

end PathGlob
