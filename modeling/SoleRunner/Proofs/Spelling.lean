import Mathlib.Logic.Basic
import SoleRunner.Log.Logger

/-!
# Proofs/Spelling — which values of a variable are understood

A value is compared as a `Text.word`: without the blanks around it and in small letters.  For a word that
has no blank inside, that is to say that the value spells the word (`Text.Spells`), with any blanks before
and after it and in any case.  So the environment gives a level if a value spells its name or its number,
and switches a setting on if a value spells one of four words.

The blanks, the words for each level and the values of a variable are said here once more, one by one
(`Text.blanks`, `Level.words`, `Environment.Says`), so that `Settings.GivenBy` can be read by itself.
-/

namespace SoleRunner

namespace Text

variable {c : Char} {cs before core after : List Char} {value word : String}

/-! ## Words -/

/-- The numbers of the characters with the property `White_Space`. -/
def blanks : List Nat :=
  [0x9, 0xA, 0xB, 0xC, 0xD, 0x20, 0x85, 0xA0, 0x1680, 0x2000, 0x2001, 0x2002, 0x2003, 0x2004, 0x2005,
    0x2006, 0x2007, 0x2008, 0x2009, 0x200A, 0x2028, 0x2029, 0x202F, 0x205F, 0x3000]

theorem isBlank_iff : isBlank c ↔ c.toNat ∈ blanks := by
  simp only [isBlank, blanks, Bool.or_eq_true, Bool.and_eq_true, decide_eq_true_eq, beq_iff_eq,
    UInt32.le_iff_toNat_le, ← UInt32.toNat_inj, List.mem_cons, List.not_mem_nil, or_false]
  change _ ↔ c.val.toNat = _ ∨ _
  simp
  omega

/-- **`value` spells `word`**, with any blanks around it and in any case. -/
def Spells (value word : String) : Prop :=
  ∃ before core after, value.toList = before ++ core ++ after ∧
    (∀ c ∈ before, c.toNat ∈ blanks) ∧ (∀ c ∈ after, c.toNat ∈ blanks) ∧
    core.map Char.toLower = word.toList

/-- No blank is a capital letter. -/
theorem toLower_of_isBlank (h : isBlank c) : c.toLower = c := by
  have hcase : ¬ ('A'.val ≤ c.val ∧ c.val ≤ 'Z'.val) := by
    rintro ⟨hA, hZ⟩
    simp only [isBlank, Bool.or_eq_true, Bool.and_eq_true, decide_eq_true_eq, beq_iff_eq,
      UInt32.le_iff_toNat_le, ← UInt32.toNat_inj] at h hA hZ
    simp at h hA hZ
    omega
  exact dif_neg hcase

/-- Blanks around a word that has none are dropped. -/
theorem trimBlanks_of_blanks (hbefore : ∀ c ∈ before, isBlank c) (hafter : ∀ c ∈ after, isBlank c)
    (hcore : ∀ c ∈ core, isBlank c = false) : trimBlanks (before ++ core ++ after) = core := by
  have hfront : (before ++ core ++ after).dropWhile isBlank = (core ++ after).dropWhile isBlank := by
    rw [List.append_assoc, List.dropWhile_append_of_pos hbefore]
  have hback : (after.reverse ++ core.reverse).dropWhile isBlank = core.reverse.dropWhile isBlank :=
    List.dropWhile_append_of_pos fun c hc => hafter c (List.mem_reverse.mp hc)
  have hsolid {cs : List Char} (h : ∀ c ∈ cs, isBlank c = false) : cs.dropWhile isBlank = cs := by
    cases cs with
    | nil => rfl
    | cons d ds => exact List.dropWhile_cons_of_neg (by simp [h d])
  rw [trimBlanks, hfront]
  cases core with
  | nil =>
    rw [List.nil_append, ← List.append_nil after, List.dropWhile_append_of_pos hafter]
    rfl
  | cons d ds =>
    have hd : ¬ isBlank d = true := by simp [hcore d]
    rw [List.cons_append, List.dropWhile_cons_of_neg hd, ← List.cons_append, List.reverse_append, hback,
      hsolid fun c hc => hcore c (List.mem_reverse.mp hc), List.reverse_reverse]

/-- What is dropped are blanks. -/
theorem exists_blanks (cs : List Char) : ∃ before after, cs = before ++ trimBlanks cs ++ after ∧
    (∀ c ∈ before, isBlank c) ∧ ∀ c ∈ after, isBlank c := by
  have hblank {cs : List Char} {c : Char} (hc : c ∈ cs.takeWhile isBlank) : isBlank c :=
    List.all_eq_true.mp List.all_takeWhile c hc
  let rest := (cs.dropWhile isBlank).reverse
  refine ⟨cs.takeWhile isBlank, (rest.takeWhile isBlank).reverse, ?_, fun c hc => hblank hc,
    fun c hc => hblank (List.mem_reverse.mp hc)⟩
  rw [trimBlanks, List.append_assoc, ← List.reverse_append, List.takeWhile_append_dropWhile,
    List.reverse_reverse, List.takeWhile_append_dropWhile]

theorem toList_word (value : String) :
    (Text.word value).toList = (trimBlanks value.toList).map Char.toLower := by
  have hsmall : Text.word value = (trim value).map Char.toLower := rfl
  rw [hsmall, String.toList_map, trim, String.toList_ofList]

/-- **A value is the word that it spells.** -/
theorem word_eq_iff (hword : word.toList.any isBlank = false) :
    Text.word value = word ↔ Spells value word := by
  rw [String.ext_iff, toList_word]
  constructor
  · intro h
    obtain ⟨before, after, hvalue, hbefore, hafter⟩ := exists_blanks value.toList
    exact ⟨before, _, after, hvalue, fun c hc => isBlank_iff.mp (hbefore c hc),
      fun c hc => isBlank_iff.mp (hafter c hc), h⟩
  · rintro ⟨before, core, after, hvalue, hbefore, hafter, hcore⟩
    rw [hvalue, trimBlanks_of_blanks (fun c hc => isBlank_iff.mpr (hbefore c hc))
      (fun c hc => isBlank_iff.mpr (hafter c hc)) fun c hc => ?_, hcore]
    refine Bool.not_eq_true _ ▸ fun hblank => ?_
    have hmem : c.toLower ∈ word.toList := hcore ▸ List.mem_map_of_mem hc
    rw [toLower_of_isBlank hblank] at hmem
    exact List.any_eq_false.mp hword _ hmem hblank

end Text

/-! ## Levels and switches -/

namespace Log.Level

variable {l l' : Level} {value : String}

/-- The words for a level: its name and its number. -/
def words : Level → List String
  | off => ["off", "0"]
  | error => ["error", "1"]
  | warn => ["warn", "2"]
  | info => ["info", "3"]
  | debug => ["debug", "4"]
  | trace => ["trace", "5"]

/-- **`value` spells the level**, by its name or its number. -/
def IsSpelled (l : Level) (value : String) : Prop := ∃ word ∈ l.words, Text.Spells value word

theorem words_eq (l : Level) : l.words = [l.name, toString l.number] := by cases l <;> rfl

theorem isSpelled_iff : l.IsSpelled value ↔
    Text.word value = l.name ∨ Text.word value = toString l.number := by
  simp only [IsSpelled, words_eq, List.mem_cons, List.not_mem_nil, or_false, exists_eq_or_imp,
    exists_eq_left]
  rw [Text.word_eq_iff (by cases l <;> rfl), Text.word_eq_iff (by cases l <;> rfl)]

/-- **A value is understood as the level that it spells.** -/
theorem parse?_eq_some_iff : parse? value = some l ↔ l.IsSpelled value := by
  rw [isSpelled_iff]
  constructor
  · intro h
    have hfound := List.find?_some h
    simpa using hfound
  · rintro (h | h) <;> rw [parse?, h] <;> cases l <;> rfl

/-- A value is not understood if it spells no level. -/
theorem parse?_eq_none_iff : parse? value = none ↔ ∀ l : Level, ¬ l.IsSpelled value := by
  simp only [← parse?_eq_some_iff, Option.eq_none_iff_forall_ne_some, ne_eq]

end Log.Level

namespace Environment

variable {env : Environment} {key value : String}

/-- **The variable `key` says `value`**: it is set, to the bytes of this text. -/
def Says (env : Environment) (key value : String) : Prop :=
  ∃ bytes, env.entries.lookup key = some bytes ∧ String.fromUTF8? bytes = some value

theorem says_iff : env.Says key value ↔ env.text? key = some value := Option.bind_eq_some_iff.symm

/-- **A setting is switched on** by a value that spells one of the affirmatives. -/
theorem switch_eq_true_iff (env : Environment) (key : String) : env.switch key false = true ↔
    ∃ value, env.Says key value ∧ ∃ word ∈ ["1", "true", "yes", "on"], Text.Spells value word := by
  have hword : ∀ word ∈ affirmatives, word.toList.any Text.isBlank = false := by decide
  change _ ↔ ∃ value, env.Says key value ∧ ∃ word ∈ affirmatives, Text.Spells value word
  simp only [says_iff]
  rw [switch]
  cases env.text? key with
  | none => simp
  | some value =>
    simp only [List.contains_iff_mem, Option.some.injEq, exists_eq_left']
    constructor
    · intro h
      exact ⟨_, h, (Text.word_eq_iff (hword _ h)).mp rfl⟩
    · rintro ⟨word, hmem, hspells⟩
      rwa [(Text.word_eq_iff (hword word hmem)).mpr hspells]

end Environment

namespace Log.Settings

variable {env : Environment} {l : Level}

/-- **What an environment says about the settings**: the level is the one that its variable spells, or
else `warn`, and the other two are on if a variable says so. -/
structure GivenBy (env : Environment) (s : Settings) : Prop where
  level_eq_iff : ∀ l : Level, s.level = l ↔
    (∃ value, env.Says "VSPIN_LOG_LEVEL" value ∧ l.IsSpelled value) ∨
    l = .warn ∧ ∀ value, env.Says "VSPIN_LOG_LEVEL" value → ∀ l' : Level, ¬ l'.IsSpelled value
  flush_iff : s.flush = true ↔ ∃ value, env.Says "VSPIN_FLUSH_EPRINT" value ∧
    ∃ word ∈ ["1", "true", "yes", "on"], Text.Spells value word
  stamped_iff : s.stamped = true ↔ ∃ value, env.Says "VSPIN_LOG_TIME" value ∧
    ∃ word ∈ ["1", "true", "yes", "on"], Text.Spells value word

/-- A level that is not spelled counts as `warn`, and so does one that is not set. -/
theorem level_ofEnvironment_iff : (ofEnvironment env).level = l ↔
    (∃ value, env.Says "VSPIN_LOG_LEVEL" value ∧ l.IsSpelled value) ∨
    l = .warn ∧ ∀ value, env.Says "VSPIN_LOG_LEVEL" value → ∀ l' : Level, ¬ l'.IsSpelled value := by
  simp only [Environment.says_iff]
  rw [ofEnvironment, Environment.text]
  cases env.text? "VSPIN_LOG_LEVEL" with
  | none =>
    have hspelled : Level.warn.IsSpelled "warn" :=
      ⟨_, List.mem_cons_self, [], _, [], (List.append_nil _).symm, nofun, nofun, rfl⟩
    have hdefault := Level.parse?_eq_some_iff.mpr hspelled
    simp [hdefault, eq_comm]
  | some value =>
    simp only [Option.getD_some, Option.some.injEq, exists_eq_left', forall_eq']
    cases hparse : Level.parse? value with
    | none =>
      have hnone := Level.parse?_eq_none_iff.mp hparse
      simp [hnone, eq_comm]
    | some l' =>
      have hl' := Level.parse?_eq_some_iff.mp hparse
      rw [← Level.parse?_eq_some_iff, hparse, Option.getD_some, Option.some.injEq]
      exact (or_iff_left fun h => h.2 l' hl').symm

theorem givenBy_ofEnvironment (env : Environment) : (ofEnvironment env).GivenBy env where
  level_eq_iff _ := level_ofEnvironment_iff
  flush_iff := env.switch_eq_true_iff _
  stamped_iff := env.switch_eq_true_iff _

end Log.Settings

end SoleRunner
