import CachedDispatch.Config.Environment
import Mathlib.Data.List.TakeWhile
import Mathlib.Data.Nat.Digits.Defs

/-!
Which settings an environment has. The grammar of the two variables is told without a reader, and the
settings read are those of the grammar, or the failure names the first variable outside it.
-/
namespace CachedDispatch

namespace Text

/-- The word is the text but for the white space around it. -/
def Encloses (s : String) (word : List Char) : Prop :=
  ∃ before after, s.toList = before ++ word ++ after
    ∧ (∀ c ∈ before ++ after, isBlank c = true)
    ∧ (∀ c ∈ word.head?, isBlank c = false) ∧ ∀ c ∈ word.getLast?, isBlank c = false

private theorem head?_dropWhile_isBlank (cs : List Char) :
    ∀ c ∈ (cs.dropWhile isBlank).head?, isBlank c = false := by
  intro c hc
  have hnot := List.head?_dropWhile_not isBlank cs
  rwa [Option.mem_def.mp hc] at hnot

private theorem dropWhile_isBlank_append {before rest : List Char}
    (hbefore : ∀ c ∈ before, isBlank c = true) (hrest : ∀ c ∈ rest.head?, isBlank c = false) :
    (before ++ rest).dropWhile isBlank = rest := by
  rw [List.dropWhile_append_of_pos hbefore]
  cases rest with
  | nil => rfl
  | cons c rest => exact List.dropWhile_cons_of_neg (by simp [hrest c rfl])

private theorem encloses_trim (s : String) : Encloses s (trim s).toList := by
  generalize hrest : s.toList.dropWhile isBlank = rest
  generalize hword : rest.reverse.dropWhile isBlank = word
  have htrim : (trim s).toList = word.reverse := by rw [trim, hrest, hword, String.toList_ofList]
  have hs : s.toList = s.toList.takeWhile isBlank ++ rest := by
    rw [← hrest, List.takeWhile_append_dropWhile]
  have hr : rest = word.reverse ++ (rest.reverse.takeWhile isBlank).reverse := by
    rw [← List.reverse_append, ← hword, List.takeWhile_append_dropWhile, List.reverse_reverse]
  refine ⟨s.toList.takeWhile isBlank, (rest.reverse.takeWhile isBlank).reverse, ?_, ?_, ?_, ?_⟩
  · rw [htrim, List.append_assoc, ← hr, ← hs]
  · intro c hc
    rcases List.mem_append.mp hc with hc | hc
    · exact List.mem_takeWhile_imp hc
    · exact List.mem_takeWhile_imp (List.mem_reverse.mp hc)
  · -- The front of the word is the front of what was left after the first cut.
    intro c hc
    rw [htrim] at hc
    refine head?_dropWhile_isBlank s.toList c ?_
    rw [hrest, hr, List.head?_append, Option.mem_def.mp hc]
    rfl
  · intro c hc
    rw [htrim, List.getLast?_reverse, ← hword] at hc
    exact head?_dropWhile_isBlank rest.reverse c hc

/-- Trimming finds the word, and there is no other. -/
private theorem encloses_iff {s : String} {word : List Char} :
    Encloses s word ↔ (trim s).toList = word := by
  refine ⟨?_, fun h => h ▸ encloses_trim s⟩
  rintro ⟨before, after, hs, hblank, hhead, hlast⟩
  have hbefore : ∀ c ∈ before, isBlank c = true := fun c hc => hblank c (List.mem_append_left _ hc)
  have hafter : ∀ c ∈ after, isBlank c = true := fun c hc => hblank c (List.mem_append_right _ hc)
  rw [trim, String.toList_ofList, hs, List.append_assoc]
  cases word with
  | nil =>
    rw [List.nil_append, List.dropWhile_eq_nil_iff.mpr hblank]
    rfl
  | cons c word =>
    rw [dropWhile_isBlank_append hbefore (by simpa using hhead), List.reverse_append,
      dropWhile_isBlank_append (by simpa using hafter) (by rwa [List.head?_reverse]),
      List.reverse_reverse]

end Text

namespace Config

/-- A word for on or off, in letters of either case and with white space around it. -/
def IsSwitch (s : String) (on : Bool) : Prop :=
  ∃ word, Text.Encloses s word
    ∧ String.ofList (word.map Char.toLower) ∈
      if on then ["1", "true", "on", "yes"] else ["0", "false", "off", "no"]

/-- A decimal numeral of at most 32 bits, with an optional plus sign before it and white space
around. -/
def IsThreshold (s : String) (n : Nat) : Prop :=
  ∃ sign digits, Text.Encloses s (sign ++ digits) ∧ (sign = [] ∨ sign = ['+']) ∧ digits ≠ []
    ∧ (∀ c ∈ digits, '0' ≤ c ∧ c ≤ '9')
    ∧ n = Nat.ofDigits 10 (digits.reverse.map fun c => c.toNat - '0'.toNat) ∧ n ≤ 2 ^ 32 - 1

section Variables

variable {α : Type} (lookup : String → Option String) (key : String) (Means : String → α → Prop)

/-- The variable has this meaning, or is not set and leaves the default. -/
def Grants (default a : α) : Prop :=
  (lookup key = none ∧ a = default) ∨ ∃ s, lookup key = some s ∧ Means s a

/-- The variable is set to a text without a meaning. -/
def Spoils (s : String) : Prop := lookup key = some s ∧ ∀ a, ¬ Means s a

end Variables

private theorem readSwitch?_eq_some_iff {s : String} {on : Bool} :
    readSwitch? s = some on ↔ IsSwitch s on := by
  -- No word stands for both, so the order of the two tests does not matter.
  have hboth : ∀ word ∈ ["0", "false", "off", "no"], word ∉ ["1", "true", "on", "yes"] := by decide
  simp only [IsSwitch, readSwitch?, Text.encloses_iff, exists_eq_left', List.contains_iff_mem]
  generalize ["1", "true", "on", "yes"] = ons, ["0", "false", "off", "no"] = offs at hboth ⊢
  generalize String.ofList _ = word
  by_cases hon : word ∈ ons
  · have hoff : word ∉ offs := fun hoff => hboth word hoff hon
    cases on <;> simp [hon, hoff]
  · by_cases hoff : word ∈ offs <;> cases on <;> simp [hon, hoff]

/-- Reading from the left gives the value that the digits have by their places. -/
private theorem digitsValue_eq_ofDigits (cs : List Char) :
    digitsValue cs = Nat.ofDigits 10 (cs.reverse.map fun c => c.toNat - '0'.toNat) := by
  rw [digitsValue, ← List.foldr_reverse, Nat.ofDigits_eq_foldr, List.foldr_map]
  simp only [Nat.add_comm]
  rfl

private theorem all_isDigit_iff (digits : List Char) :
    digits.all Char.isDigit = true ↔ ∀ c ∈ digits, '0' ≤ c ∧ c ≤ '9' := by
  simp [List.all_eq_true, Char.isDigit, Char.le_def]

private theorem readThreshold?_eq_some_iff {s : String} {n : Nat} :
    readThreshold? s = some n ↔ IsThreshold s n := by
  have hmax : 2 ^ 32 - 1 = maxThreshold := rfl
  simp only [IsThreshold, readThreshold?, Text.encloses_iff, hmax, all_isDigit_iff,
    Option.ite_none_right_eq_some, Option.some.injEq, ← digitsValue_eq_ofDigits]
  generalize (Text.trim s).toList = cs
  constructor
  · rintro ⟨⟨hne, hdigits, hle⟩, rfl⟩
    by_cases hplus : cs.head? = some '+'
    · obtain ⟨digits, rfl⟩ := List.head?_eq_some_iff.mp hplus
      exact ⟨['+'], digits, rfl, .inr rfl, hne, hdigits, rfl, hle⟩
    · rw [if_neg hplus] at hne hdigits hle ⊢
      exact ⟨[], cs, rfl, .inl rfl, hne, hdigits, rfl, hle⟩
  · rintro ⟨sign, digits, rfl, rfl | rfl, hne, hdigits, rfl, hle⟩
    · -- A digit is no sign.
      have hplus : ([] ++ digits).head? ≠ some '+' := fun h =>
        absurd (hdigits '+' (List.mem_of_mem_head? h)) (by decide)
      rw [if_neg hplus]
      exact ⟨⟨hne, hdigits, hle⟩, rfl⟩
    · exact ⟨⟨hne, hdigits, hle⟩, rfl⟩

variable {α : Type} {lookup : String → Option String} {key : String} {read? : String → Option α}
  {Means : String → α → Prop}

private theorem readVariable_eq_ok_iff (h : ∀ {s a}, read? s = some a ↔ Means s a) {default a : α} :
    readVariable lookup key read? default = .ok a ↔ Grants lookup key Means default a := by
  unfold readVariable Grants
  cases lookup key with
  | none => simp [eq_comm]
  | some s =>
    rcases hread : read? s with _ | b
    · simp [← h, hread]
    · simp [← h, hread]

private theorem readVariable_eq_error_iff (default : α) (h : ∀ {s a}, read? s = some a ↔ Means s a)
    {e : ConfigError} :
    readVariable lookup key read? default = .error e
      ↔ ∃ s, Spoils lookup key Means s ∧ e = .invalidValue key s := by
  unfold readVariable Spoils
  cases lookup key with
  | none => simp
  | some s =>
    rcases hread : read? s with _ | b
    · simp [← h, hread, eq_comm]
    · simp [← h, hread]

/-- The settings of an environment are those of the grammar: each variable has a meaning, or is not
set and leaves the default. Otherwise the failure names the first variable that has none, and gives
its text as it stands. -/
theorem ofEnvironment_reads_grammar (lookup : String → Option String) :
    (∀ config, ofEnvironment lookup = .ok config
        ↔ Grants lookup "GROVE_CALLSITE_CACHE" IsSwitch true config.cacheEnabled
          ∧ Grants lookup "GROVE_CALLSITE_MEGAMORPHIC_THRESHOLD" IsThreshold 16 config.threshold)
      ∧ ∀ e, ofEnvironment lookup = .error e
        ↔ (∃ s, Spoils lookup "GROVE_CALLSITE_CACHE" IsSwitch s
            ∧ e = .invalidValue "GROVE_CALLSITE_CACHE" s)
          ∨ (∃ on, Grants lookup "GROVE_CALLSITE_CACHE" IsSwitch true on)
            ∧ ∃ s, Spoils lookup "GROVE_CALLSITE_MEGAMORPHIC_THRESHOLD" IsThreshold s
              ∧ e = .invalidValue "GROVE_CALLSITE_MEGAMORPHIC_THRESHOLD" s := by
  simp only [← readVariable_eq_ok_iff @readSwitch?_eq_some_iff,
    ← readVariable_eq_ok_iff @readThreshold?_eq_some_iff,
    ← readVariable_eq_error_iff true @readSwitch?_eq_some_iff,
    ← readVariable_eq_error_iff 16 @readThreshold?_eq_some_iff]
  have hdo : ofEnvironment lookup = (readVariable lookup "GROVE_CALLSITE_CACHE" readSwitch? true).bind
      fun on => (readVariable lookup "GROVE_CALLSITE_MEGAMORPHIC_THRESHOLD" readThreshold? 16).bind
        fun n => .ok ⟨on, n⟩ := rfl
  rw [hdo]
  generalize readVariable lookup "GROVE_CALLSITE_CACHE" readSwitch? true = cache
  generalize readVariable lookup "GROVE_CALLSITE_MEGAMORPHIC_THRESHOLD" readThreshold? 16 = threshold
  rcases cache with e | on
  · simp [Except.bind]
  · rcases threshold with e | n
    · simp [Except.bind]
    · refine ⟨fun config => ?_, by simp [Except.bind]⟩
      cases config
      simp [Except.bind]

end Config

end CachedDispatch
