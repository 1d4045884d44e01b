import Annotations.Settings
import Mathlib.Data.List.DropRight
import Mathlib.Data.Nat.Digits.Defs
import Mathlib.Tactic.IntervalCases

/-!
# The depth limit that is set

Which texts set a depth limit, and to what, is said by a grammar: a number is **spelled** by its
digits, with any zeros and possibly a plus sign before them (`Environment.Spells`), and a text
**denotes** it if there are only blanks around such a spelling (`Environment.Denotes`). The grammar
knows neither trimming nor reading; it takes a text apart and adds up the values of its digits.

* No blank occurs in a spelling. So between the blanks there is what trimming leaves
  (`Text.trim_append`, `Text.exists_blanks_trim`), and a text denotes a number exactly if the trimmed
  text spells it (`Environment.denotes_iff`).
* Reading the digits one by one gives the sum of their values
  (`Environment.ofDigitChars_map_digitChar`). So a number is read exactly if it is spelled and below
  the bound (`Environment.numeral?_eq_some_iff`), and no text spells two numbers.

`Settings.depth_of_environment` puts this together: there are three outcomes, and the limit in force
is never zero.
-/

namespace Annotations

/-! ### Blanks around a text -/

namespace Text

/-- What is trimmed are blanks. -/
theorem exists_blanks_trim (s : List Char) :
    ∃ before after, s = before ++ trim s ++ after ∧ ∀ c ∈ before ++ after, isBlank c = true := by
  have trimmed : trim s = (s.dropWhile isBlank).rdropWhile isBlank := rfl
  refine ⟨s.takeWhile isBlank, (s.dropWhile isBlank).rtakeWhile isBlank, ?_, fun c hc ↦ ?_⟩
  · rw [List.append_assoc, trimmed, List.rdropWhile_append_rtakeWhile,
      List.takeWhile_append_dropWhile]
  · rcases List.mem_append.1 hc with hc | hc
    · exact List.mem_takeWhile_imp hc
    · exact List.mem_rtakeWhile_imp hc

private theorem dropWhile_append_of_not_blank {s : List Char} (rest : List Char)
    (nonempty : s ≠ []) (printed : ∀ c ∈ s, isBlank c = false) :
    (s ++ rest).dropWhile isBlank = s ++ rest := by
  obtain ⟨c, s, rfl⟩ := List.exists_cons_of_ne_nil nonempty
  have first := printed c List.mem_cons_self
  exact List.dropWhile_cons_of_neg (by simp [first])

/-- All blanks around a text are trimmed, and nothing else if there are none in the text. -/
theorem trim_append {before s after : List Char} (blanks : ∀ c ∈ before ++ after, isBlank c = true)
    (nonempty : s ≠ []) (printed : ∀ c ∈ s, isBlank c = false) :
    trim (before ++ s ++ after) = s := by
  obtain ⟨hbefore, hafter⟩ := List.forall_mem_append.1 blanks
  rw [trim, List.append_assoc, List.dropWhile_append_of_pos hbefore,
    dropWhile_append_of_not_blank after nonempty printed, List.reverse_append,
    List.dropWhile_append_of_pos (by simpa using hafter)]
  have kept := dropWhile_append_of_not_blank (s := s.reverse) [] (by simpa using nonempty)
    (by simpa using printed)
  rw [List.append_nil] at kept
  rw [kept, List.reverse_reverse]

end Text

/-! ### Spellings -/

namespace Environment

/-- The text spells the number: by its digits, the one of the highest value first, with or without a
plus sign before them. -/
def Spells (s : List Char) (n : Nat) : Prop :=
  ∃ ds : List Nat, ds ≠ [] ∧ (∀ d ∈ ds, d < 10) ∧
    (s = ds.map Nat.digitChar ∨ s = '+' :: ds.map Nat.digitChar) ∧ Nat.ofDigits 10 ds.reverse = n

/-- The text denotes the number: it is a spelling with blanks around it. -/
def Denotes (value : String) (n : Nat) : Prop :=
  ∃ before s after, value.toList = before ++ s ++ after ∧
    (∀ c ∈ before ++ after, Text.isBlank c = true) ∧ Spells s n

variable {s : List Char} {ds : List Nat} {n m : Nat}

/-! ### Digits -/

private theorem digitChar_of_lt {d : Nat} (h : d < 10) :
    (Nat.digitChar d).isDigit = true ∧ (Nat.digitChar d).toNat - '0'.toNat = d ∧
      Text.isBlank (Nat.digitChar d) = false ∧ Nat.digitChar d ≠ '-' := by
  interval_cases d <;> decide

private theorem exists_digitChar {c : Char} (h : c.isDigit = true) :
    ∃ d < 10, Nat.digitChar d = c := by
  simp only [Char.isDigit, Bool.and_eq_true, decide_eq_true_eq] at h
  obtain ⟨low, high⟩ : 48 ≤ c.toNat ∧ c.toNat ≤ 57 := h
  refine ⟨c.toNat - 48, by omega, ?_⟩
  rw [← Char.ofNat_toNat c]
  generalize c.toNat = n at low high
  interval_cases n <;> rfl

/-- A text of digits is given by their values. -/
theorem exists_map_digitChar (digits : ∀ c ∈ s, c.isDigit = true) :
    ∃ ds : List Nat, (∀ d ∈ ds, d < 10) ∧ ds.map Nat.digitChar = s := by
  induction s with
  | nil => exact ⟨[], by simp, rfl⟩
  | cons c s ih =>
    obtain ⟨first, rest⟩ := List.forall_mem_cons.1 digits
    obtain ⟨d, hd, rfl⟩ := exists_digitChar first
    obtain ⟨ds, hds, rfl⟩ := ih rest
    exact ⟨d :: ds, List.forall_mem_cons.2 ⟨hd, hds⟩, rfl⟩

/-- **Reading the digits one by one gives the sum of their values.** -/
theorem ofDigitChars_map_digitChar (digits : ∀ d ∈ ds, d < 10) :
    Nat.ofDigitChars 10 (ds.map Nat.digitChar) 0 = Nat.ofDigits 10 ds.reverse := by
  induction ds with
  | nil => rfl
  | cons d ds ih =>
    obtain ⟨first, rest⟩ := List.forall_mem_cons.1 digits
    rw [List.map_cons, Nat.ofDigitChars_cons, (digitChar_of_lt first).2.1,
      Nat.ofDigitChars_eq_ofDigitChars_zero, ih rest, Nat.ofDigits_reverse_cons, List.length_map,
      Nat.mul_zero, Nat.zero_add, Nat.add_comm]

/-! ### Reading spellings -/

private theorem head?_map_digitChar (digits : ∀ d ∈ ds, d < 10) :
    (ds.map Nat.digitChar).head? ≠ some '+' := by
  cases ds with
  | nil => simp
  | cons d ds =>
    intro plus
    have digit := (digitChar_of_lt (digits d List.mem_cons_self)).1
    rw [Option.some.inj plus] at digit
    cases digit

/-- A spelling is digits after a possible plus sign; what is read of them is what it spells. -/
theorem spells_iff :
    Spells s n ↔
      let digits := if s.head? = some '+' then s.tail else s
      (digits ≠ [] ∧ digits.all Char.isDigit = true) ∧ Nat.ofDigitChars 10 digits 0 = n := by
  constructor
  · rintro ⟨ds, nonempty, digits, shape, rfl⟩
    have unsigned : (if s.head? = some '+' then s.tail else s) = ds.map Nat.digitChar := by
      rcases shape with rfl | rfl
      · exact if_neg (head?_map_digitChar digits)
      · rfl
    simp only [unsigned]
    refine ⟨⟨by simpa using nonempty, ?_⟩, ofDigitChars_map_digitChar digits⟩
    simpa using fun d hd ↦ (digitChar_of_lt (digits d hd)).1
  · rintro ⟨⟨nonempty, digits⟩, rfl⟩
    obtain ⟨ds, values, chars⟩ := exists_map_digitChar (List.all_eq_true.1 digits)
    rw [← chars] at nonempty ⊢
    refine ⟨ds, by simpa using nonempty, values, ?_, (ofDigitChars_map_digitChar values).symm⟩
    split at chars
    · next plus => exact .inr (by rw [chars, List.cons_head?_tail plus])
    · exact .inl chars.symm

/-- A text spells one number at most. -/
theorem Spells.unique (h : Spells s n) (k : Spells s m) : n = m :=
  (spells_iff.1 h).2.symm.trans (spells_iff.1 k).2

/-- **A number is read exactly if it is spelled and below the bound.** -/
theorem numeral?_eq_some_iff : numeral? s = some n ↔ Spells s n ∧ n < UInt64.size := by
  rw [spells_iff]
  simp only [numeral?]
  generalize (if s.head? = some '+' then s.tail else s) = digits
  by_cases grammar : digits ≠ [] ∧ digits.all Char.isDigit = true
  · rw [if_pos grammar]
    by_cases bound : Nat.ofDigitChars 10 digits 0 < UInt64.size
    · rw [if_pos bound, Option.some.injEq]
      exact ⟨fun value ↦ ⟨⟨grammar, value⟩, value ▸ bound⟩, fun spelled ↦ spelled.1.2⟩
    · rw [if_neg bound]
      exact ⟨nofun, fun ⟨spelled, below⟩ ↦ absurd (spelled.2 ▸ below) bound⟩
  · rw [if_neg grammar]
    exact ⟨nofun, fun ⟨spelled, _⟩ ↦ absurd spelled.1 grammar⟩

/-- Nothing is read of a text that spells no number below the bound. -/
theorem numeral?_eq_none_iff : numeral? s = none ↔ ∀ n, Spells s n → UInt64.size ≤ n := by
  rw [Option.eq_none_iff_forall_ne_some]
  simp only [ne_eq, numeral?_eq_some_iff, not_and, Nat.not_lt]

/-- No blank and no minus sign occurs in a spelling. -/
theorem Spells.forall_mem (h : Spells s n) :
    s ≠ [] ∧ ∀ c ∈ s, Text.isBlank c = false ∧ c ≠ '-' := by
  obtain ⟨ds, nonempty, digits, shape, -⟩ := h
  have values : ∀ c ∈ ds.map Nat.digitChar, Text.isBlank c = false ∧ c ≠ '-' := by
    simpa using fun d hd ↦ (digitChar_of_lt (digits d hd)).2.2
  rcases shape with rfl | rfl
  · exact ⟨by simpa using nonempty, values⟩
  · exact ⟨List.cons_ne_nil _ _, List.forall_mem_cons.2 ⟨⟨rfl, by decide⟩, values⟩⟩

/-- **A text denotes the number that the trimmed text spells.** -/
theorem denotes_iff {value : String} : Denotes value n ↔ Spells (Text.trim value.toList) n := by
  constructor
  · rintro ⟨before, s, after, shape, blanks, spells⟩
    obtain ⟨nonempty, chars⟩ := spells.forall_mem
    rwa [shape, Text.trim_append blanks nonempty fun c hc ↦ (chars c hc).1]
  · intro spells
    obtain ⟨before, after, shape, blanks⟩ := Text.exists_blanks_trim value.toList
    exact ⟨before, _, after, shape, blanks, spells⟩

/-- No minus sign occurs in a text that denotes a number. -/
theorem Denotes.not_mem_minus {value : String} (h : Denotes value n) : '-' ∉ value.toList := by
  obtain ⟨before, s, after, shape, blanks, spells⟩ := h
  rw [shape, List.append_assoc, List.mem_append, List.mem_append]
  rintro (minus | minus | minus)
  · cases blanks _ (List.mem_append_left _ minus)
  · exact (spells.forall_mem.2 _ minus).2 rfl
  · cases blanks _ (List.mem_append_right _ minus)

/-- A text denotes one number at most. -/
theorem Denotes.unique {value : String} (h : Denotes value n) (k : Denotes value m) : n = m :=
  (denotes_iff.1 h).unique (denotes_iff.1 k)

section

variable {env : Environment} {key value : String} (given : env key = some value) (fallback : Nat)
include given

/-- A number that is denoted and below the bound is read. -/
theorem number_of_denotes (denotes : Denotes value n) (bound : n < UInt64.size) :
    env.number key fallback = .ok n := by
  have read := numeral?_eq_some_iff.2 ⟨denotes_iff.1 denotes, bound⟩
  simp only [number, given, read]

/-- A text that denotes no such number is refused as it was given. -/
theorem number_of_not_denotes (other : ∀ n, Denotes value n → UInt64.size ≤ n) :
    env.number key fallback = .error (.invalidNumber key value) := by
  have unread := numeral?_eq_none_iff.2 fun n spells ↦ other n (denotes_iff.2 spells)
  simp only [number, given, unread]

end

end Environment

namespace Settings

open Environment (Denotes)

variable {env : Environment} {value : String} {n : Nat}

theorem ofEnvironment_of_denotes (given : env depthKey = some value) (denotes : Denotes value n)
    (bound : n < UInt64.size) :
    ofEnvironment env = if n = 0 then .error (.outOfRange depthKey 0) else .ok ⟨n⟩ := by
  rw [ofEnvironment, Environment.number_of_denotes given _ denotes bound]
  show (if n = 0 then _ else _) = _
  split
  · next zero => rw [zero]
  · rfl

theorem ofEnvironment_of_not_denotes (given : env depthKey = some value)
    (other : ∀ n, Denotes value n → UInt64.size ≤ n) :
    ofEnvironment env = .error (.invalidNumber depthKey value) := by
  rw [ofEnvironment, Environment.number_of_not_denotes given _ other]
  rfl

/-- What a text that is given for the limit comes to. -/
inductive Outcome (value : String) : Except SettingError Settings → Prop
  | accepted {n : Nat} (denotes : Denotes value n) (positive : 1 ≤ n) (bound : n < UInt64.size) :
    Outcome value (.ok ⟨n⟩)
  | zero (denotes : Denotes value 0) : Outcome value (.error (.outOfRange depthKey 0))
  | unread (other : ∀ n, Denotes value n → UInt64.size ≤ n) :
    Outcome value (.error (.invalidNumber depthKey value))

theorem outcome_ofEnvironment (given : env depthKey = some value) :
    Outcome value (ofEnvironment env) := by
  by_cases denoted : ∃ n, Denotes value n ∧ n < UInt64.size
  · obtain ⟨n, denotes, bound⟩ := denoted
    rw [ofEnvironment_of_denotes given denotes bound]
    split
    · next zero => exact .zero (zero ▸ denotes)
    · next positive => exact .accepted denotes (Nat.one_le_iff_ne_zero.2 positive) bound
  · have other : ∀ n, Denotes value n → UInt64.size ≤ n := by simpa using denoted
    rw [ofEnvironment_of_not_denotes given other]
    exact .unread other

/-- **Each text has one outcome.** -/
theorem Outcome.unique {r r' : Except SettingError Settings} (h : Outcome value r)
    (k : Outcome value r') : r = r' := by
  cases h with
  | accepted denotes positive bound =>
    cases k with
    | accepted denotes' => rw [denotes.unique denotes']
    | zero denotes' => exact absurd (denotes.unique denotes') (by omega)
    | unread other => exact absurd (other _ denotes) (by omega)
  | zero denotes =>
    cases k with
    | accepted denotes' positive => exact absurd (denotes.unique denotes') (by omega)
    | zero => rfl
    | unread other => exact absurd (other _ denotes) (by decide)
  | unread other =>
    cases k with
    | accepted denotes _ bound => exact absurd (other _ denotes) (by omega)
    | zero denotes => exact absurd (other _ denotes) (by decide)
    | unread => rfl

theorem ofEnvironment_eq_iff (given : env depthKey = some value)
    {r : Except SettingError Settings} : ofEnvironment env = r ↔ Outcome value r :=
  ⟨fun h ↦ h ▸ outcome_ofEnvironment given, (outcome_ofEnvironment given).unique⟩

section

variable (given : env depthKey = some value)
include given

theorem ofEnvironment_eq_ok_iff {s : Settings} :
    ofEnvironment env = .ok s ↔ Denotes value s.depth ∧ 1 ≤ s.depth ∧ s.depth < UInt64.size := by
  rw [ofEnvironment_eq_iff given]
  constructor
  · intro h
    cases h with
    | accepted denotes positive bound => exact ⟨denotes, positive, bound⟩
  · rintro ⟨denotes, positive, bound⟩
    exact .accepted denotes positive bound

theorem ofEnvironment_eq_outOfRange_iff {key : String} :
    ofEnvironment env = .error (.outOfRange key n) ↔
      key = depthKey ∧ n = 0 ∧ Denotes value 0 := by
  rw [ofEnvironment_eq_iff given]
  constructor
  · intro h
    cases h with
    | zero denotes => exact ⟨rfl, rfl, denotes⟩
  · rintro ⟨rfl, rfl, denotes⟩
    exact .zero denotes

theorem ofEnvironment_eq_invalidNumber_iff {key v : String} :
    ofEnvironment env = .error (.invalidNumber key v) ↔
      key = depthKey ∧ v = value ∧ ∀ n, Denotes value n → UInt64.size ≤ n := by
  rw [ofEnvironment_eq_iff given]
  constructor
  · intro h
    cases h with
    | unread other => exact ⟨rfl, rfl, other⟩
  · rintro ⟨rfl, rfl, other⟩
    exact .unread other

end

theorem ofEnvironment_of_unset (unset : env depthKey = none) : ofEnvironment env = .ok default := by
  rw [ofEnvironment, Environment.number, unset]
  rfl

theorem one_le_depth_of_ofEnvironment {s : Settings} (h : ofEnvironment env = .ok s) :
    1 ≤ s.depth := by
  cases given : env depthKey with
  | none =>
    cases (ofEnvironment_of_unset given).symm.trans h
    decide
  | some value => exact ((ofEnvironment_eq_ok_iff given).1 h).2.1

/-- The settings that can be used are in force, and else the default ones. -/
theorem inForce_eq_iff {s : Settings} :
    inForce env = s ↔
      ofEnvironment env = .ok s ∨ (∃ e, ofEnvironment env = .error e) ∧ s = default := by
  rw [inForce]
  cases ofEnvironment env <;> simp [eq_comm]

/-- **The depth limit is read by its grammar.** Of a text that is given for it,

* the number that the text denotes is accepted if it is at least one and below `2 ^ 64`;
* it is out of range exactly if the text denotes zero;
* in all other cases the text is reported, as it was given, to be no number: it denotes a number
  from `2 ^ 64` on, or none, as any text with a minus sign.

The limit in force is at least one: it is the one that was accepted, or else the default. -/
theorem depth_of_environment (env : Environment) :
    (∀ value, env depthKey = some value →
      (∀ s, ofEnvironment env = .ok s ↔
        Denotes value s.depth ∧ 1 ≤ s.depth ∧ s.depth ≤ 2 ^ 64 - 1) ∧
      (∀ key n, ofEnvironment env = .error (.outOfRange key n) ↔
        key = depthKey ∧ n = 0 ∧ Denotes value 0) ∧
      (∀ key v, ofEnvironment env = .error (.invalidNumber key v) ↔
        key = depthKey ∧ v = value ∧ ¬∃ n ≤ 2 ^ 64 - 1, Denotes value n) ∧
      ('-' ∈ value.toList → ¬∃ n, Denotes value n)) ∧
    (env depthKey = none → ofEnvironment env = .ok default) ∧
    1 ≤ (inForce env).depth ∧
    ∀ s, inForce env = s ↔
      ofEnvironment env = .ok s ∨ (∃ e, ofEnvironment env = .error e) ∧ s = default := by
  have below (n : Nat) : n < UInt64.size ↔ n ≤ 2 ^ 64 - 1 := Nat.lt_iff_le_pred (by decide)
  refine ⟨fun value given ↦ ⟨fun s ↦ ?_, fun key n ↦ ofEnvironment_eq_outOfRange_iff given,
    fun key v ↦ ?_, fun minus ⟨n, denotes⟩ ↦ denotes.not_mem_minus minus⟩,
    ofEnvironment_of_unset, ?_, fun s ↦ inForce_eq_iff⟩
  · rw [ofEnvironment_eq_ok_iff given, below]
  · rw [ofEnvironment_eq_invalidNumber_iff given]
    simp only [not_exists, not_and', ← below, Nat.not_lt]
  · rcases inForce_eq_iff.1 rfl with accepted | ⟨-, fallback⟩
    · exact one_le_depth_of_ofEnvironment accepted
    · rw [fallback]
      decide

/-- Between blanks, with a sign and zeros in front, seven is accepted; zero is out of range in any
spelling, and `2 ^ 64` is no number. -/
theorem depth_of_environment_padded :
    ofEnvironment (.ofList [(depthKey, "\u2003+007\n")]) = .ok ⟨7⟩ ∧
    ofEnvironment (.ofList [(depthKey, "+00")]) = .error (.outOfRange depthKey 0) ∧
    ofEnvironment (.ofList [(depthKey, "18446744073709551616 ")]) =
      .error (.invalidNumber depthKey "18446744073709551616 ") := by
  have seven : Denotes "\u2003+007\n" 7 :=
    ⟨['\u2003'], ['+', '0', '0', '7'], ['\n'], rfl, List.all_eq_true.1 rfl, [0, 0, 7], by decide,
      by decide, .inr rfl, rfl⟩
  have zero : Denotes "+00" 0 :=
    ⟨[], ['+', '0', '0'], [], rfl, List.forall_mem_nil _, [0, 0], by decide, by decide, .inr rfl,
      rfl⟩
  have large : Denotes "18446744073709551616 " (2 ^ 64) :=
    ⟨[], _, [' '], rfl, List.all_eq_true.1 rfl,
      [1, 8, 4, 4, 6, 7, 4, 4, 0, 7, 3, 7, 0, 9, 5, 5, 1, 6, 1, 6], by decide, by decide, .inl rfl,
      by norm_num [Nat.ofDigits]⟩
  have set (value : String) : Environment.ofList [(depthKey, value)] depthKey = some value := by
    simp [Environment.ofList]
  refine ⟨?_, ?_, ?_⟩
  · exact (((depth_of_environment _).1 _ (set _)).1 _).2 ⟨seven, by decide, by decide⟩
  · exact (((depth_of_environment _).1 _ (set _)).2.1 _ _).2 ⟨rfl, rfl, zero⟩
  · refine (((depth_of_environment _).1 _ (set _)).2.2.1 _ _).2 ⟨rfl, rfl, fun ⟨n, bound, h⟩ ↦ ?_⟩
    rw [h.unique large] at bound
    exact absurd bound (by decide)

end Settings

end Annotations
