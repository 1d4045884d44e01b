import Annotations.Json.Lexer
import Annotations.Json.Numeral
import Annotations.Json.Writer
import Mathlib.Data.List.TakeWhile
import Mathlib.Data.Nat.Digits.Lemmas

/-!
# Tokens are read back

The texts of tokens that are written one after the other are split into the same tokens again. A
string comes back because each character of it does, escaped or not (`Token.units?_escape`), and a
character is never half of a pair (`Token.characters?_toNat`). A number has no mark at its end; it
comes back if what follows it could not be a part of it (`Token.Ends`), which all scanners of parts
of a number make use of in the same way (`Token.Stable`).

So numbers are taken as they are written. That the text of a whole number is a number, and which one
it is, is proved here too (`Token.isNumber_int`, `Numeral.int?_toString`).
-/

namespace Annotations

namespace Token

/-! ### Strings -/

private theorem unit?_control : ∀ n < 0x20,
    (if n < 16 then ['0'] else []) ++ Nat.toDigits 16 n =
        [if n < 16 then '0' else '1', (n % 16).digitChar] ∧
      unit? '0' '0' (if n < 16 then '0' else '1') (n % 16).digitChar = some n := by
  decide

/-- The code of a control character stands for the character. -/
theorem controlCode_eq {c : Char} (control : c.toNat < 0x20) :
    ∃ x y, (controlCode c).toList = ['\\', 'u', '0', '0', x, y] ∧
      unit? '0' '0' x y = some c.toNat := by
  obtain ⟨digits, unit⟩ := unit?_control c.toNat control
  refine ⟨_, _, ?_, unit⟩
  have zero : (if c.toNat < 16 then "0" else "").toList = if c.toNat < 16 then ['0'] else [] := by
    split <;> rfl
  have hex : (Text.hex c.toNat).toList = Nat.toDigits 16 c.toNat := String.toList_ofList
  rw [controlCode, String.toList_append, String.toList_append, zero, hex, List.append_assoc, digits]
  rfl

/-- **A character is read back**, however it is escaped. -/
theorem units?_escape (c : Char) (s : List Char) :
    units? ((escape c).toList ++ s) = (units? s).map fun r ↦ (c.toNat :: r.1, r.2) := by
  -- A backslash and a letter stand for the character that the letter does.
  have letter : ∀ x : Char, x ≠ 'u' → escaped? x = some c →
      units? ('\\' :: x :: s) = (units? s).map fun r ↦ (c.toNat :: r.1, r.2) := by
    intro x hx stands
    rw [units?]
    · simp [stands]
      cases units? s <;> rfl
    · exact fun _ _ _ _ _ same _ ↦ hx same
  unfold escape
  split
  · subst c
    exact letter '"' (by decide) rfl
  split
  · subst c
    exact letter '\\' (by decide) rfl
  split
  · subst c
    exact letter 'b' (by decide) rfl
  split
  · subst c
    exact letter 'f' (by decide) rfl
  split
  · subst c
    exact letter 'n' (by decide) rfl
  split
  · subst c
    exact letter 'r' (by decide) rfl
  split
  · subst c
    exact letter 't' (by decide) rfl
  split
  · rename_i control
    obtain ⟨x, y, text, unit⟩ := controlCode_eq control
    rw [text]
    simp only [List.cons_append, List.nil_append, units?, unit]
    cases units? s <;> rfl
  · rename_i quote backslash _ _ _ _ _ control
    rw [Char.toString, String.toList_singleton, List.singleton_append, units?]
    · simp [control, backslash]
      cases units? s <;> rfl
    · exact quote
    · exact fun _ _ _ _ _ same _ ↦ backslash same
    · exact fun _ _ same _ ↦ backslash same

/-- A string is read back up to its closing quotation mark, character by character. -/
theorem units?_flatMap (cs s : List Char) :
    units? (cs.flatMap (fun c ↦ (escape c).toList) ++ '"' :: s) = some (cs.map Char.toNat, s) := by
  induction cs with
  | nil => rfl
  | cons c cs ih =>
    rw [List.flatMap_cons, List.append_assoc, units?_escape, ih]
    rfl

private theorem not_half (c : Char) :
    isFirstHalf c.toNat = false ∧ isSecondHalf c.toNat = false := by
  have valid : c.toNat < 0xd800 ∨ 0xdfff < c.toNat ∧ c.toNat < 0x110000 := c.valid
  simp only [isFirstHalf, isSecondHalf, Bool.and_eq_false_iff, decide_eq_false_iff_not]
  omega

/-- Characters are no halves of others. -/
theorem characters?_toNat (cs : List Char) : characters? (cs.map Char.toNat) = some cs := by
  induction cs with
  | nil => rfl
  | cons c cs ih =>
    obtain ⟨first, second⟩ := not_half c
    cases cs with
    | nil => simp [characters?, first, second]
    | cons d ds =>
      rw [List.map_cons] at ih
      simp [characters?, first, second, ih]

theorem ofUnits_toNat (cs : List Char) :
    ofUnits (cs.map Char.toNat) = .string (String.ofList cs) := by
  rw [ofUnits, characters?_toNat]

/-! ### Numbers -/

/-- The text is a number. -/
def IsNumber (text : String) : Prop :=
  number? text.toList = some (text.toList, [])

/-- No number goes on with the text. -/
def Ends (s : List Char) : Prop :=
  ∀ c ∈ s.head?, c.isDigit = false ∧ c ≠ '.' ∧ c ≠ 'e' ∧ c ≠ 'E'

theorem ends_nil : Ends [] := by
  intro c hc
  cases hc

/-- A number ends before a token that is none and stands for no name. -/
theorem ends_text {t : Token} (mark : t = .comma ∨ t = .closeBracket ∨ t = .closeBrace)
    (s : List Char) : Ends (t.text.toList ++ s) := by
  intro c hc
  rcases mark with rfl | rfl | rfl <;> cases hc <;> decide

/-- A scanner that reads the same from a text when another text is put behind it, with which no
number goes on. -/
def Stable (scan : List Char → Option (List Char × List Char)) : Prop :=
  ∀ s x y more, Ends more → scan s = some (x, y) → scan (s ++ more) = some (x, y ++ more)

theorem stable_digits? : Stable digits? := by
  intro s x y more ends h
  have stops : more.takeWhile Char.isDigit = [] ∧ more.dropWhile Char.isDigit = more := by
    cases more with
    | nil => exact ⟨rfl, rfl⟩
    | cons c more =>
      obtain ⟨digit, -⟩ := ends c rfl
      simp [digit]
  have take : (s ++ more).takeWhile Char.isDigit = s.takeWhile Char.isDigit := by
    rw [List.takeWhile_append, stops.1]
    split
    · rename_i all
      rw [List.append_nil, (List.takeWhile_prefix _).eq_of_length all]
    · rfl
  have drop : (s ++ more).dropWhile Char.isDigit = s.dropWhile Char.isDigit ++ more := by
    rw [List.dropWhile_append, stops.2]
    split
    · rename_i empty
      rw [List.isEmpty_iff.1 empty, List.nil_append]
    · rfl
  cases hds : s.takeWhile Char.isDigit with
  | nil => simp [digits?, hds] at h
  | cons d ds =>
    simp only [digits?, hds, Option.some.injEq, Prod.mk.injEq] at h
    obtain ⟨rfl, rfl⟩ := h
    simp only [digits?, take, drop, hds]

/-- A scanner that puts a mark before what another one reads. -/
theorem Stable.mark {scan : List Char → Option (List Char × List Char)} (stable : Stable scan)
    (c : Char) : ∀ s x y more, Ends more →
      (scan s).map (fun (ds, rest) ↦ (c :: ds, rest)) = some (x, y) →
      (scan (s ++ more)).map (fun (ds, rest) ↦ (c :: ds, rest)) = some (x, y ++ more) := by
  intro s x y more ends h
  cases hscan : scan s with
  | none => simp [hscan] at h
  | some r =>
    rw [hscan] at h
    cases h
    rw [stable s r.1 r.2 more ends hscan]
    rfl

theorem stable_whole? : Stable whole? := by
  intro s x y more ends h
  cases s with
  | nil => cases h
  | cons c s =>
    by_cases zero : c = '0'
    · subst c
      cases h
      rfl
    · have step : ∀ s, whole? (c :: s) = digits? (c :: s) := by
        intro s
        rw [whole?]
        exact fun _ same ↦ zero (List.cons.inj same).1
      rw [step] at h
      rw [List.cons_append, step]
      exact stable_digits? _ x y more ends h

/-- A text that does not start with a mark does not start with one when another text is put behind
it, with which no number goes on. -/
private theorem append_ne_cons {s more : List Char} {c : Char} (ends : Ends more)
    (mark : c = '.' ∨ c = 'e' ∨ c = 'E') (h : ∀ rest, s ≠ c :: rest) (rest : List Char) :
    s ++ more ≠ c :: rest := by
  cases s with
  | nil =>
    rintro rfl
    obtain ⟨-, point, small, great⟩ := ends c rfl
    rcases mark with rfl | rfl | rfl <;> contradiction
  | cons d s =>
    intro same
    obtain ⟨rfl, -⟩ := List.cons.inj same
    exact h s rfl

theorem stable_fraction? : Stable fraction? := by
  intro s x y more ends h
  by_cases point : ∃ rest, s = '.' :: rest
  · obtain ⟨rest, rfl⟩ := point
    exact stable_digits?.mark '.' rest x y more ends h
  · have none : ∀ rest, s ≠ '.' :: rest := fun rest same ↦ point ⟨rest, same⟩
    rw [fraction?] at h
    · cases h
      rw [fraction?]
      exact append_ne_cons ends (.inl rfl) none
    · exact none

theorem stable_power? : Stable power? := by
  intro s x y more ends h
  cases s with
  | nil => cases h
  | cons c s =>
    by_cases plus : c = '+'
    · subst c
      exact stable_digits?.mark '+' s x y more ends h
    by_cases minus : c = '-'
    · subst c
      exact stable_digits?.mark '-' s x y more ends h
    have step : ∀ s, power? (c :: s) = digits? (c :: s) := by
      intro s
      rw [power?]
      · exact fun _ same ↦ plus (List.cons.inj same).1
      · exact fun _ same ↦ minus (List.cons.inj same).1
    rw [step] at h
    rw [List.cons_append, step]
    exact stable_digits? _ x y more ends h

theorem stable_exponent? : Stable exponent? := by
  intro s x y more ends h
  by_cases small : ∃ rest, s = 'e' :: rest
  · obtain ⟨rest, rfl⟩ := small
    exact stable_power?.mark 'e' rest x y more ends h
  by_cases great : ∃ rest, s = 'E' :: rest
  · obtain ⟨rest, rfl⟩ := great
    exact stable_power?.mark 'E' rest x y more ends h
  have noSmall : ∀ rest, s ≠ 'e' :: rest := fun rest same ↦ small ⟨rest, same⟩
  have noGreat : ∀ rest, s ≠ 'E' :: rest := fun rest same ↦ great ⟨rest, same⟩
  rw [exponent?] at h
  · cases h
    rw [exponent?]
    · exact append_ne_cons ends (.inr (.inl rfl)) noSmall
    · exact append_ne_cons ends (.inr (.inr rfl)) noGreat
  · exact noSmall
  · exact noGreat

theorem stable_unsigned? : Stable unsigned? := by
  intro s x y more ends h
  simp only [unsigned?, Option.bind_eq_bind, Option.bind_eq_some_iff] at h
  obtain ⟨⟨whole, s₁⟩, hwhole, ⟨fraction, s₂⟩, hfraction, ⟨exponent, s₃⟩, hexponent, h⟩ := h
  cases h
  simp [unsigned?, stable_whole? _ _ _ more ends hwhole,
    stable_fraction? _ _ _ more ends hfraction, stable_exponent? _ _ _ more ends hexponent]

/-- **A number is read up to where it ends.** -/
theorem stable_number? : Stable number? := by
  intro s x y more ends h
  cases s with
  | nil => cases h
  | cons c s =>
    by_cases minus : c = '-'
    · subst c
      exact stable_unsigned?.mark '-' s x y more ends h
    · have step : ∀ s, number? (c :: s) = unsigned? (c :: s) := by
        intro s
        rw [number?]
        exact fun _ same ↦ minus (List.cons.inj same).1
      rw [step] at h
      rw [List.cons_append, step]
      exact stable_unsigned? _ x y more ends h

/-! ### Whole numbers -/

theorem toDigits_ne_zero_cons {n : Nat} (positive : 0 < n) (rest : List Char) :
    Nat.toDigits 10 n ≠ '0' :: rest := by
  induction n using Nat.strongRecOn generalizing rest with
  | ind n ih =>
    by_cases small : n < 10
    · have digit : ∀ m < 10, Nat.digitChar m = '0' → m = 0 := by decide
      rw [Nat.toDigits_of_lt_base small]
      intro same
      have := digit n small (List.cons.inj same).1
      omega
    · have split : Nat.toDigits 10 (n / 10) ++ Nat.toDigits 10 (n % 10) = Nat.toDigits 10 n := by
        rw [Nat.toDigits_append_toDigits (by omega) (by omega) (by omega), Nat.div_add_mod]
      have first := ih (n / 10) (by omega) (by omega)
      rw [← split]
      cases hdigits : Nat.toDigits 10 (n / 10) with
      | nil => exact absurd hdigits Nat.toDigits_ne_nil
      | cons c cs =>
        intro same
        obtain ⟨rfl, -⟩ := List.cons.inj same
        exact first cs hdigits

theorem all_isDigit_toDigits (n : Nat) : ∀ c ∈ Nat.toDigits 10 n, c.isDigit = true :=
  fun _ hc ↦ Nat.isDigit_of_mem_toDigits (by omega) (by omega) hc

theorem unsigned?_toDigits (n : Nat) :
    unsigned? (Nat.toDigits 10 n) = some (Nat.toDigits 10 n, []) := by
  have whole : whole? (Nat.toDigits 10 n) = some (Nat.toDigits 10 n, []) := by
    rcases Nat.eq_zero_or_pos n with rfl | positive
    · rfl
    · have digits := all_isDigit_toDigits n
      have take : (Nat.toDigits 10 n).takeWhile Char.isDigit = Nat.toDigits 10 n :=
        List.takeWhile_eq_self_iff.2 digits
      have drop : (Nat.toDigits 10 n).dropWhile Char.isDigit = [] :=
        List.dropWhile_eq_nil_iff.2 digits
      rw [whole?]
      · cases hdigits : Nat.toDigits 10 n with
        | nil => exact absurd hdigits Nat.toDigits_ne_nil
        | cons c cs =>
          rw [hdigits] at take drop
          simp only [digits?, take, drop]
      · exact toDigits_ne_zero_cons positive
  simp [unsigned?, whole, fraction?, exponent?]

end Token

/-- The characters of a whole number: its digits, behind a sign if it is negative. -/
theorem Numeral.toList_toString (n : Int) :
    (toString n).toList =
      if n < 0 then '-' :: Nat.toDigits 10 n.natAbs else Nat.toDigits 10 n.natAbs := by
  rw [Int.toString_eq_repr, Int.repr_eq_if]
  by_cases negative : n < 0
  · have size : (-n).toNat = n.natAbs := by omega
    rw [if_neg (by omega), if_pos negative, String.toList_append, Nat.toList_repr, size]
    rfl
  · have size : n.toNat = n.natAbs := by omega
    rw [if_pos (by omega), if_neg negative, Nat.toList_repr, size]

/-- A whole number is written as a number. -/
theorem Token.isNumber_int (n : Int) : IsNumber (toString n) := by
  rw [IsNumber, Numeral.toList_toString]
  split
  · rw [number?, unsigned?_toDigits]
    rfl
  · rw [number?]
    · exact unsigned?_toDigits _
    · intro rest same
      have digit := all_isDigit_toDigits n.natAbs '-' (same ▸ List.mem_cons_self)
      exact absurd digit (by decide)

/-- Digits are no sign. -/
theorem Numeral.unsign_of_digits {s : List Char} (digits : ∀ c ∈ s, c.isDigit = true) :
    unsign s = (false, s) := by
  rw [unsign]
  · rintro rest rfl
    exact absurd (digits '-' List.mem_cons_self) (by decide)
  · rintro rest rfl
    exact absurd (digits '+' List.mem_cons_self) (by decide)

/-- A whole number is the one that its text says. -/
theorem Numeral.int?_toString (n : Int) : int? (toString n) = some n := by
  have digits := Token.all_isDigit_toDigits n.natAbs
  have all : (Nat.toDigits 10 n.natAbs).all Char.isDigit = true := List.all_eq_true.2 digits
  have value : ofDigits (Nat.toDigits 10 n.natAbs) = n.natAbs := by
    rw [ofDigits, List.filter_eq_self.2 digits, Nat.ofDigitChars_ten_toDigits]
  rw [int?, toList_toString]
  by_cases negative : n < 0
  · have nonzero : n.natAbs ≠ 0 := by omega
    simp only [if_pos negative, unsign, all, value, if_true, if_neg nonzero]
    congr 1
    omega
  · simp only [if_neg negative, unsign_of_digits digits, all, value, if_true, Bool.false_eq_true,
      if_false]
    congr 1
    omega

namespace Token

/-! ### The tokens of a text -/

private theorem first?_of_number? {s x y : List Char} (h : number? s = some (x, y)) :
    first? s = some (.number (String.ofList x), y) := by
  -- No number starts with the first character of another token.
  have others : ∀ {s : List Char}, number? s = none → number? s ≠ some (x, y) := by
    intro s none found
    cases none.symm.trans found
  unfold first?
  split
  all_goals first
    | exact absurd h (others rfl)
    | simp [h]

/-- **A token is read back**; what follows a number must end it. -/
theorem first?_text {t : Token} {s : List Char}
    (number : ∀ text, t = .number text → IsNumber text ∧ Ends s) :
    first? (t.text.toList ++ s) = some (t, s) := by
  cases t with
  | number text =>
    obtain ⟨isNumber, ends⟩ := number text rfl
    rw [Token.text, first?_of_number? (stable_number? _ _ _ s ends isNumber), String.ofList_toList,
      List.nil_append]
  | string text =>
    have quoted : (quoted text).toList ++ s =
        '"' :: (text.toList.flatMap (fun c ↦ (escape c).toList) ++ '"' :: s) := by
      simp [quoted, String.toList_join, List.flatMap_map]
    rw [Token.text, quoted, first?, units?_flatMap]
    simp [ofUnits_toNat]
  | bool b => cases b <;> rfl
  | _ => rfl

/-- Blanks are not the start of a token. -/
private theorem dropWhile_of_first? {s : List Char} {r : Token × List Char}
    (h : first? s = some r) : ∃ c cs, s = c :: cs ∧ s.dropWhile isSpace = s := by
  cases s with
  | nil => cases h
  | cons c cs =>
    refine ⟨c, cs, rfl, ?_⟩
    by_cases space : isSpace c = true
    · simp only [isSpace, Bool.or_eq_true, decide_eq_true_eq] at space
      rcases space with ((rfl | rfl) | rfl) | rfl <;> cases h
    · rw [List.dropWhile_cons_of_neg space]

private theorem text_ne_nil {t : Token} (number : ∀ text, t = .number text → IsNumber text) :
    t.text.toList ≠ [] := by
  cases t with
  | number text =>
    have isNumber := number text rfl
    intro empty
    rw [IsNumber, show text.toList = [] from empty] at isNumber
    cases isNumber
  | string text => simp [Token.text, quoted]
  | bool b => cases b <;> decide
  | _ => decide

/-- The text is split into the tokens, whatever else there is to be read. -/
def Splits (s : List Char) (ts : List Token) : Prop :=
  ts.length ≤ s.length ∧ ∀ fuel, ts.length ≤ fuel → split? fuel s = some ts

theorem splits_nil : Splits [] [] := by
  refine ⟨Nat.le_refl 0, fun fuel _ ↦ ?_⟩
  cases fuel <;> rfl

/-- **One token more** before a text. -/
theorem Splits.cons {t : Token} {s : List Char} {ts : List Token} (h : Splits s ts)
    (number : ∀ text, t = .number text → IsNumber text ∧ Ends s) :
    Splits (t.text.toList ++ s) (t :: ts) := by
  have first := first?_text number
  obtain ⟨c, cs, same, blank⟩ := dropWhile_of_first? first
  obtain ⟨short, split⟩ := h
  constructor
  · have positive := List.length_pos_iff.2 (text_ne_nil fun text same ↦ (number text same).1)
    rw [List.length_append, List.length_cons]
    omega
  · intro fuel enough
    cases fuel with
    | zero => exact absurd enough (by simp)
    | succ fuel =>
      have rest := split fuel (by simpa using enough)
      rw [same] at blank first ⊢
      unfold split?
      rw [blank]
      simp [first, rest]

theorem Splits.all? {s : List Char} {ts : List Token} (h : Splits s ts) : all? s = some ts :=
  h.2 _ h.1

end Token

end Annotations
