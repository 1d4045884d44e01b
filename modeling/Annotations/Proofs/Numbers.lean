import Annotations.Binary.Text
import Annotations.Proofs.Shortest
import Annotations.Proofs.Tokens

/-!
# The texts of numbers

A finite number is written in one of four layouts. All of them are digits, digits behind a point and
an exponent, of which the last two may be missing (`Spelling`). So what is asked of a text is proved
once:

* it is a number that is read up to its end (`Spelling.Sound.number?`);
* the sign and the decimal that are read from it are those that were written
  (`Spelling.Sound.read`).

Since the shortest decimal is in the interval of one number only, **a finite number is known from
its text** (`Precision.eq_of_written?`), down to the sign of a zero. Numbers that are not finite have
no text.
-/

namespace Annotations

/-! ### Digits -/

namespace Numeral

theorem ofDigits_append {l m : List Char} (digits : ∀ c ∈ m, c.isDigit = true) :
    ofDigits (l ++ m) = ofDigits l * 10 ^ m.length + ofDigits m := by
  rw [ofDigits, List.filter_append, Nat.ofDigitChars_append,
    Nat.ofDigitChars_eq_ofDigitChars_zero, List.filter_eq_self.2 digits, Nat.mul_comm, ofDigits,
    ofDigits, List.filter_eq_self.2 digits]

theorem ofDigits_toDigits (n : Nat) : ofDigits (Nat.toDigits 10 n) = n := by
  rw [ofDigits, List.filter_eq_self.2 (Token.all_isDigit_toDigits n), Nat.ofDigitChars_ten_toDigits]

theorem isDigit_of_mem_replicate_zero {n : Nat} {c : Char} (hc : c ∈ List.replicate n '0') :
    c.isDigit = true := by
  rw [List.eq_of_mem_replicate hc]
  rfl

theorem ofDigits_replicate_zero (n : Nat) : ofDigits (List.replicate n '0') = 0 := by
  rw [ofDigits, List.filter_eq_self.2 fun _ ↦ isDigit_of_mem_replicate_zero,
    Nat.ofDigitChars_replicate_zero, Nat.mul_zero]

/-- Zeros at the end move the digits. -/
theorem ofDigits_append_replicate_zero (l : List Char) (n : Nat) :
    ofDigits (l ++ List.replicate n '0') = ofDigits l * 10 ^ n := by
  rw [ofDigits_append fun _ ↦ isDigit_of_mem_replicate_zero, ofDigits_replicate_zero,
    List.length_replicate, Nat.add_zero]

/-- Zeros in front make no difference. -/
theorem ofDigits_dropWhile {l : List Char} (digits : ∀ c ∈ l, c.isDigit = true) :
    ofDigits (l.dropWhile (· == '0')) = ofDigits l := by
  have zeros : l.takeWhile (· == '0') = List.replicate (l.takeWhile (· == '0')).length '0' := by
    refine List.eq_replicate_of_mem fun c hc ↦ ?_
    simpa using List.mem_takeWhile_imp hc
  conv_rhs => rw [← List.takeWhile_append_dropWhile (p := (· == '0')) (l := l), zeros]
  rw [ofDigits_append fun c hc ↦ digits c ((List.dropWhile_sublist _).subset hc),
    ofDigits_replicate_zero, Nat.zero_mul, Nat.zero_add]

/-- What is trimmed are zeros. -/
theorem exists_trimZeros (l : List Char) : ∃ n, l = trimZeros l ++ List.replicate n '0' := by
  refine ⟨(l.reverse.takeWhile (· == '0')).length, ?_⟩
  have zeros : l.reverse.takeWhile (· == '0') =
      List.replicate (l.reverse.takeWhile (· == '0')).length '0' := by
    refine List.eq_replicate_of_mem fun c hc ↦ ?_
    simpa using List.mem_takeWhile_imp hc
  rw [trimZeros, ← List.reverse_replicate, ← zeros, ← List.reverse_append,
    List.takeWhile_append_dropWhile, List.reverse_reverse]

theorem power_toString (n : Int) : power (toString n).toList = n := by
  rw [toList_toString]
  split
  · rw [power, unsign]
    simp only [if_true, ofDigits_toDigits]
    omega
  · rw [power, unsign_of_digits (Token.all_isDigit_toDigits _)]
    simp only [Bool.false_eq_true, if_false, ofDigits_toDigits]
    omega

end Numeral

/-! ### Spelled numbers -/

/-- What a number without its sign is written with: digits before the point, digits behind it and
an exponent. Without digits behind the point there is no point. -/
structure Spelling where
  whole : List Char
  places : List Char
  power : Option Int

namespace Spelling

variable (x : Spelling)

/-- The exponent with its letter. -/
def tail : List Char :=
  match x.power with
  | some n => 'e' :: (toString n).toList
  | none => []

/-- The point and the digits behind it. -/
def fraction : List Char :=
  if x.places = [] then [] else '.' :: x.places

/-- The characters of the number. -/
def characters : List Char :=
  x.whole ++ x.fraction ++ x.tail

/-- The number that is written. -/
def decimal : Decimal :=
  ⟨Numeral.ofDigits (x.whole ++ x.places), x.power.getD 0 - x.places.length⟩

/-- The digits are digits, and those before the point do not start with a needless zero. -/
structure Sound : Prop where
  whole : ∀ c ∈ x.whole, c.isDigit = true
  places : ∀ c ∈ x.places, c.isDigit = true
  start : x.whole = ['0'] ∨ x.whole ≠ [] ∧ ∀ rest, x.whole ≠ '0' :: rest

variable {x}

private theorem digits?_append {ds rest : List Char} (digits : ∀ c ∈ ds, c.isDigit = true)
    (nonempty : ds ≠ []) (stops : ∀ c ∈ rest.head?, c.isDigit = false) :
    Token.digits? (ds ++ rest) = some (ds, rest) := by
  have split : rest.takeWhile Char.isDigit = [] ∧ rest.dropWhile Char.isDigit = rest := by
    cases rest with
    | nil => exact ⟨rfl, rfl⟩
    | cons c rest => simp [stops c rfl]
  rw [Token.digits?, List.takeWhile_append_of_pos digits, List.dropWhile_append_of_pos digits,
    split.1, split.2, List.append_nil]
  cases ds with
  | nil => exact absurd rfl nonempty
  | cons d ds => rfl

private theorem whole?_append (h : x.Sound) {rest : List Char}
    (stops : ∀ c ∈ rest.head?, c.isDigit = false) :
    Token.whole? (x.whole ++ rest) = some (x.whole, rest) := by
  rcases h.start with zero | ⟨nonempty, start⟩
  · rw [zero]
    rfl
  · rw [Token.whole?]
    · exact digits?_append h.whole nonempty stops
    · intro rest' same
      obtain ⟨c, cs, split⟩ := List.exists_cons_of_ne_nil nonempty
      rw [split] at same
      cases same
      exact start cs split

private theorem exponent?_tail (x : Spelling) : Token.exponent? x.tail = some (x.tail, []) := by
  cases power : x.power with
  | none => simp [tail, power, Token.exponent?]
  | some n =>
    have digits : Token.digits? (Nat.toDigits 10 n.natAbs ++ []) = some (_, []) :=
      digits?_append (Token.all_isDigit_toDigits n.natAbs) Nat.toDigits_ne_nil (by simp)
    rw [List.append_nil] at digits
    simp only [tail, power, Token.exponent?, Numeral.toList_toString]
    split
    · simp [Token.power?, digits]
    · rw [Token.power?]
      · simp [digits]
      · intro rest same
        exact absurd (Token.all_isDigit_toDigits n.natAbs '+' (same ▸ List.mem_cons_self)) (by decide)
      · intro rest same
        exact absurd (Token.all_isDigit_toDigits n.natAbs '-' (same ▸ List.mem_cons_self)) (by decide)

private theorem head?_tail (x : Spelling) : ∀ c ∈ x.tail.head?, c = 'e' := by
  cases power : x.power <;> simp [tail, power]

private theorem head?_fraction_tail (x : Spelling) :
    ∀ c ∈ (x.fraction ++ x.tail).head?, c = '.' ∨ c = 'e' := by
  rw [fraction]
  split
  · exact fun c hc ↦ .inr (x.head?_tail c hc)
  · simp

private theorem fraction?_append (h : x.Sound) :
    Token.fraction? (x.fraction ++ x.tail) = some (x.fraction, x.tail) := by
  have head := x.head?_tail
  rw [fraction]
  split
  · rw [List.nil_append, Token.fraction?]
    intro rest same
    rw [same] at head
    simp at head
  · next nonempty =>
    rw [List.cons_append, Token.fraction?, digits?_append h.places nonempty]
    · rfl
    · intro c hc
      rw [head c hc]
      rfl

private theorem Sound.exists_characters (h : x.Sound) :
    ∃ c cs, x.characters = c :: cs ∧ c.isDigit = true := by
  have nonempty : x.whole ≠ [] := by
    rcases h.start with zero | ⟨nonempty, -⟩
    · simp [zero]
    · exact nonempty
  obtain ⟨c, cs, split⟩ := List.exists_cons_of_ne_nil nonempty
  refine ⟨c, cs ++ x.fraction ++ x.tail, ?_, h.whole c (split ▸ List.mem_cons_self)⟩
  rw [characters, split, List.cons_append, List.cons_append]

/-- The characters with a sign. -/
def signed (negative : Bool) (x : Spelling) : List Char :=
  if negative then '-' :: x.characters else x.characters

/-- **A spelled number is a number**, with or without a sign. -/
theorem Sound.number? (h : x.Sound) (negative : Bool) :
    Token.number? (signed negative x) = some (signed negative x, []) := by
  have whole : Token.whole? (x.whole ++ (x.fraction ++ x.tail)) = some (x.whole, _) :=
    whole?_append h fun c hc ↦ by rcases x.head?_fraction_tail c hc with rfl | rfl <;> rfl
  have unsigned : Token.unsigned? x.characters = some (x.characters, []) := by
    rw [characters, Token.unsigned?, List.append_assoc, whole]
    simp [fraction?_append h, exponent?_tail]
  cases negative with
  | true => simp [signed, Token.number?, unsigned]
  | false =>
    obtain ⟨c, cs, start, digit⟩ := h.exists_characters
    rw [signed, if_neg (by simp), Token.number?]
    · exact unsigned
    · intro rest same
      cases start.symm.trans same
      cases digit

private theorem Sound.unsign (h : x.Sound) (negative : Bool) :
    Numeral.unsign (signed negative x) = (negative, x.characters) := by
  cases negative with
  | true => rfl
  | false =>
    obtain ⟨c, cs, start, digit⟩ := h.exists_characters
    rw [signed, if_neg (by simp), Numeral.unsign]
    · intro rest same
      cases start.symm.trans same
      cases digit
    · intro rest same
      cases start.symm.trans same
      cases digit

private theorem mantissa_eq (h : x.Sound) :
    x.characters.takeWhile (!Numeral.isExponentMark ·) = x.whole ++ x.fraction ∧
      x.characters.dropWhile (!Numeral.isExponentMark ·) = x.tail := by
  have digit {c : Char} (hc : c.isDigit = true) : (!Numeral.isExponentMark c) = true := by
    rw [Bool.not_eq_true', Numeral.isExponentMark, Bool.or_eq_false_iff, decide_eq_false_iff_not,
      decide_eq_false_iff_not]
    constructor <;> rintro rfl <;> cases hc
  have mantissa : ∀ c ∈ x.whole ++ x.fraction, (!Numeral.isExponentMark c) = true := by
    intro c hc
    rcases List.mem_append.1 hc with hc | hc
    · exact digit (h.whole c hc)
    · rw [fraction] at hc
      split at hc
      · cases hc
      · rcases List.mem_cons.1 hc with rfl | hc
        · rfl
        · exact digit (h.places c hc)
  have stops : x.tail.takeWhile (!Numeral.isExponentMark ·) = [] ∧
      x.tail.dropWhile (!Numeral.isExponentMark ·) = x.tail := by
    cases power : x.power <;> simp [tail, power, Numeral.isExponentMark]
  rw [characters, List.takeWhile_append_of_pos mantissa, List.dropWhile_append_of_pos mantissa,
    stops.1, stops.2, List.append_nil]
  exact ⟨rfl, rfl⟩

private theorem places_eq (h : x.Sound) :
    (x.whole ++ x.fraction).takeWhile (· != '.') = x.whole ∧
      ((x.whole ++ x.fraction).dropWhile (· != '.')).drop 1 = x.places := by
  have whole : ∀ c ∈ x.whole, (c != '.') = true := by
    intro c hc
    rw [bne_iff_ne]
    rintro rfl
    cases h.whole _ hc
  rw [List.takeWhile_append_of_pos whole, List.dropWhile_append_of_pos whole, fraction]
  split
  · next empty => simp [empty]
  · simp

private theorem power_tail (x : Spelling) : Numeral.power (x.tail.drop 1) = x.power.getD 0 := by
  cases power : x.power with
  | none => simp [tail, power, Numeral.power, Numeral.unsign, Numeral.ofDigits]
  | some n =>
    rw [tail, power]
    exact Numeral.power_toString n

/-- **The number that is spelled is read**: the sign, and the value of the digits and the exponent,
when there is room for all digits. -/
theorem Sound.read (h : x.Sound) {room : Nat} (enough : (x.whole ++ x.places).length ≤ room)
    {negative : Bool} {text : String} (characters : text.toList = signed negative x) :
    ∃ d, Numeral.decimal room text = (negative, d) ∧ d.value = x.decimal.value := by
  obtain ⟨mantissa, tail⟩ := mantissa_eq h
  obtain ⟨whole, places⟩ := places_eq h
  obtain ⟨n, zeros⟩ := Numeral.exists_trimZeros x.places
  have digits : ∀ c ∈ x.whole ++ Numeral.trimZeros x.places, c.isDigit = true := by
    intro c hc
    rcases List.mem_append.1 hc with hc | hc
    · exact h.whole c hc
    · exact h.places c (zeros ▸ List.mem_append_left _ hc)
  have short : ((x.whole ++ Numeral.trimZeros x.places).dropWhile (· == '0')).length ≤ room := by
    have dropped := (List.dropWhile_sublist (· == '0')
      (l := x.whole ++ Numeral.trimZeros x.places)).length_le
    have trimmed := congrArg List.length zeros
    rw [List.length_append] at dropped trimmed enough
    omega
  simp only [Numeral.decimal, characters, h.unsign, mantissa, tail, whole, places, power_tail,
    Numeral.ofLeading, if_pos short]
  refine ⟨_, rfl, ?_⟩
  -- The zeros that were trimmed are in the exponent.
  have length : (x.places.length : Int) = (Numeral.trimZeros x.places).length + n := by
    rw [← List.length_replicate (n := n) (a := '0'), ← Nat.cast_add, ← List.length_append, ← zeros]
  have moved : Numeral.ofDigits (x.whole ++ x.places) =
      Numeral.ofDigits (x.whole ++ Numeral.trimZeros x.places) * 10 ^ n := by
    rw [← Numeral.ofDigits_append_replicate_zero, List.append_assoc, ← zeros]
  rw [decimal, Numeral.ofDigits_dropWhile digits, length, moved, Decimal.value_mul_pow]
  congr 2
  omega

end Spelling

/-! ### The layouts -/

namespace NumberStyle

/-- The text is that of a spelled number, which is the decimal. -/
def Spells (text : String) (x : Decimal) : Prop :=
  ∃ y : Spelling, y.Sound ∧ text.toList = y.characters ∧ y.decimal.value = x.value

section

variable {ds : List Char} (digits : ∀ c ∈ ds, c.isDigit = true) (nonempty : ds ≠ [])
  (start : ∀ rest, ds ≠ '0' :: rest)
include digits nonempty start

private theorem sound_take_drop {n : Nat} (positive : 0 < n) (power : Option Int) :
    Spelling.Sound ⟨ds.take n, ds.drop n, power⟩ := by
  refine ⟨fun c hc ↦ digits c (List.mem_of_mem_take hc),
    fun c hc ↦ digits c (List.mem_of_mem_drop hc), .inr ⟨?_, fun rest same ↦ ?_⟩⟩
  · simp [nonempty, Nat.ne_of_gt positive]
  · refine start (rest ++ ds.drop n) ?_
    rw [← List.cons_append, ← same, List.take_append_drop]

/-- A whole number, with zeros before the point and one behind it. -/
private theorem spells_whole (n : Nat) :
    Spells (String.ofList ds ++ zeros n ++ ".0") ⟨Numeral.ofDigits ds, n⟩ := by
  refine ⟨⟨ds ++ List.replicate n '0', ['0'], none⟩, ⟨fun c hc ↦ ?_, by simp,
    .inr ⟨by simp [nonempty], fun rest same ↦ ?_⟩⟩, ?_, ?_⟩
  · rcases List.mem_append.1 hc with hc | hc
    · exact digits c hc
    · exact Numeral.isDigit_of_mem_replicate_zero hc
  · obtain ⟨c, cs, rfl⟩ := List.exists_cons_of_ne_nil nonempty
    cases same
    exact start cs rfl
  · simp [zeros, Spelling.characters, Spelling.fraction, Spelling.tail]
  · have zeros : ds ++ List.replicate n '0' ++ ['0'] = ds ++ List.replicate (n + 1) '0' := by
      rw [List.replicate_succ', List.append_assoc]
    rw [Spelling.decimal, zeros, Numeral.ofDigits_append_replicate_zero, Decimal.value_mul_pow]
    congr 2
    simp

/-- A point between the digits. -/
private theorem spells_between {n : Nat} (positive : 0 < n) (places : n < ds.length) :
    Spells (pointAfter n ds) ⟨Numeral.ofDigits ds, n - ds.length⟩ := by
  refine ⟨_, sound_take_drop digits nonempty start positive none, ?_, ?_⟩
  · simp [pointAfter, places, Spelling.characters, Spelling.fraction, Spelling.tail]
  · rw [Spelling.decimal, List.take_append_drop, List.length_drop]
    congr 2
    simp only [Option.getD_none]
    omega

omit start in
/-- Zeros between the point and the digits. -/
private theorem spells_small (n : Nat) :
    Spells ("0." ++ zeros n ++ String.ofList ds) ⟨Numeral.ofDigits ds, -(n + ds.length)⟩ := by
  refine ⟨⟨['0'], List.replicate n '0' ++ ds, none⟩, ⟨by simp, fun c hc ↦ ?_, .inl rfl⟩, ?_, ?_⟩
  · rcases List.mem_append.1 hc with hc | hc
    · exact Numeral.isDigit_of_mem_replicate_zero hc
    · exact digits c hc
  · simp [zeros, nonempty, Spelling.characters, Spelling.fraction, Spelling.tail]
  · have zeros : ['0'] ++ (List.replicate n '0' ++ ds) = List.replicate (n + 1) '0' ++ ds := by
      rw [List.replicate_succ]
      rfl
    rw [Spelling.decimal, zeros, Numeral.ofDigits_append digits, Numeral.ofDigits_replicate_zero]
    congr 2
    · omega
    · simp

/-- A point behind the first digit, if there are more, and an exponent. -/
private theorem spells_power (e : Int) :
    Spells ((if ds.length = 1 then String.ofList ds else pointAfter 1 ds) ++ "e" ++ toString e)
      ⟨Numeral.ofDigits ds, e + 1 - ds.length⟩ := by
  have length := List.length_pos_iff.2 nonempty
  refine ⟨_, sound_take_drop digits nonempty start Nat.one_pos (some e), ?_, ?_⟩
  · rw [String.toList_append, String.toList_append]
    split
    · next one =>
      obtain ⟨c, rfl⟩ := List.length_eq_one_iff.1 one
      simp [Spelling.characters, Spelling.fraction, Spelling.tail]
    · next more =>
      have places : ds.tail ≠ [] := by
        rw [← List.length_pos_iff, List.length_tail]
        omega
      simp [pointAfter, places, Spelling.characters, Spelling.fraction, Spelling.tail]
  · rw [Spelling.decimal, List.take_append_drop, List.length_drop]
    congr 2
    simp only [Option.getD_some]
    omega

end

/-- **Every layout spells its decimal.** -/
theorem spells_layout (style : NumberStyle) {x : Decimal} (positive : 0 < x.digits) :
    Spells (style.layout x) x := by
  have digits := Token.all_isDigit_toDigits x.digits
  have start := Token.toDigits_ne_zero_cons positive
  have nonempty : Nat.toDigits 10 x.digits ≠ [] := Nat.toDigits_ne_nil
  have length := List.length_pos_iff.2 nonempty
  have read := Numeral.ofDigits_toDigits x.digits
  obtain ⟨n, e⟩ := x
  simp only [layout] at *
  generalize Nat.toDigits 10 n = ds at *
  subst n
  -- In each layout the exponent is what the place of the point says.
  have exponent {a b : Int} {text : String} (h : Spells text ⟨Numeral.ofDigits ds, a⟩)
      (same : a = b) : Spells text ⟨Numeral.ofDigits ds, b⟩ := same ▸ h
  split
  · split
    · exact exponent (spells_whole digits nonempty start e.toNat) (by omega)
    split
    · exact exponent (spells_between digits nonempty start (Nat.succ_pos _) (by omega)) (by omega)
    · exact exponent (spells_small digits nonempty _) (by omega)
  · exact exponent (spells_power digits nonempty start _) (by omega)

variable {style : NumberStyle} {p : Precision} {s s' : Nat} {e e' : Int} {negative negative' : Bool}

/-- **A finite number is spelled** with its sign: as the shortest decimal, or as zero. -/
theorem exists_spelling (style : NumberStyle) (moderate : p.Moderate)
    (canonical : p.Canonical s e) (negative : Bool) :
    ∃ y : Spelling, y.Sound ∧ (style.finite p negative s e).toList = y.signed negative ∧
      y.decimal.value = p.written s e := by
  have signed {text : String} {y : Spelling} (h : text.toList = y.characters) :
      ((if negative then "-" else "") ++ text).toList = y.signed negative := by
    cases negative <;> simp [Spelling.signed, h]
  rw [finite, Precision.written]
  split
  · have zero : Numeral.ofDigits (['0'] ++ ['0']) = 0 := Numeral.ofDigits_replicate_zero 2
    refine ⟨⟨['0'], ['0'], none⟩, ⟨by simp, by simp, .inl rfl⟩, signed rfl, ?_⟩
    rw [Spelling.decimal, zero, Decimal.value, Nat.cast_zero, zero_mul]
  · next nonzero =>
    obtain ⟨y, sound, text, value⟩ :=
      spells_layout style (Precision.digits_shortest_pos moderate canonical nonzero)
    exact ⟨y, sound, signed text, value⟩

theorem isNumber_finite (style : NumberStyle) (moderate : p.Moderate)
    (canonical : p.Canonical s e) (negative : Bool) :
    Token.IsNumber (style.finite p negative s e) := by
  obtain ⟨y, sound, text, -⟩ := exists_spelling style moderate canonical negative
  rw [Token.IsNumber, text]
  exact sound.number? negative

/-- **A finite number is known from its text.** -/
theorem eq_of_finite (moderate : p.Moderate) (canonical : p.Canonical s e)
    (canonical' : p.Canonical s' e')
    (same : style.finite p negative s e = style.finite p negative' s' e') :
    negative = negative' ∧ s = s' ∧ e = e' := by
  obtain ⟨y, sound, text, value⟩ := exists_spelling style moderate canonical negative
  obtain ⟨y', sound', text', value'⟩ := exists_spelling style moderate canonical' negative'
  obtain ⟨d, read, hd⟩ := sound.read (Nat.le_max_left _ (y'.whole ++ y'.places).length) text
  obtain ⟨d', read', hd'⟩ := sound'.read (Nat.le_max_right (y.whole ++ y.places).length _) text'
  obtain ⟨rfl, rfl⟩ := Prod.mk.inj (read.symm.trans (same ▸ read'))
  refine ⟨rfl, Precision.eq_of_written moderate canonical canonical' ?_⟩
  rw [← value, ← value', ← hd, ← hd']

end NumberStyle

/-! ### Numbers by their bits -/

namespace Precision

variable {p : Precision} {bits bits' : Nat} {text : String}

/-- A number that has a text is finite. -/
private theorem exists_finite (h : (p.decode bits).written? p = some text) :
    ∃ negative s e, p.decode bits = .finite negative s e ∧
      NumberStyle.standard.finite p negative s e = text := by
  cases decoded : p.decode bits with
  | finite negative s e =>
    rw [decoded] at h
    exact ⟨negative, s, e, rfl, Option.some.inj h⟩
  | _ =>
    rw [decoded] at h
    cases h

theorem isNumber_of_written? (moderate : p.Moderate)
    (h : (p.decode bits).written? p = some text) : Token.IsNumber text := by
  obtain ⟨negative, s, e, decoded, rfl⟩ := exists_finite h
  exact NumberStyle.isNumber_finite _ moderate (canonical_of_decode decoded) negative

/-- **Patterns with one text are the same.** -/
theorem eq_of_written? (moderate : p.Moderate)
    (small : bits < 2 * (p.topField + 1) * p.fractions)
    (small' : bits' < 2 * (p.topField + 1) * p.fractions)
    (h : (p.decode bits).written? p = some text) (h' : (p.decode bits').written? p = some text) :
    bits = bits' := by
  obtain ⟨negative, s, e, decoded, rfl⟩ := exists_finite h
  obtain ⟨negative', s', e', decoded', same⟩ := exists_finite h'
  obtain ⟨rfl, rfl, rfl⟩ := NumberStyle.eq_of_finite moderate (canonical_of_decode decoded')
    (canonical_of_decode decoded) same
  exact eq_of_decode small small' decoded decoded'

end Precision

theorem Binary32.eq_of_written? {x y : Binary32} {text : String}
    (hx : x.decode.written? .single = some text) (hy : y.decode.written? .single = some text) :
    x = y := by
  have bits : x.bits.toNat = y.bits.toNat :=
    Precision.eq_of_written? Precision.moderate_single x.bits.toNat_lt y.bits.toNat_lt hx hy
  exact congrArg Binary32.mk (UInt32.toNat_inj.1 bits)

theorem Binary64.eq_of_written? {x y : Binary64} {text : String}
    (hx : x.decode.written? .double = some text) (hy : y.decode.written? .double = some text) :
    x = y := by
  have bits : x.bits.toNat = y.bits.toNat :=
    Precision.eq_of_written? Precision.moderate_double x.bits.toNat_lt y.bits.toNat_lt hx hy
  exact congrArg Binary64.mk (UInt64.toNat_inj.1 bits)

end Annotations
