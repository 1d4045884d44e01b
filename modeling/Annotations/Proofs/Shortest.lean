import Annotations.Binary.Shortest
import Mathlib.Algebra.Order.Field.Power
import Mathlib.Data.Rat.Defs
import Mathlib.Tactic.FieldSimp
import Mathlib.Tactic.Linarith
import Mathlib.Tactic.LinearCombination
import Mathlib.Tactic.NormNum
import Mathlib.Tactic.Positivity
import Mathlib.Tactic.Ring

/-!
# The shortest decimal tells a number from all others

The digits of a finite number are searched for on coarser and then on finer grids. Two things have
to be seen for a reader to know the number from them.

* The search ends with **a decimal in the interval of the number**
  (`Precision.contains_shortest`). The last grid of the twenty-two is finer than the distance from
  the number to the upper end of its interval, which takes `10 ^ 3 ≤ 2 ^ 10` and `2 ^ 33 ≤ 10 ^ 10`
  (`ten_zpow_lt_two_zpow`). So the search never comes to its end without a point.
* **The intervals of two numbers are apart** (`Precision.Canonical.eq_of_contains`). Where two of
  them meet, the ends do not belong to both, since the significands of neighbours are not both even.

The exact arithmetic of the search is that of the rationals, in which all of this is said.
-/

namespace Annotations

/-- The number that a decimal stands for. -/
def Decimal.value (x : Decimal) : ℚ := x.digits * 10 ^ x.exponent

/-- Zeros at the end of the digits can as well be in the exponent. -/
theorem Decimal.value_mul_pow (d n : Nat) (e : Int) :
    (Decimal.mk (d * 10 ^ n) e).value = (Decimal.mk d (e + n)).value := by
  rw [value, value, zpow_add₀ (by norm_num), zpow_natCast]
  push_cast
  ring

theorem Decimal.value_dropZeros (fuel : Nat) (x : Decimal) :
    (dropZeros fuel x).value = x.value := by
  induction fuel generalizing x with
  | zero => rfl
  | succ n ih =>
    rw [dropZeros]
    split
    · next zero =>
      have moved := value_mul_pow (x.digits / 10) 1 x.exponent
      rw [Nat.pow_one, Nat.div_mul_cancel (Nat.dvd_of_mod_eq_zero zero)] at moved
      exact (ih _).trans moved.symm
    · rfl

/-! ### Points of a grid -/

namespace Interval

variable (i : Interval) {grid : Int} {a d : Nat}

/-- The number lies in the interval. -/
def Contains (x : ℚ) : Prop :=
  if i.closed then i.low * 2 ^ i.unit ≤ x ∧ x ≤ i.high * 2 ^ i.unit
  else i.low * 2 ^ i.unit < x ∧ x < i.high * 2 ^ i.unit

variable {i} in
/-- The ends are not behind the number, and not even at the number if they do not belong to the
interval. -/
theorem Contains.bounds {x : ℚ} (h : i.Contains x) :
    i.low * 2 ^ i.unit ≤ x ∧ x ≤ i.high * 2 ^ i.unit ∧
      (i.closed = false → i.low * 2 ^ i.unit < x ∧ x < i.high * 2 ^ i.unit) := by
  rw [Contains] at h
  split at h
  · next closed => exact ⟨h.1, h.2, by simp [closed]⟩
  · exact ⟨h.1.le, h.2.le, fun _ ↦ h⟩

theorem denominator_pos (grid : Int) : 0 < i.denominator grid := by
  rw [denominator, Nat.shiftLeft_eq]
  exact Nat.mul_pos (Nat.pow_pos (by omega)) (Nat.pow_pos (by omega))

theorem numerator_pos (grid : Int) : 0 < i.numerator grid := by
  rw [numerator, Nat.shiftLeft_eq]
  exact Nat.mul_pos (Nat.pow_pos (by omega)) (Nat.pow_pos (by omega))

/-- A power as the ratio of two natural numbers, of which one is `1`. -/
private theorem pow_toNat {b : ℚ} (hb : b ≠ 0) (n : Int) :
    b ^ n.toNat = b ^ (-n).toNat * b ^ n := by
  rw [← zpow_natCast, ← zpow_natCast, ← zpow_add₀ hb]
  congr 1
  omega

/-- The spacing of the grid is to the unit as the two natural numbers are. -/
private theorem numerator_mul (grid : Int) :
    (i.numerator grid : ℚ) * 2 ^ i.unit = i.denominator grid * 10 ^ grid := by
  have ten := pow_toNat (b := 10) (by norm_num) grid
  have two := pow_toNat (b := 2) (by norm_num) i.unit
  have numerator : (i.numerator grid : ℚ) = 10 ^ grid.toNat * 2 ^ (-i.unit).toNat := by
    rw [numerator, Nat.shiftLeft_eq]
    exact_mod_cast rfl
  have denominator : (i.denominator grid : ℚ) = 10 ^ (-grid).toNat * 2 ^ i.unit.toNat := by
    rw [Interval.denominator, Nat.shiftLeft_eq]
    exact_mod_cast rfl
  rw [numerator, denominator, ten, two]
  ring

/-- **The exact arithmetic of the search** is that of the rationals on another scale: there are
points of the grid on one side, and whole numbers of units on the other. -/
theorem exists_scale (grid : Int) : ∃ c : ℚ, 0 < c ∧
    (∀ d : Nat, ((d * i.numerator grid : Nat) : ℚ) = c * (d * 10 ^ grid)) ∧
    ∀ a : Nat, ((a * i.denominator grid : Nat) : ℚ) = c * (a * 2 ^ i.unit) := by
  have unit : (0 : ℚ) < 2 ^ i.unit := by positivity
  have positive : (0 : ℚ) < i.denominator grid := by exact_mod_cast i.denominator_pos grid
  refine ⟨i.denominator grid / 2 ^ i.unit, by positivity, fun d ↦ ?_, fun a ↦ ?_⟩
  · have spacing := i.numerator_mul grid
    rw [Nat.cast_mul]
    field_simp
    linear_combination (d : ℚ) * spacing
  · rw [Nat.cast_mul]
    field_simp

/-- The point is in the interval exactly if the number that it stands for is. -/
theorem holds_iff : i.holds grid d = true ↔ i.Contains (d * 10 ^ grid) := by
  obtain ⟨c, positive, point, units⟩ := i.exists_scale grid
  have le (x y : Nat) : x ≤ y ↔ (x : ℚ) ≤ y := Nat.cast_le.symm
  have lt (x y : Nat) : x < y ↔ (x : ℚ) < y := Nat.cast_lt.symm
  simp only [holds, Contains]
  split
  · simp only [Bool.and_eq_true, decide_eq_true_eq, le, point, units, mul_le_mul_iff_right₀ positive]
  · simp only [Bool.and_eq_true, decide_eq_true_eq, lt, point, units, mul_lt_mul_iff_right₀ positive]

/-- What is found on a grid is in the interval. -/
theorem holds_of_nearest? (h : i.nearest? grid = some d) : i.holds grid d = true := by
  simp only [nearest?] at h
  split at h
  · cases h
  · next below _ =>
    cases h
    exact below
  · next _ above =>
    cases h
    exact above
  · next below above =>
    split at h
    · cases h
      exact below
    · cases h
      exact above

/-- Something is found on a grid that is finer than the distance from the value to the upper end:
the next point above the value is not yet behind the end. -/
theorem exists_nearest? (low : i.low ≤ i.value)
    (fine : (10 : ℚ) ^ grid < ((i.high - i.value : Nat) : ℚ) * 2 ^ i.unit) :
    ∃ d, i.nearest? grid = some d := by
  obtain ⟨c, positive, point, units⟩ := i.exists_scale grid
  have spacing : 1 * i.numerator grid < (i.high - i.value) * i.denominator grid := by
    rw [← Nat.cast_lt (α := ℚ), point, units, mul_lt_mul_iff_right₀ positive]
    simpa using fine
  have ordered : i.value ≤ i.high := by
    by_contra less
    rw [Nat.sub_eq_zero_of_le (by omega), Nat.zero_mul] at spacing
    omega
  have upper : i.value * i.denominator grid + (i.high - i.value) * i.denominator grid =
      i.high * i.denominator grid := by
    rw [← Nat.add_mul, Nat.add_sub_cancel' ordered]
  have lower : i.low * i.denominator grid ≤ i.value * i.denominator grid :=
    Nat.mul_le_mul_right _ low
  have before := Nat.div_mul_le_self (i.value * i.denominator grid) (i.numerator grid)
  have behind := Nat.lt_div_mul_add (a := i.value * i.denominator grid) (i.numerator_pos grid)
  have above : i.holds grid (i.value * i.denominator grid / i.numerator grid + 1) = true := by
    simp only [holds, Nat.add_mul]
    split
    · simp only [Bool.and_eq_true, decide_eq_true_eq]
      omega
    · simp only [Bool.and_eq_true, decide_eq_true_eq]
      omega
  simp only [nearest?, above]
  split
  · contradiction
  · exact ⟨_, rfl⟩
  · exact ⟨_, rfl⟩
  · split <;> exact ⟨_, rfl⟩

end Interval

/-! ### The search -/

/-- A power of ten is below a power of two, by the ratios of small exponents: `3` to `10`, and for
negative exponents `10` to `33`. -/
theorem ten_zpow_lt_two_zpow {g m : Int} (above : 10 * g < 3 * m) (below : 33 * g < 10 * m) :
    (10 : ℚ) ^ g < 2 ^ m := by
  have two : (1 : ℚ) < 2 := by norm_num
  rcases Int.le_total 0 g with positive | negative
  · refine lt_of_pow_lt_pow_left₀ 3 (by positivity) ?_
    calc ((10 : ℚ) ^ g) ^ 3 = 1000 ^ g := by
          rw [← zpow_natCast, ← zpow_mul, mul_comm, zpow_mul]
          norm_num
      _ ≤ 1024 ^ g := zpow_le_zpow_left₀ positive (by norm_num) (by norm_num)
      _ = 2 ^ (10 * g) := by
          rw [zpow_mul]
          norm_num
      _ < 2 ^ (3 * m) := zpow_lt_zpow_right₀ two above
      _ = (2 ^ m) ^ 3 := by
          rw [← zpow_natCast, ← zpow_mul, mul_comm]
          norm_num
  · refine lt_of_pow_lt_pow_left₀ 10 (by positivity) ?_
    calc ((10 : ℚ) ^ g) ^ 10 = ((10 ^ 10) ^ (-g))⁻¹ := by
          rw [← zpow_natCast, ← zpow_mul, mul_comm, zpow_mul, zpow_neg, inv_inv]
          norm_num
      _ ≤ ((2 ^ 33) ^ (-g))⁻¹ := by
          gcongr
          exact zpow_le_zpow_left₀ (by omega) (by norm_num) (by norm_num)
      _ = 2 ^ (33 * g) := by
          rw [zpow_neg, inv_inv, zpow_mul]
          norm_num
      _ < 2 ^ (10 * m) := zpow_lt_zpow_right₀ two below
      _ = (2 ^ m) ^ 10 := by
          rw [← zpow_natCast, ← zpow_mul, mul_comm]
          norm_num

namespace Precision

variable {p : Precision} {s s' : Nat} {e e' : Int}

theorem fractions_pos (p : Precision) : 0 < p.fractions := by
  rw [fractions, Nat.shiftLeft_eq, Nat.one_mul]
  exact Nat.pow_pos (by omega)

/-- The numbers of the precision have as many digits, and are as large and as small, as the steps
of the search are enough for. -/
structure Moderate (p : Precision) : Prop where
  digits : p.fractionBits ≤ 52
  small : -1100 ≤ p.leastExponent
  large : p.leastExponent + p.topField ≤ 1000

theorem moderate_single : single.Moderate := by
  constructor <;> decide

theorem moderate_double : double.Moderate := by
  constructor <;> decide

/-- The significand and the exponent are those of a finite number: the significand is large, but for
the numbers near zero, which have the least exponent. -/
structure Canonical (p : Precision) (s : Nat) (e : Int) : Prop where
  bound : s < 2 * p.fractions
  least : p.leastExponent ≤ e
  normal : p.leastExponent < e → p.fractions ≤ s
  top : e < p.leastExponent + p.topField

private theorem log2_le (moderate : p.Moderate) (canonical : p.Canonical s e) : s.log2 ≤ 52 := by
  have digits := moderate.digits
  have bound : s < 2 ^ 53 := by
    refine canonical.bound.trans_le ?_
    rw [fractions, Nat.shiftLeft_eq, Nat.one_mul, ← Nat.pow_succ']
    exact Nat.pow_le_pow_right (by omega) (by omega)
  by_cases zero : s = 0
  · subst zero
    decide
  · exact Nat.lt_succ_iff.1 ((Nat.log2_lt zero).2 bound)

/-- The last grid of the search is finer than half the distance between two numbers. -/
private theorem last_grid_lt (moderate : p.Moderate) (canonical : p.Canonical s e) :
    (10 : ℚ) ^ (coarseGrid s e - 21) < 2 * 2 ^ (e - 2) := by
  have digits := log2_le moderate canonical
  obtain ⟨-, least, -, top⟩ := canonical
  obtain ⟨-, small, large⟩ := moderate
  have coarse : coarseGrid s e = (s.log2 + e + 1) * 30103 / 100000 + 1 := by
    rw [coarseGrid, Int.fdiv_eq_ediv_of_nonneg _ (by norm_num)]
  have half : (2 : ℚ) * 2 ^ (e - 2) = 2 ^ (e - 1) := by
    rw [← zpow_one_add₀ (by norm_num)]
    congr 1
    omega
  rw [half, coarse]
  exact ten_zpow_lt_two_zpow (by omega) (by omega)

/-- **The shortest decimal is in the interval of its number.** -/
theorem contains_shortest (moderate : p.Moderate) (canonical : p.Canonical s e) :
    (p.interval s e).Contains (p.shortest s e).value := by
  have last : ∃ d, (p.interval s e).nearest? (coarseGrid s e - 21) = some d := by
    have half : (p.interval s e).high - (p.interval s e).value = 2 :=
      Nat.add_sub_cancel_left _ _
    refine (p.interval s e).exists_nearest? (Nat.sub_le _ _) ?_
    rw [half]
    exact last_grid_lt moderate canonical
  obtain ⟨d, last⟩ := last
  rw [shortest, Decimal.value_dropZeros]
  generalize search : (List.range 22).findSome? _ = found
  cases found with
  | none =>
    have none := List.findSome?_eq_none_iff.1 search 21 (by simp)
    simp [last] at none
  | some x =>
    obtain ⟨n, -, step⟩ := List.exists_of_findSome?_eq_some search
    obtain ⟨d, nearest, rfl⟩ := Option.map_eq_some_iff.1 step
    exact (p.interval s e).holds_iff.1 (Interval.holds_of_nearest? _ nearest)

/-! ### Intervals are apart -/

/-- Of two numbers, the upper end of the smaller one's interval is not above the lower end of the
other's, and it is below that end if both of them belong to the intervals. Here the smaller number is
taken to the units of the other one, of which it has at least one and, if its exponent is less, at
least two. -/
private theorem exists_units (canonical : p.Canonical s e) (canonical' : p.Canonical s' e')
    (before : e < e' ∨ e = e' ∧ s < s') : ∃ k : Nat, (k : ℚ) * 2 ^ (e - 2) ≤ 2 ^ (e' - 2) ∧
      (p.interval s e).high ≤ k * (p.interval s' e').low ∧
      (s % 2 = 0 → s' % 2 = 0 → (p.interval s e).high < k * (p.interval s' e').low) := by
  have bound := canonical.bound
  simp only [interval]
  rcases before with less | ⟨rfl, less⟩
  · have normal := canonical'.normal (canonical.least.trans_lt less)
    have narrow : decide (p.leastExponent < e') = true := by
      simpa using canonical.least.trans_lt less
    have low : 4 * p.fractions - 1 ≤
        4 * s' - if (s' == p.fractions && decide (p.leastExponent < e')) = true then 1 else 2 := by
      rw [narrow, Bool.and_true]
      split
      · next same =>
        rw [eq_of_beq same]
      · next other =>
        have other : s' ≠ p.fractions := fun same ↦ other (by simp [same])
        omega
    refine ⟨2, ?_, by omega, by omega⟩
    rw [Nat.cast_ofNat, ← zpow_one_add₀ (by norm_num)]
    exact zpow_le_zpow_right₀ (by norm_num) (by omega)
  · have low : 4 * s' - 2 ≤
        4 * s' - if (s' == p.fractions && decide (p.leastExponent < e)) = true then 1 else 2 := by
      split <;> omega
    exact ⟨1, by simp, by omega, by omega⟩

private theorem not_contains (canonical : p.Canonical s e) (canonical' : p.Canonical s' e')
    (before : e < e' ∨ e = e' ∧ s < s') {x : ℚ} (left : (p.interval s e).Contains x)
    (right : (p.interval s' e').Contains x) : False := by
  obtain ⟨k, unit, le, lt⟩ := exists_units canonical canonical' before
  obtain ⟨-, above, strict⟩ := left.bounds
  obtain ⟨below, -, strict'⟩ := right.bounds
  have positive : (0 : ℚ) < 2 ^ (e - 2) := by positivity
  have scaled : (k : ℚ) * (p.interval s' e').low * 2 ^ (e - 2) ≤
      (p.interval s' e').low * 2 ^ (e' - 2) := by
    rw [mul_right_comm, mul_comm _ ((p.interval s' e').low : ℚ)]
    gcongr
  have le : ((p.interval s e).high : ℚ) * 2 ^ (e - 2) ≤
      (k : ℚ) * (p.interval s' e').low * 2 ^ (e - 2) := by
    gcongr
    exact_mod_cast le
  change x ≤ _ * 2 ^ (e - 2) at above
  change _ * 2 ^ (e' - 2) ≤ x at below
  by_cases even : s % 2 = 0
  · by_cases even' : s' % 2 = 0
    · have lt : ((p.interval s e).high : ℚ) * 2 ^ (e - 2) <
          (k : ℚ) * (p.interval s' e').low * 2 ^ (e - 2) := by
        gcongr
        exact_mod_cast lt even even'
      linarith
    · have below := (strict' (by simpa [interval] using even')).1
      change _ * 2 ^ (e' - 2) < x at below
      linarith
  · have above := (strict (by simpa [interval] using even)).2
    change x < _ * 2 ^ (e - 2) at above
    linarith

/-- **A decimal is in the interval of one number only.** -/
theorem Canonical.eq_of_contains (canonical : p.Canonical s e) (canonical' : p.Canonical s' e')
    {x : ℚ} (left : (p.interval s e).Contains x) (right : (p.interval s' e').Contains x) :
    s = s' ∧ e = e' := by
  rcases Int.lt_trichotomy e e' with less | rfl | greater
  · exact (not_contains canonical canonical' (.inl less) left right).elim
  · rcases Nat.lt_trichotomy s s' with less | rfl | greater
    · exact (not_contains canonical canonical' (.inr ⟨rfl, less⟩) left right).elim
    · exact ⟨rfl, rfl⟩
    · exact (not_contains canonical' canonical (.inr ⟨rfl, greater⟩) right left).elim
  · exact (not_contains canonical' canonical (.inl greater) right left).elim

/-! ### The decimal that is written -/

/-- The shortest decimal of a number other than zero is positive, as its interval is. -/
private theorem shortest_pos (moderate : p.Moderate) (canonical : p.Canonical s e)
    (nonzero : s ≠ 0) : 0 < (p.shortest s e).value := by
  obtain ⟨lower, -, -⟩ := (contains_shortest moderate canonical).bounds
  have low : 0 < (p.interval s e).low := by
    simp only [interval]
    split <;> omega
  refine lt_of_lt_of_le ?_ lower
  positivity

theorem digits_shortest_pos (moderate : p.Moderate) (canonical : p.Canonical s e)
    (nonzero : s ≠ 0) : 0 < (p.shortest s e).digits := by
  have positive := shortest_pos moderate canonical nonzero
  refine Nat.pos_of_ne_zero fun zero ↦ ?_
  rw [Decimal.value, zero] at positive
  simp at positive

/-- The decimal that a finite number is written as, without its sign. -/
def written (p : Precision) (s : Nat) (e : Int) : ℚ :=
  if s = 0 then 0 else (p.shortest s e).value

/-- There is one zero of each sign. -/
private theorem Canonical.exponent_of_zero (canonical : p.Canonical 0 e) : e = p.leastExponent := by
  have positive := p.fractions_pos
  obtain ⟨-, least, normal, -⟩ := canonical
  by_contra other
  have large := normal (by omega)
  omega

/-- **A finite number is known from the decimal that is written.** -/
theorem eq_of_written (moderate : p.Moderate) (canonical : p.Canonical s e)
    (canonical' : p.Canonical s' e') (same : p.written s e = p.written s' e') :
    s = s' ∧ e = e' := by
  rw [written, written] at same
  split at same
  · next zero =>
    split at same
    · next zero' =>
      subst zero zero'
      exact ⟨rfl, canonical.exponent_of_zero.trans canonical'.exponent_of_zero.symm⟩
    · next nonzero =>
      exact absurd same (shortest_pos moderate canonical' nonzero).ne
  · next nonzero =>
    split at same
    · exact absurd same (shortest_pos moderate canonical nonzero).ne'
    · refine canonical.eq_of_contains canonical' (contains_shortest moderate canonical) ?_
      rw [same]
      exact contains_shortest moderate canonical'

/-! ### Patterns -/

variable {bits bits' : Nat} {negative : Bool}

/-- **The patterns of finite numbers**: the exponent field is not the top one; and it is `0` for the
numbers near zero, and else stands for a further bit of the significand. -/
theorem decode_eq_finite_iff : p.decode bits = .finite negative s e ↔
    bits / p.fractions % (p.topField + 1) ≠ p.topField ∧
    negative = (bits / p.fractions / (p.topField + 1) % 2 == 1) ∧
    (bits / p.fractions % (p.topField + 1) = 0 ∧ s = bits % p.fractions ∧ e = p.leastExponent ∨
      bits / p.fractions % (p.topField + 1) ≠ 0 ∧ s = p.fractions + bits % p.fractions ∧
        e = p.leastExponent + (bits / p.fractions % (p.topField + 1) - 1 : Nat)) := by
  simp only [decode]
  split
  · next top =>
    split <;> simp [top]
  · next top =>
    split
    · next zero =>
      simp only [Magnitude.finite.injEq, zero, ne_eq, not_true_eq_false, false_and, or_false,
        true_and]
      constructor
      · rintro ⟨rfl, rfl, rfl⟩
        exact ⟨zero ▸ top, rfl, rfl, rfl⟩
      · rintro ⟨-, rfl, rfl, rfl⟩
        exact ⟨rfl, rfl, rfl⟩
    · next zero =>
      simp only [Magnitude.finite.injEq, zero, top, ne_eq, not_false_eq_true, false_and, false_or,
        true_and]
      constructor
      · rintro ⟨rfl, rfl, rfl⟩
        exact ⟨rfl, rfl, rfl⟩
      · rintro ⟨rfl, rfl, rfl⟩
        exact ⟨rfl, rfl, rfl⟩

theorem canonical_of_decode (h : p.decode bits = .finite negative s e) : p.Canonical s e := by
  obtain ⟨top, -, fields⟩ := decode_eq_finite_iff.1 h
  have fraction := Nat.mod_lt bits p.fractions_pos
  have field := Nat.mod_lt (bits / p.fractions) (by omega : 0 < p.topField + 1)
  rcases fields with ⟨zero, rfl, rfl⟩ | ⟨nonzero, rfl, rfl⟩
  · exact ⟨by omega, by omega, by omega, by omega⟩
  · exact ⟨by omega, by omega, by omega, by omega⟩

/-- **A finite number has one pattern**, of the bits that there are. -/
theorem eq_of_decode (small : bits < 2 * (p.topField + 1) * p.fractions)
    (small' : bits' < 2 * (p.topField + 1) * p.fractions)
    (h : p.decode bits = .finite negative s e) (h' : p.decode bits' = .finite negative s e) :
    bits = bits' := by
  obtain ⟨-, sign, fields⟩ := decode_eq_finite_iff.1 h
  obtain ⟨-, sign', fields'⟩ := decode_eq_finite_iff.1 h'
  have fraction := Nat.mod_lt bits p.fractions_pos
  have fraction' := Nat.mod_lt bits' p.fractions_pos
  have two {b : Nat} (small : b < 2 * (p.topField + 1) * p.fractions) :
      b / p.fractions / (p.topField + 1) < 2 := by
    rw [Nat.div_div_eq_div_mul, Nat.div_lt_iff_lt_mul (Nat.mul_pos p.fractions_pos (by omega))]
    rwa [Nat.mul_comm p.fractions, ← Nat.mul_assoc]
  have signs : bits / p.fractions / (p.topField + 1) = bits' / p.fractions / (p.topField + 1) := by
    have first := two small
    have second := two small'
    rw [sign, Bool.eq_iff_iff, beq_iff_eq, beq_iff_eq] at sign'
    generalize bits / p.fractions / (p.topField + 1) = a at *
    generalize bits' / p.fractions / (p.topField + 1) = a' at *
    omega
  -- With a significand below the fractions both have the field `0`, else none has.
  have same : bits / p.fractions % (p.topField + 1) = bits' / p.fractions % (p.topField + 1) ∧
      bits % p.fractions = bits' % p.fractions := by
    omega
  rw [← Nat.div_add_mod bits p.fractions, ← Nat.div_add_mod bits' p.fractions,
    ← Nat.div_add_mod (bits / p.fractions) (p.topField + 1),
    ← Nat.div_add_mod (bits' / p.fractions) (p.topField + 1), signs, same.1, same.2]

end Precision

end Annotations
