import Annotations.Binary.Basic

/-!
# The shortest decimal that reads back

Every finite number other than zero is the nearest one to all reals in an interval around it; the
ends belong to the interval when the significand is even. `Precision.shortest` gives the point of
the coarsest decimal grid that has one in that interval; of two such points the nearer, and of two
equally near ones the greater.

All arithmetic is exact, on natural numbers: with the unit `2 ^ (exponent - 2)`, the number is four
times its significand and the ends of its interval are whole.
-/

namespace Annotations

/-- The power of ten with `n` zeros. -/
def powerOfTen (n : Nat) : Nat := Nat.pow 10 n

/-- The number `digits · 10 ^ exponent`. -/
structure Decimal where
  digits : Nat
  exponent : Int
deriving DecidableEq, Repr

/-- Zeros at the end of the digits move into the exponent; there are at most `fuel` of them. -/
def Decimal.dropZeros : (fuel : Nat) → Decimal → Decimal
  | 0, d => d
  | n + 1, d => if d.digits % 10 = 0 then dropZeros n ⟨d.digits / 10, d.exponent + 1⟩ else d

/-- The interval of the reals that round to a number, in units of `2 ^ unit`. -/
structure Interval where
  low : Nat
  value : Nat
  high : Nat
  closed : Bool
  unit : Int

namespace Interval

/-- `a` parts of the grid with spacing `10 ^ grid` are to `b` units as `a · numerator` to
`b · denominator`. -/
def numerator (i : Interval) (grid : Int) : Nat :=
  powerOfTen grid.toNat <<< (-i.unit).toNat

@[inherit_doc numerator]
def denominator (i : Interval) (grid : Int) : Nat :=
  powerOfTen (-grid).toNat <<< i.unit.toNat

/-- Whether the point `d` of the grid lies in the interval. -/
def holds (i : Interval) (grid : Int) (d : Nat) : Bool :=
  let x := d * i.numerator grid
  let low := i.low * i.denominator grid
  let high := i.high * i.denominator grid
  if i.closed then low ≤ x && x ≤ high else low < x && x < high

/-- The nearest point of the grid to the value, if the interval has a point of the grid: one of
the two neighbours of the value. Of two equally near points it is the greater. -/
def nearest? (i : Interval) (grid : Int) : Option Nat :=
  let num := i.numerator grid
  let v := i.value * i.denominator grid
  let d := v / num
  let upper := (d + 1) * num - v
  let lower := v - d * num
  match i.holds grid d, i.holds grid (d + 1) with
  | false, false => none
  | true, false => some d
  | false, true => some (d + 1)
  | true, true =>
    if lower < upper then some d else some (d + 1)

end Interval

namespace Precision

/-- The interval of the reals that round to `significand · 2 ^ exponent`. Below a power of two the
numbers lie twice as dense, but for the smallest. -/
def interval (p : Precision) (significand : Nat) (exponent : Int) : Interval :=
  let narrow := significand == p.fractions && decide (p.leastExponent < exponent)
  { low := 4 * significand - if narrow then 1 else 2
    value := 4 * significand
    high := 4 * significand + 2
    closed := significand % 2 == 0
    unit := exponent - 2 }

/-- A grid that is coarser than the number is large. -/
def coarseGrid (significand : Nat) (exponent : Int) : Int :=
  Int.fdiv ((significand.log2 + exponent + 1) * 30103) 100000 + 1

/-- The shortest decimal in the interval of the positive number `significand · 2 ^ exponent`. From
the coarse grid on at most twenty-two steps are needed: two to come to the size of the number, and
one for each digit. -/
def shortest (p : Precision) (significand : Nat) (exponent : Int) : Decimal :=
  let i := p.interval significand exponent
  let start := coarseGrid significand exponent
  let found := (List.range 22).findSome? fun (n : Nat) ↦
    (i.nearest? (start - n)).map fun d ↦ Decimal.mk d (start - n)
  (found.getD ⟨0, 0⟩).dropZeros 22

end Precision

end Annotations
