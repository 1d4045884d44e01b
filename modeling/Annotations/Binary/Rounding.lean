import Annotations.Binary.Shortest

/-!
# The nearest binary number

`Precision.ofDecimal?` gives the bits of the number nearest to a decimal, of two equally near ones
the one with an even significand. What would be rounded to infinity has no bits. Whole numbers are
rounded as such by `Precision.nearestWhole`, which keeps the ones that fit
(`Precision.nearestWhole_eq_self`).
-/

namespace Annotations

/-- The nearest natural number to `n / d`, of two the even one. -/
def roundDiv (n d : Nat) : Nat :=
  let q := n / d
  let r := n % d
  if 2 * r < d then q
  else if d < 2 * r then q + 1
  else if q % 2 = 0 then q else q + 1

theorem roundDiv_one (n : Nat) : roundDiv n 1 = n := by
  simp [roundDiv, Nat.mod_one]

namespace Precision

variable (p : Precision)

/-- The exponent `e` with `2 ^ e ≤ n / d < 2 ^ (e + 1)`. -/
def binaryExponent (n d : Nat) : Int :=
  let e : Int := (n.log2 : Int) - d.log2
  if d <<< e.toNat ≤ n <<< (-e).toNat then e else e - 1

/-- The bits of the nearest number to `n / d` without regard to the largest one. A significand that
is rounded up to the next power of two carries into the exponent field, as it should. -/
def nearestBits (n d : Nat) : Nat :=
  let q := max (binaryExponent n d - p.fractionBits) p.leastExponent
  let significand := roundDiv (n <<< (-q).toNat) (d <<< q.toNat)
  (q - p.leastExponent).toNat * p.fractions + significand

/-- The bits of the nearest number to a decimal, less the sign. A decimal beyond `10 ^ 400` or
below `10 ^ -400` is too large or rounds to zero whatever its digits. -/
def magnitudeBits? (x : Decimal) : Option Nat :=
  let size : Int := (Nat.toDigits 10 x.digits).length + x.exponent
  if x.digits = 0 then some 0
  else if size < -400 then some 0
  else if 400 < size then none
  else
    let n := x.digits * powerOfTen x.exponent.toNat
    let bits := p.nearestBits n (powerOfTen (-x.exponent).toNat)
    if bits < p.infinityBits then some bits else none

/-- The nearest whole number to `n` that has no more binary digits before its zeros than a
significand. -/
def nearestWhole (n : Nat) : Nat :=
  let zeros := n.log2 - p.fractionBits
  roundDiv n (1 <<< zeros) <<< zeros

theorem nearestWhole_eq_self {n : Nat} (h : n.log2 ≤ p.fractionBits) : p.nearestWhole n = n := by
  simp [nearestWhole, Nat.sub_eq_zero_of_le h, roundDiv_one]

/-- The bits of the nearest number to a decimal with a sign. -/
def ofDecimal? (negative : Bool) (x : Decimal) : Option Nat :=
  (p.magnitudeBits? x).map fun bits ↦
    if negative then (1 <<< (p.exponentBits + p.fractionBits)) + bits else bits

end Precision

/-- The nearest single-precision number to a decimal. -/
def Binary32.ofDecimal? (negative : Bool) (x : Decimal) : Option Binary32 :=
  (Precision.single.ofDecimal? negative x).map fun bits ↦ ⟨UInt32.ofNat bits⟩

/-- The nearest double-precision number to a decimal. -/
def Binary64.ofDecimal? (negative : Bool) (x : Decimal) : Option Binary64 :=
  (Precision.double.ofDecimal? negative x).map fun bits ↦ ⟨UInt64.ofNat bits⟩

end Annotations
