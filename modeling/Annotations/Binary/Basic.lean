/-!
# Binary numbers by their bits

Floating-point numbers are kept as bit patterns, so that two of them are the same exactly when
their bits are: zeros of both signs differ, and every not-a-number is equal to itself. A `Precision`
says how a pattern is divided; `Precision.decode` reads the number that a pattern stands for as
`significand · 2 ^ exponent`.
-/

namespace Annotations

/-- A single-precision number by its bits. -/
structure Binary32 where
  bits : UInt32
deriving DecidableEq, Repr, Inhabited

/-- A double-precision number by its bits. -/
structure Binary64 where
  bits : UInt64
deriving DecidableEq, Repr, Inhabited

/-- What a bit pattern stands for. -/
inductive Magnitude where
  | nan
  | infinite (negative : Bool)
  | finite (negative : Bool) (significand : Nat) (exponent : Int)
deriving DecidableEq, Repr

/-- The pattern stands for a finite number. -/
def Magnitude.IsFinite : Magnitude → Prop
  | finite .. => True
  | _ => False

theorem Magnitude.isFinite_iff {m : Magnitude} :
    m.IsFinite ↔ ∃ negative s e, m = .finite negative s e := by
  cases m <;> simp [IsFinite]

/-- How a bit pattern is divided: a sign, then the exponent field, then the fraction field. -/
structure Precision where
  fractionBits : Nat
  exponentBits : Nat
deriving DecidableEq, Repr

namespace Precision

/-- Eight exponent bits and twenty-three fraction bits. -/
def single : Precision := ⟨23, 8⟩

/-- Eleven exponent bits and fifty-two fraction bits. -/
def double : Precision := ⟨52, 11⟩

variable (p : Precision)

/-- The patterns of the fraction field. -/
def fractions : Nat := 1 <<< p.fractionBits

/-- The exponent field of the patterns that stand for no finite number. -/
def topField : Nat := (1 <<< p.exponentBits) - 1

/-- The exponent of the smallest positive number: that of the last place of every number near
zero. -/
def leastExponent : Int := 2 - (1 <<< (p.exponentBits - 1) : Nat) - p.fractionBits

/-- The pattern of positive infinity; every finite positive number has a smaller one. -/
def infinityBits : Nat := p.topField * p.fractions

/-- The number that a pattern stands for. -/
def decode (bits : Nat) : Magnitude :=
  let fraction := bits % p.fractions
  let field := bits / p.fractions % (p.topField + 1)
  let negative := bits / p.fractions / (p.topField + 1) % 2 == 1
  if field = p.topField then if fraction = 0 then .infinite negative else .nan
  else if field = 0 then .finite negative fraction p.leastExponent
  else .finite negative (p.fractions + fraction) (p.leastExponent + (field - 1 : Nat))

end Precision

/-- The number that the bits stand for. -/
def Binary32.decode (x : Binary32) : Magnitude := Precision.single.decode x.bits.toNat

/-- The number that the bits stand for. -/
def Binary64.decode (x : Binary64) : Magnitude := Precision.double.decode x.bits.toNat

end Annotations
