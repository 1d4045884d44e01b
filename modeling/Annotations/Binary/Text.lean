import Annotations.Binary.Shortest

/-!
# The text of a binary number

A `NumberStyle` fixes what the shortest digits leave open: between which sizes a number is written
without an exponent. Numbers that are shown and numbers in the written form have the same digits and
the same style; they differ only in what is not finite.
-/

namespace Annotations

/-- How a finite number is written. The number is written without an exponent when its leading
digit stands for a power of ten from `least` up to, and not including, `bound`. -/
structure NumberStyle where
  least : Int
  bound : Int

namespace NumberStyle

/-- From `0.0001` up to below `1e16` a number has no exponent. -/
def standard : NumberStyle := ⟨-4, 16⟩

/-- A text of `n` zeros. -/
def zeros (n : Nat) : String :=
  String.ofList (List.replicate n '0')

/-- The digits with a point behind the first `n` of them. -/
def pointAfter (n : Nat) (digits : List Char) : String :=
  String.ofList (digits.take n) ++ "." ++ String.ofList (digits.drop n)

/-- A decimal other than zero, without zeros at the end of its digits. -/
def layout (style : NumberStyle) (x : Decimal) : String :=
  let digits := Nat.toDigits 10 x.digits
  let lead : Int := x.exponent + digits.length - 1
  if style.least ≤ lead && lead < style.bound then
    if 0 ≤ x.exponent then String.ofList digits ++ zeros x.exponent.toNat ++ ".0"
    else if 0 ≤ lead then pointAfter (lead.toNat + 1) digits
    else "0." ++ zeros (-lead - 1).toNat ++ String.ofList digits
  else
    let body := if digits.length = 1 then String.ofList digits else pointAfter 1 digits
    body ++ "e" ++ toString lead

/-- The text of a finite number. -/
def finite (style : NumberStyle) (p : Precision) (negative : Bool) (significand : Nat)
    (exponent : Int) : String :=
  let sign := if negative then "-" else ""
  if significand = 0 then sign ++ "0.0"
  else sign ++ style.layout (p.shortest significand exponent)

end NumberStyle

/-- The text of a number as it is shown to a reader. -/
def Magnitude.shown (p : Precision) : Magnitude → String
  | nan => "NaN"
  | infinite negative => if negative then "-inf" else "inf"
  | finite negative significand exponent =>
    NumberStyle.standard.finite p negative significand exponent

/-- The text of a number in the written form; only finite numbers have one. -/
def Magnitude.written? (p : Precision) : Magnitude → Option String
  | finite negative significand exponent =>
    some (NumberStyle.standard.finite p negative significand exponent)
  | _ => none

end Annotations
