import Annotations.Binary.Rounding

/-!
# What a written number is

Numbers in JSON texts are read as whole numbers or as decimals. A whole number has neither a point
nor an exponent, and is not a zero with a minus sign.

Whole numbers are at hand as signed or unsigned integers of sixty-four bits, and those that are
neither as decimals. Between them lie the negative ones whose size alone is an integer of that
width: they are at hand in double precision (`Numeral.forSingle`).

Of a decimal only so many digits are read (113 for single and 768 for double precision), and the
rest of a longer one counts as a one in the next place. So nothing but a tie is decided by it: a
tie that is written with more digits, all of them zeros, is rounded away from zero.
-/

namespace Annotations.Numeral

/-- The natural number with the digits; other characters are left out. -/
def ofDigits (s : List Char) : Nat :=
  Nat.ofDigitChars 10 (s.filter Char.isDigit) 0

/-- The sign of a number, and the number without it. -/
def unsign : List Char → Bool × List Char
  | '-' :: s => (true, s)
  | '+' :: s => (false, s)
  | s => (false, s)

/-- The whole number that is written. -/
def int? (text : String) : Option Int :=
  let (negative, s) := unsign text.toList
  if s.all Char.isDigit then
    let n := ofDigits s
    if negative then if n = 0 then none else some (-(n : Int)) else some n
  else none

/-- Whether a character starts the exponent of a number. -/
def isExponentMark (c : Char) : Bool :=
  c = 'e' || c = 'E'

/-- The whole number that an exponent stands for. -/
def power (s : List Char) : Int :=
  let (negative, s) := unsign s
  if negative then -(ofDigits s : Int) else ofDigits s

/-- The characters without the zeros at the end. -/
def trimZeros (s : List Char) : List Char :=
  (s.reverse.dropWhile (· == '0')).reverse

/-- The number with the digits, of which at most `room` are read. A one in the place behind them
stands for the rest, if there is a rest. -/
def ofLeading (room : Nat) (digits : List Char) (exponent : Int) : Decimal :=
  if digits.length ≤ room then ⟨ofDigits digits, exponent⟩
  else ⟨ofDigits (digits.take room ++ ['1']), exponent + (digits.length - room - 1 : Nat)⟩

/-- The sign of the number that is written, and its size. Zeros at the end of the places behind the
point are no digits, while those before the point are. -/
def decimal (room : Nat) (text : String) : Bool × Decimal :=
  let (negative, s) := unsign text.toList
  let mantissa := s.takeWhile (!isExponentMark ·)
  let exponent := power ((s.dropWhile (!isExponentMark ·)).drop 1)
  let places := trimZeros ((mantissa.dropWhile (· != '.')).drop 1)
  let digits := (mantissa.takeWhile (· != '.') ++ places).dropWhile (· == '0')
  (negative, ofLeading room digits (exponent - places.length))

/-- Whether the text is a whole number below the signed integers of sixty-four bits, of a size that
is an unsigned one. -/
def isBelowSigned (text : String) : Bool :=
  match int? text with
  | some n => decide (-0x10000000000000000 < n) && decide (n < -0x8000000000000000)
  | none => false

/-- The number that is rounded to double precision. -/
def forDouble (text : String) : Bool × Decimal :=
  decimal 768 text

/-- The number that is rounded to single precision. It is the number that is written, but for the
whole numbers below the signed integers: they have been rounded to double precision before. -/
def forSingle (text : String) : Bool × Decimal :=
  let (negative, x) := decimal 113 text
  if isBelowSigned text then (negative, ⟨Precision.double.nearestWhole x.digits, x.exponent⟩)
  else (negative, x)

/-- The whole number that is written, if it is in the range. -/
def inRange? (low high : Int) (text : String) : Option Int := do
  let n ← int? text
  if low ≤ n ∧ n ≤ high then some n else none

end Annotations.Numeral
