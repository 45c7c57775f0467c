/-!
# Decimal numerals

A decimal numeral is a sign, a coefficient and a power of ten. It is what a number in a text
says, and what the digits of a floating-point number say. This module reads digits, writes whole
numbers, and writes numerals in positional notation, which never uses an exponent.
-/
namespace PathQuery

/-- The number `coefficient * 10 ^ exponent` with a sign, which zero keeps too. -/
structure Decimal where
  /-- Whether the sign is minus. -/
  negative : Bool
  /-- The digits, read as one whole number. -/
  coefficient : Nat
  /-- The power of ten of the last digit. -/
  exponent : Int
deriving DecidableEq, Repr

namespace Decimal

/-- The decimal digits of a natural number, without leading zeros. -/
def naturalText (n : Nat) : List Char := Nat.toDigits 10 n

/-- A whole number in decimal digits, with a minus sign when it is negative. -/
def integerText (n : Int) : List Char :=
  if n < 0 then '-' :: naturalText n.natAbs else naturalText n.natAbs

/-- The number that a run of decimal digits says. -/
def digitsValue (digits : List Char) : Nat := Nat.ofDigitChars 10 digits 0

/-- The digits of a natural number say that number. -/
theorem digitsValue_naturalText (n : Nat) : digitsValue (naturalText n) = n :=
  Nat.ofDigitChars_ten_toDigits

/-- Digits with a point before the last `places` of them, with zeros in front where the digits
are too few to leave one before the point. -/
def pointed (digits : List Char) (places : Nat) : List Char :=
  let padded := List.replicate (places + 1 - digits.length) '0' ++ digits
  let whole := padded.length - places
  padded.take whole ++ '.' :: padded.drop whole

/-- The magnitude of a numeral in positional notation: zeros fill up to the units, and a point
stands only before digits of a fraction. -/
def positionalMagnitude (d : Decimal) : List Char :=
  match d.exponent with
  | .ofNat zeros => naturalText d.coefficient ++ List.replicate zeros '0'
  | .negSucc places => pointed (naturalText d.coefficient) (places + 1)

/-- A numeral in positional notation. -/
def positional (d : Decimal) : List Char :=
  if d.negative then '-' :: d.positionalMagnitude else d.positionalMagnitude

end Decimal

end PathQuery
