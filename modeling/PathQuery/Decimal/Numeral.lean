import PathQuery.Decimal
/-!
# Numerals as they are written

A numeral stands in a text as a sign, digits, perhaps a point with a fraction, and perhaps an
exponent. Paths and documents write different ones; both read as a `Numeral` and mean a `Decimal`.
-/
namespace PathQuery

/-- The parts of a number as they stand in a text. -/
structure Numeral where
  /-- Whether a minus sign stands in front. -/
  negative : Bool
  /-- The digits before the point. -/
  whole : List Char
  /-- The digits after the point; none when there is no point. -/
  fraction : List Char
  /-- The power of ten after the exponent mark, if there is one. -/
  exponent : Option Int

namespace Numeral

/-- The decimal that a numeral says. -/
def decimal (n : Numeral) : Decimal :=
  ⟨n.negative, Decimal.digitsValue (n.whole ++ n.fraction),
    n.exponent.getD 0 - n.fraction.length⟩

/-- The whole number that the sign and the digits before the point say. -/
def wholeValue (n : Numeral) : Int :=
  if n.negative then -Decimal.digitsValue n.whole else Decimal.digitsValue n.whole

/-- The 64-bit integer equal to a whole number, if there is one. -/
def int64? (value : Int) : Option Int64 :=
  if Int64.minValue.toInt ≤ value ∧ value ≤ Int64.maxValue.toInt then some (Int64.ofInt value)
  else none

/-- A whole number that fits 64 bits is kept unchanged. -/
theorem toInt_of_int64? {value : Int} {n : Int64} (fits : int64? value = some n) :
    n.toInt = value := by
  simp only [int64?, Option.ite_none_right_eq_some, Option.some.injEq] at fits
  obtain ⟨⟨low, high⟩, rfl⟩ := fits
  rw [Int64.toInt_minValue] at low
  rw [Int64.toInt_maxValue] at high
  exact Int64.toInt_ofInt_of_le low (Int.lt_of_le_sub_one high)

/-- Reads a minus sign, if there is one. -/
def readMinus : List Char → Bool × List Char
  | '-' :: rest => (true, rest)
  | cs => (false, cs)

/-- Splits off the digits at the front of a text. -/
def readDigits (cs : List Char) : List Char × List Char :=
  (cs.takeWhile Char.isDigit, cs.dropWhile Char.isDigit)

/-- What follows a minus sign is not longer than what it was read from. -/
theorem length_of_readMinus (cs : List Char) : (readMinus cs).2.length ≤ cs.length := by
  fun_cases readMinus cs <;> simp

/-- What follows digits is not longer than what they were read from. -/
theorem length_of_readDigits (cs : List Char) : (readDigits cs).2.length ≤ cs.length :=
  (List.dropWhile_suffix _).length_le

/-- The digits split off are digits. -/
theorem isDigit_of_mem_readDigits {cs : List Char} {c : Char} (found : c ∈ (readDigits cs).1) :
    c.isDigit = true := by
  have every : (cs.takeWhile Char.isDigit).all Char.isDigit = true := List.all_takeWhile
  exact List.all_eq_true.1 every c found

/-- Splitting off digits loses nothing. -/
theorem readDigits_append (cs : List Char) : (readDigits cs).1 ++ (readDigits cs).2 = cs :=
  List.takeWhile_append_dropWhile

end Numeral

end PathQuery
