import PathQuery.Decimal
/-!
# The nearest binary number of a decimal

Reading a decimal gives the nearest binary64 number, of two equally near the one with the even
mantissa. Numerals far outside of the range are settled by their size, so that no huge power of
ten is ever formed.
-/
namespace PathQuery.Decimal

/-- Positive infinity. -/
def infinity : Float := Float.ofBits 0x7ff0000000000000

/-- The number of digits before the point: a numeral other than zero is less than ten to this
power, and at least a tenth of that. -/
def size (d : Decimal) : Int := (naturalText d.coefficient).length + d.exponent

/-- The magnitude of the nearest number; infinity beyond the largest. -/
def nearestMagnitude (d : Decimal) : Float :=
  if d.coefficient = 0 ∨ d.size < -330 then 0
  else if 330 < d.size then infinity
  else Float.ofScientific d.coefficient (decide (d.exponent < 0)) d.exponent.natAbs

/-- The nearest number, with the sign of the numeral. -/
def nearest (d : Decimal) : Float :=
  if d.negative then -d.nearestMagnitude else d.nearestMagnitude

end PathQuery.Decimal
