/-!
# Binary floating-point numbers, taken apart

A binary64 number is a signed multiple `mantissa * 2 ^ exponent` of a power of two, an infinity,
or not a number. Its whole part and its conversion to bounded integers are stated on these parts,
in exact arithmetic.
-/
namespace PathQuery

/-- The parts of a binary64 number. -/
inductive Binary where
  /-- Not a number. -/
  | nan
  /-- An infinity. -/
  | infinite (negative : Bool)
  /-- The number `mantissa * 2 ^ exponent` with a sign. -/
  | finite (negative : Bool) (mantissa : Nat) (exponent : Int)
deriving DecidableEq, Repr

namespace Binary

/-- The bit that a normal number has in front of the fifty-two of its fraction. -/
def leadingBit : Nat := 0x10000000000000

/-- The parts that the 64 bits of a number encode. -/
def ofBits (bits : Nat) : Binary :=
  let negative := bits.testBit 63
  let field : Nat := bits / leadingBit % 0x800
  let fraction := bits % leadingBit
  if field = 0x7ff then
    if fraction = 0 then .infinite negative else .nan
  else if field = 0 then .finite negative fraction (-1074)
  else .finite negative (leadingBit + fraction) ((field : Int) - 1075)

/-- The parts of a number. -/
def ofFloat (x : Float) : Binary := ofBits x.toBits.toNat

/-- Whether these are the parts of a finite number. -/
def isFinite : Binary → Bool
  | .finite .. => true
  | _ => false

/-- The whole part of `mantissa * 2 ^ exponent`. -/
def wholePart (mantissa : Nat) : Int → Nat
  | .ofNat e => mantissa <<< e
  | .negSucc e => mantissa >>> (e + 1)

/-- Whether `mantissa * 2 ^ exponent` is a whole number. -/
def isWhole (mantissa : Nat) : Int → Bool
  | .ofNat _ => true
  | .negSucc e => mantissa % (1 <<< (e + 1)) == 0

/-- The number with its fraction cut off, moved to the nearer bound when it lies outside of
`low` and `high`; zero for what is not a number. -/
def clamp (low high : Int) : Binary → Int
  | .nan => 0
  | .infinite negative => if negative then low else high
  | .finite negative mantissa exponent =>
    let whole : Int := wholePart mantissa exponent
    max low (min high (if negative then -whole else whole))

/-- A clamped number lies between its bounds, if zero does. -/
theorem clamp_bounds {low high : Int} (below : low ≤ 0) (above : 0 ≤ high) (x : Binary) :
    low ≤ x.clamp low high ∧ x.clamp low high ≤ high := by
  cases x with
  | nan => exact ⟨below, above⟩
  | infinite negative => cases negative <;> simp [clamp] <;> omega
  | finite negative mantissa exponent => simp only [clamp]; omega

end Binary

end PathQuery
