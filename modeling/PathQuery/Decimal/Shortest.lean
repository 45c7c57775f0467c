import PathQuery.Decimal
import PathQuery.Decimal.Binary
/-!
# The shortest decimal of a binary number

Every decimal between the two midpoints to the neighbouring binary numbers reads back as the same
number; the midpoints themselves do when the mantissa is even. The shortest decimal is found by
going from coarse decimal grids to fine ones: the first grid with a point in that interval wins,
of two such points the nearer, and of two equally near the larger. If any point of a grid lies in
the interval, so does one of the two grid points next to the number, so only these are tried.
-/
namespace PathQuery

/-- A positive number with the interval of decimals that read back as it. All three are
fractions over one denominator. -/
structure Window where
  /-- Numerator of the number. -/
  value : Nat
  /-- Numerator of the lower end. -/
  low : Nat
  /-- Numerator of the upper end. -/
  high : Nat
  /-- The common denominator. -/
  unit : Nat
  /-- Whether the ends read back too. -/
  closed : Bool
deriving DecidableEq, Repr

namespace Window

/-- The window of `mantissa * 2 ^ exponent`. Below a power of two the binary numbers lie twice as
close, so that its lower midpoint is half as far away, unless it is the least normal number. -/
def ofBinary (mantissa : Nat) (exponent : Int) : Window :=
  let gap := if mantissa = Binary.leadingBit ∧ -1074 < exponent then 1 else 2
  let scale := match exponent - 2 with
    | .ofNat e => (1 <<< e, 1)
    | .negSucc e => (1, 1 <<< (e + 1))
  { value := 4 * mantissa * scale.1
    low := (4 * mantissa - gap) * scale.1
    high := (4 * mantissa + 2) * scale.1
    unit := scale.2
    closed := mantissa % 2 == 0 }

/-- The same window with one step of the grid of multiples of `10 ^ k` as denominator. -/
def onGrid (w : Window) : Int → Window
  | .ofNat k => { w with unit := w.unit * Nat.pow 10 k }
  | .negSucc k =>
    { w with
      value := w.value * Nat.pow 10 (k + 1)
      low := w.low * Nat.pow 10 (k + 1)
      high := w.high * Nat.pow 10 (k + 1) }

/-- Whether the whole number of steps `n` reads back. -/
def holds (w : Window) (n : Nat) : Bool :=
  if w.closed then w.low ≤ n * w.unit && n * w.unit ≤ w.high
  else w.low < n * w.unit && n * w.unit < w.high

/-- The whole number of steps next to the value that reads back, if one does; of two the nearer,
and of two equally near the larger. -/
def nearest? (w : Window) : Option Nat :=
  let below := w.value / w.unit
  let above := below + 1
  match w.holds below, w.holds above with
  | true, true =>
    if w.value - below * w.unit < above * w.unit - w.value then some below else some above
  | true, false => some below
  | false, true => some above
  | false, false => none

end Window

namespace Decimal

/-- The exponent of a power of ten above `mantissa * 2 ^ exponent`, and at most a hundred times as
large: the binary logarithm, scaled by the decimal logarithm of two, names it up to one. -/
def topGrid (mantissa : Nat) (exponent : Int) : Int :=
  (exponent + mantissa.log2) * 30103 / 100000 + 2

/-- All digits of `mantissa * 2 ^ exponent`. -/
def exact (mantissa : Nat) : Int → Nat × Int
  | .ofNat e => (mantissa <<< e, 0)
  | .negSucc e => (mantissa * Nat.pow 5 (e + 1), .negSucc e)

/-- The shortest decimal that reads back as `mantissa * 2 ^ exponent`. Seventeen digits always
suffice, so twenty grids are enough. -/
def shortest (negative : Bool) (mantissa : Nat) (exponent : Int) : Decimal :=
  let window := Window.ofBinary mantissa exponent
  let top := topGrid mantissa exponent
  let found := (List.range 20).findSome? fun (i : Nat) =>
    (window.onGrid (top - i)).nearest?.map fun steps => (steps, top - i)
  let (coefficient, power) := found.getD (exact mantissa exponent)
  ⟨negative, coefficient, power⟩

/-- The shortest digits of a finite number in positional notation: whole numbers have no point. -/
def shortestText (negative : Bool) (mantissa : Nat) (exponent : Int) : List Char :=
  if mantissa = 0 then positional ⟨negative, 0, 0⟩
  else (shortest negative mantissa exponent).positional

/-- The shortest text of any number, as messages show it. -/
def plainText (x : Float) : List Char :=
  match Binary.ofFloat x with
  | .nan => ['N', 'a', 'N']
  | .infinite negative => if negative then ['-', 'i', 'n', 'f'] else ['i', 'n', 'f']
  | .finite negative mantissa exponent => shortestText negative mantissa exponent

end Decimal

end PathQuery
