import PathQuery.Decimal.Shortest
import Mathlib.Tactic.IntervalCases
import Mathlib.Tactic.Ring
/-!
# What the shortest digits of a number say

The shortest digits of a number need not say the number itself, but they lie within the window of
the decimals that read back as it. This is enough to tell on which grid they lie and on which side
of a limit: a number with a fraction has digits behind the point, a large whole number has none,
and a bound on either that is a multiple of its unit is one on the other.
-/
namespace PathQuery

/-! ## The parts of a number -/

namespace Binary

/-- The mantissa and the exponent are those of a binary64 number: a mantissa of 53 bits, or a
shorter one with the least exponent. -/
structure Proper (mantissa : Nat) (exponent : Int) : Prop where
  /-- The mantissa has at most 53 bits. -/
  bits : mantissa < 2 ^ 53
  /-- The exponent is not below the least one. -/
  low : -1074 ≤ exponent
  /-- The exponent is not above the largest one. -/
  high : exponent ≤ 971
  /-- Above the least exponent the leading bit is set. -/
  normal : -1074 < exponent → 2 ^ 52 ≤ mantissa

/-- The parts of a finite number are proper. -/
theorem proper_of_ofFloat {x : Float} {negative : Bool} {mantissa : Nat} {exponent : Int}
    (parts : ofFloat x = .finite negative mantissa exponent) : Proper mantissa exponent := by
  unfold ofFloat ofBits at parts
  have fraction : x.toBits.toNat % leadingBit < leadingBit := Nat.mod_lt _ (by decide)
  have field : x.toBits.toNat / leadingBit % 0x800 < 0x800 := Nat.mod_lt _ (by decide)
  have leading : leadingBit = 2 ^ 52 := rfl
  dsimp only at parts
  split at parts
  · split at parts <;> cases parts
  · split at parts
    all_goals
      obtain ⟨-, rfl, rfl⟩ := Binary.finite.inj parts
      exact ⟨by omega, by omega, by omega, by omega⟩

end Binary

/-! ## Windows -/

namespace Window

/-- The fields of a window: one denominator, the numerators scaled to it. -/
theorem ofBinary_eq (m : Nat) (e : Int) : ∃ gap, 1 ≤ gap ∧ gap ≤ 2 ∧
    ofBinary m e =
      { value := 4 * m * 2 ^ (e - 2).toNat
        low := (4 * m - gap) * 2 ^ (e - 2).toNat
        high := (4 * m + 2) * 2 ^ (e - 2).toNat
        unit := 2 ^ (2 - e).toNat
        closed := m % 2 == 0 } := by
  refine ⟨if m = Binary.leadingBit ∧ -1074 < e then 1 else 2, ?_, ?_, ?_⟩
  · split <;> decide
  · split <;> decide
  · unfold ofBinary
    dsimp only
    split
    · next above same =>
      rw [Int.ofNat_eq_natCast] at same
      have up : (e - 2).toNat = above := by omega
      have down : (2 - e).toNat = 0 := by omega
      simp only [up, down, Nat.shiftLeft_eq, Nat.one_mul, Nat.pow_zero]
    · next below same =>
      have up : (e - 2).toNat = 0 := by omega
      have down : (2 - e).toNat = below + 1 := by omega
      simp only [up, down, Nat.shiftLeft_eq, Nat.one_mul, Nat.pow_zero]

/-- The fields of a window on a grid. -/
theorem onGrid_eq (w : Window) (k : Int) : w.onGrid k =
    { value := w.value * 10 ^ (-k).toNat
      low := w.low * 10 ^ (-k).toNat
      high := w.high * 10 ^ (-k).toNat
      unit := w.unit * 10 ^ k.toNat
      closed := w.closed } := by
  cases k with
  | ofNat k =>
    have none : (-Int.ofNat k).toNat = 0 := by simp
    simp only [onGrid, none, Nat.pow_zero, Nat.mul_one]
    rfl
  | negSucc k =>
    simp only [onGrid, Int.neg_negSucc, Int.toNat_negSucc, Nat.pow_zero, Nat.mul_one]
    rfl

/-- A window around its value: the ends lie on both sides of it. -/
structure Around (w : Window) : Prop where
  /-- The lower end is below the value. -/
  low : w.low < w.value
  /-- The upper end is above the value. -/
  high : w.value < w.high
  /-- The denominator is not zero. -/
  unit : 0 < w.unit

/-- The window of a positive number lies around it, on any grid. -/
theorem around_onGrid {m : Nat} (positive : 0 < m) (e k : Int) :
    ((ofBinary m e).onGrid k).Around := by
  obtain ⟨gap, some, -, fields⟩ := ofBinary_eq m e
  rw [fields, onGrid_eq]
  have two := Nat.two_pow_pos (e - 2).toNat
  have ten : 0 < 10 ^ (-k).toNat := Nat.pow_pos (by decide)
  refine ⟨?_, ?_, Nat.mul_pos (Nat.two_pow_pos _) (Nat.pow_pos (by decide))⟩
  · exact Nat.mul_lt_mul_of_pos_right (Nat.mul_lt_mul_of_pos_right (by omega) two) ten
  · exact Nat.mul_lt_mul_of_pos_right (Nat.mul_lt_mul_of_pos_right (by omega) two) ten

/-- What reads back lies between the ends. -/
theorem bounds_of_holds {w : Window} {n : Nat} (holds : w.holds n = true) :
    w.low ≤ n * w.unit ∧ n * w.unit ≤ w.high := by
  unfold Window.holds at holds
  cases closed : w.closed <;> simp [closed] at holds ⊢ <;> omega

/-- The value itself reads back. -/
theorem Around.holds {w : Window} (around : w.Around) {n : Nat} (value : n * w.unit = w.value) :
    w.holds n = true := by
  obtain ⟨low, high, -⟩ := around
  unfold Window.holds
  split <;> simp <;> omega

/-- The number of steps that is found reads back. -/
theorem holds_of_nearest? {w : Window} {n : Nat} (found : w.nearest? = some n) :
    w.holds n = true := by
  unfold nearest? at found
  dsimp only at found
  split at found
  · split at found <;> obtain rfl := Option.some.inj found <;> assumption
  · obtain rfl := Option.some.inj found
    assumption
  · obtain rfl := Option.some.inj found
    assumption
  · cases found

/-- Where the value itself is a number of steps, some is found. -/
theorem Around.isSome_nearest? {w : Window} (around : w.Around) {n : Nat}
    (value : n * w.unit = w.value) : w.nearest?.isSome = true := by
  have below : w.value / w.unit = n := by rw [← value, Nat.mul_div_cancel _ around.unit]
  have holds := around.holds value
  unfold nearest?
  dsimp only
  rw [below, holds]
  split
  · split <;> rfl
  · rfl
  · rfl
  · next failed _ => cases failed

end Window

namespace Decimal

open Window

/-- All digits of a number say the number. -/
theorem exact_value (m : Nat) (e : Int) :
    (exact m e).1 * ((ofBinary m e).onGrid (exact m e).2).unit =
      ((ofBinary m e).onGrid (exact m e).2).value := by
  obtain ⟨gap, -, -, fields⟩ := ofBinary_eq m e
  rw [fields, onGrid_eq]
  cases e with
  | ofNat e =>
    have powers : 2 ^ e * 2 ^ (2 - Int.ofNat e).toNat = 2 ^ 2 * 2 ^ (Int.ofNat e - 2).toNat := by
      rw [← Nat.pow_add, ← Nat.pow_add]
      congr 1
      rw [Int.ofNat_eq_natCast]
      omega
    simp only [exact, Nat.shiftLeft_eq, Int.toNat_zero, Int.neg_zero, Nat.pow_zero, Nat.mul_one]
    rw [Nat.mul_assoc, powers]
    ring
  | negSucc e =>
    have up : (Int.negSucc e - 2).toNat = 0 := by omega
    have down : (2 - Int.negSucc e).toNat = (e + 1) + 2 := by omega
    have ten : 10 ^ (e + 1) = 2 ^ (e + 1) * 5 ^ (e + 1) := Nat.mul_pow 2 5 (e + 1)
    simp only [exact, Nat.pow_eq, Int.neg_negSucc, Int.toNat_negSucc, Nat.pow_zero, Nat.mul_one,
      up, down, Int.toNat_natCast, ten]
    ring

variable {m : Nat} {e : Int}

/-- The shortest digits read back as the number. -/
theorem holds_shortest (negative : Bool) (positive : 0 < m) (e : Int) :
    ((ofBinary m e).onGrid (shortest negative m e).exponent).holds
      (shortest negative m e).coefficient = true := by
  unfold shortest
  dsimp only
  generalize search : (List.range 20).findSome? _ = found
  cases found with
  | none => exact (around_onGrid positive e _).holds (exact_value m e)
  | some best =>
    obtain ⟨i, -, here⟩ := List.exists_of_findSome?_eq_some search
    obtain ⟨steps, nearest, rfl⟩ := Option.map_eq_some_iff.1 here
    exact holds_of_nearest? nearest

/-- A search through the first natural numbers finds nothing behind a number where it succeeds. -/
theorem exists_le_of_findSome?_range {α : Type} {f : Nat → Option α} {count i : Nat} {best : α}
    (found : (List.range count).findSome? f = some best) :
    ∃ first < count, f first = some best ∧ (i < count → (f i).isSome = true → first ≤ i) := by
  obtain ⟨before, first, behind, split, here, none⟩ := List.findSome?_eq_some_iff.1 found
  have member : first ∈ List.range count := split ▸ List.mem_append_right _ List.mem_cons_self
  refine ⟨first, List.mem_range.1 member, here, fun inside succeeds => ?_⟩
  have ordered := split ▸ List.pairwise_lt_range (n := count)
  have place := split ▸ List.mem_range.2 inside
  rcases List.mem_append.1 place with earlier | later
  · rw [none i earlier] at succeeds
    cases succeeds
  · rcases List.mem_cons.1 later with rfl | later
    · exact Nat.le_refl _
    · exact Nat.le_of_lt ((List.pairwise_cons.1 (List.pairwise_append.1 ordered).2.1).1 i later)

/-- A large whole number has no digits behind the point: the grid of the units is tried before any
finer one, and the number lies on it. -/
theorem exponent_shortest_nonneg (negative : Bool) (positive : 0 < m) (above : 0 ≤ e) :
    0 ≤ (shortest negative m e).exponent := by
  have top : 0 ≤ topGrid m e := by
    unfold topGrid
    omega
  have units : ((ofBinary m e).onGrid 0).nearest?.isSome = true := by
    have value := exact_value m e
    cases e with
    | ofNat e => exact (around_onGrid positive (Int.ofNat e) 0).isSome_nearest? value
    | negSucc e => omega
  unfold shortest
  dsimp only
  generalize search : (List.range 20).findSome? _ = found
  cases found with
  | none =>
    cases e with
    | ofNat e => exact Int.le_refl 0
    | negSucc e => omega
  | some best =>
    obtain ⟨i, inside, here, first⟩ :=
      exists_le_of_findSome?_range (i := (topGrid m e).toNat) search
    obtain ⟨steps, -, rfl⟩ := Option.map_eq_some_iff.1 here
    dsimp only [Option.getD_some]
    have atUnits : topGrid m e - ((topGrid m e).toNat : Int) = 0 := by omega
    rw [atUnits, Option.isSome_map] at first
    have := fun small => first small units
    omega

/-- The shortest digits lie between the ends of the window of the number. -/
theorem bounds_shortest {negative : Bool} (positive : 0 < m) {n : Nat} {p : Int}
    (found : shortest negative m e = ⟨negative, n, p⟩) :
    let steps := n * (2 ^ (2 - e).toNat * 10 ^ p.toNat)
    (4 * m - 2) * 2 ^ (e - 2).toNat * 10 ^ (-p).toNat ≤ steps ∧
    steps ≤ (4 * m + 2) * 2 ^ (e - 2).toNat * 10 ^ (-p).toNat := by
  obtain ⟨gap, -, small, fields⟩ := ofBinary_eq m e
  have bounds := bounds_of_holds (holds_shortest negative positive e)
  rw [found, fields, onGrid_eq] at bounds
  obtain ⟨low, high⟩ := bounds
  refine ⟨Nat.le_trans ?_ low, high⟩
  exact Nat.mul_le_mul_right _ (Nat.mul_le_mul_right _ (by omega))

/-- The shortest digits of a number with a fraction go on behind the point: a whole number in the
window would be the number itself. -/
theorem shortest_of_not_whole {places : Nat} (negative : Bool)
    (fraction : m % 2 ^ (places + 1) ≠ 0) :
    ∃ n digits, shortest negative m (.negSucc places) = ⟨negative, n, .negSucc digits⟩ ∧
      n * 2 ^ (places + 3) ≤ (4 * m + 2) * 10 ^ (digits + 1) := by
  have positive : 0 < m := Nat.pos_of_ne_zero fun none => fraction (by simp [none])
  have up : (Int.negSucc places - 2).toNat = 0 := by omega
  have down : (2 - Int.negSucc places).toNat = places + 3 := by omega
  obtain ⟨n, p, found⟩ : ∃ n p, shortest negative m (.negSucc places) = ⟨negative, n, p⟩ :=
    ⟨_, _, rfl⟩
  obtain ⟨low, high⟩ := bounds_shortest positive found
  rw [up, down, Nat.pow_zero, Nat.mul_one] at low high
  cases p with
  | ofNat zeros =>
    simp only [Int.ofNat_eq_natCast, Int.toNat_natCast, Int.toNat_neg_natCast, Nat.pow_zero,
      Nat.mul_one] at low high
    have units : n * (2 ^ (places + 3) * 10 ^ zeros) =
        4 * (2 ^ (places + 1) * (n * 10 ^ zeros)) := by ring
    rw [units] at low high
    have same : m = 2 ^ (places + 1) * (n * 10 ^ zeros) := by omega
    exact absurd (same ▸ Nat.mul_mod_right _ _) fraction
  | negSucc digits => exact ⟨n, digits, found, by simpa using high⟩

/-- Over its denominator, which is two for the least shift and one for all others, an even multiple
of a quarter of the unit is a multiple of half the unit. -/
theorem scale_eq (a half : Nat) :
    2 * a * 2 ^ (((half + 1 : Nat) : Int) - 2).toNat =
      a * 2 ^ half * 2 ^ (2 - ((half + 1 : Nat) : Int)).toNat := by
  have power : 2 * 2 ^ (((half + 1 : Nat) : Int) - 2).toNat =
      2 ^ half * 2 ^ (2 - ((half + 1 : Nat) : Int)).toNat := by
    rw [← Nat.pow_add, ← Nat.pow_succ']
    congr 1
    omega
  rw [Nat.mul_comm 2 a, Nat.mul_assoc, power, Nat.mul_assoc]

/-- The shortest digits of a large whole number say a whole number, which is at most half a unit
away. -/
theorem shortest_of_large {shift : Nat} (negative : Bool) (positive : 0 < m) (large : 0 < shift) :
    ∃ n zeros, shortest negative m shift = ⟨negative, n, .ofNat zeros⟩ ∧
      2 * (m * 2 ^ shift) ≤ 2 * (n * 10 ^ zeros) + 2 ^ shift ∧
      2 * (n * 10 ^ zeros) ≤ 2 * (m * 2 ^ shift) + 2 ^ shift := by
  obtain ⟨half, rfl⟩ : ∃ half, shift = half + 1 := Nat.exists_eq_add_one.2 large
  have above : 0 ≤ (shortest negative m ((half + 1 : Nat) : Int)).exponent :=
    exponent_shortest_nonneg negative positive (Int.natCast_nonneg _)
  obtain ⟨n, p, found⟩ :
      ∃ n p, shortest negative m ((half + 1 : Nat) : Int) = ⟨negative, n, p⟩ := ⟨_, _, rfl⟩
  rw [found] at above
  obtain ⟨zeros, rfl⟩ := Int.eq_ofNat_of_zero_le above
  refine ⟨n, zeros, found, ?_⟩
  obtain ⟨low, high⟩ := bounds_shortest positive found
  have steps : n * (2 ^ (2 - ((half + 1 : Nat) : Int)).toNat * 10 ^ zeros) =
      n * 10 ^ zeros * 2 ^ (2 - ((half + 1 : Nat) : Int)).toNat := by ring
  have unit : 0 < 2 ^ (2 - ((half + 1 : Nat) : Int)).toNat := Nat.two_pow_pos _
  simp only [Int.toNat_natCast, Int.toNat_neg_natCast, Nat.pow_zero, Nat.mul_one, steps]
    at low high
  rw [show 4 * m - 2 = 2 * (2 * m - 1) by omega, scale_eq] at low
  rw [show 4 * m + 2 = 2 * (2 * m + 1) by omega, scale_eq] at high
  have low := Nat.le_of_mul_le_mul_right low unit
  have high := Nat.le_of_mul_le_mul_right high unit
  rw [Nat.sub_mul] at low
  rw [Nat.add_mul] at high
  have twice : 2 * (m * 2 ^ (half + 1)) = 2 * (2 * m * 2 ^ half) := by ring
  rw [twice, Nat.pow_succ]
  omega

/-! ## Limits -/

section

variable {shift n : Nat}

/-- Below two to the sixty-third the shortest digits of a whole number say a number below it. -/
theorem lt_of_lt_limit (proper : Binary.Proper m shift) (large : 0 < shift)
    (high : 2 * n ≤ 2 * (m * 2 ^ shift) + 2 ^ shift) (small : m * 2 ^ shift < 2 ^ 63) :
    n < 2 ^ 63 := by
  have normal := proper.normal (by omega)
  have few : shift < 11 := by
    by_contra many
    have unit : 2 ^ 11 ≤ 2 ^ shift := Nat.pow_le_pow_right Nat.two_pos (by omega)
    have least := Nat.mul_le_mul normal unit
    omega
  interval_cases shift <;> omega

/-- From two to the sixty-third on the shortest digits of a whole number say a number above it,
except perhaps for that number itself. -/
theorem limit_lt_of_le (proper : Binary.Proper m shift)
    (low : 2 * (m * 2 ^ shift) ≤ 2 * n + 2 ^ shift) (least : ¬(m = 2 ^ 52 ∧ shift = 11))
    (large : 2 ^ 63 ≤ m * 2 ^ shift) : 2 ^ 63 < n := by
  have bits := proper.bits
  have some : 11 ≤ shift := by
    by_contra few
    have unit : 2 ^ shift ≤ 2 ^ 10 := Nat.pow_le_pow_right Nat.two_pos (by omega)
    have most := Nat.mul_le_mul (Nat.le_sub_one_of_lt bits) unit
    omega
  have normal := proper.normal (by omega)
  rcases Nat.eq_or_lt_of_le some with rfl | more
  · omega
  · have unit : 2 ^ 12 ≤ 2 ^ shift := Nat.pow_le_pow_right Nat.two_pos more
    have lowest := Nat.mul_le_mul_right (2 ^ shift) normal
    omega

end

end Decimal

end PathQuery
