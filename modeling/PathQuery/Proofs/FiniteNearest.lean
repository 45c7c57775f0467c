import PathQuery.Decimal.Nearest
import PathQuery.Decimal.Binary
import Mathlib
/-!
# Decimals whose nearest number is finite

The nearest number of a decimal is infinite only where rounding carries it beyond the largest
finite one. A number on its way through the arithmetic of floating-point numbers is a mantissa and
an exponent; it fits when the mantissa has at most 53 bits and the exponent is in range. Rounding,
division and packing are followed here for what fits, and for nothing else: that a number is
the nearest one plays no part.
-/
namespace PathQuery

namespace Rounding

open Float.Model (Format totalExponent UnpackedFloat)
open Float.Model.UnpackedFloat

/-! ## Rounding -/

/-- Shifting to the right cuts off the last bits of a mantissa. -/
theorem mantissa_shiftRight (em : ExtendedMantissa) (count : Nat) :
    (em >>> count).mantissa = em.mantissa / 2 ^ count := by
  induction count with
  | zero => exact (Nat.div_one _).symm
  | succ count ih =>
    have step : (em >>> (count + 1)).mantissa = (em >>> count).mantissa / 2 := rfl
    rw [step, ih, Nat.div_div_eq_div_mul, Nat.pow_succ]

/-- The round bit is the last bit that was cut off. -/
theorem roundBit_shiftRight (em : ExtendedMantissa) (count : Nat) :
    (em >>> (count + 1)).roundBit = (em.mantissa / 2 ^ count % 2 != 0) := by
  have step : (em >>> (count + 1)).roundBit = ((em >>> count).mantissa % 2 != 0) := rfl
  rw [step, mantissa_shiftRight]

/-- Rounding adds one at most. -/
theorem roundedMantissa_le (em : ExtendedMantissa) : em.roundedMantissa ≤ em.mantissa + 1 := by
  obtain ⟨mantissa, round, sticky⟩ := em
  cases round <;> cases sticky <;>
    simp [ExtendedMantissa.roundedMantissa, ExtendedMantissa.accuracy,
      Accuracy.roundToNearestEven]
  omega

/-- Without a round bit, rounding adds nothing. -/
theorem roundedMantissa_of_not_roundBit {em : ExtendedMantissa} (clear : em.roundBit = false) :
    em.roundedMantissa = em.mantissa := by
  obtain ⟨mantissa, round, sticky⟩ := em
  obtain rfl : round = false := clear
  cases sticky <;> rfl

/-- What is less than half a unit away from the largest mantissa of 53 bits is not rounded to one
bit more: where the mantissa that is left is the largest one, the round bit is clear. -/
theorem roundedMantissa_shiftRight_lt {em : ExtendedMantissa} {count : Nat}
    (small : em.mantissa < (2 ^ 54 - 1) * 2 ^ count) :
    (em >>> (count + 1)).roundedMantissa < 2 ^ 53 := by
  have rest : em.mantissa / 2 ^ count < 2 ^ 54 - 1 :=
    (Nat.div_lt_iff_lt_mul (Nat.two_pow_pos count)).2 small
  have half : (em >>> (count + 1)).mantissa = em.mantissa / 2 ^ count / 2 := by
    rw [mantissa_shiftRight, Nat.pow_succ, Nat.div_div_eq_div_mul]
  cases round : (em >>> (count + 1)).roundBit with
  | false =>
    rw [roundedMantissa_of_not_roundBit round]
    omega
  | true =>
    have carried := roundedMantissa_le (em >>> (count + 1))
    rw [roundBit_shiftRight] at round
    have odd : em.mantissa / 2 ^ count % 2 ≠ 0 := by simpa using round
    omega

/-- The binary logarithm of a number is below the count of its bits. -/
theorem log2_le_of_lt {m bits : Nat} (small : m < 2 ^ (bits + 1)) : m.log2 ≤ bits := by
  rcases Nat.eq_zero_or_pos m with rfl | positive
  · simp
  · exact Nat.le_of_lt_succ ((Nat.log2_lt positive.ne').2 small)

/-- The exponent that a mantissa of 53 bits has, or the least one there is. -/
theorem targetExponent_eq (m : Nat) (e : Int) :
    Format.binary64.targetExponent (totalExponent m e) = max (m.log2 + e - 52) (-1074) := by
  simp only [Format.targetExponent, totalExponent, Format.mantissaBits, Format.minExponent]
  omega

/-- Shifting raises the exponent to the one of 53 bits and never lowers it. -/
theorem exponent_shift (m : Nat) (e : Int) (accuracy : Accuracy) :
    (shiftToTargetExponent .binary64 m e accuracy).2 = max e (max (m.log2 + e - 52) (-1074)) := by
  simp only [shiftToTargetExponent, shiftToExponent, targetExponent_eq]
  omega

/-- What shifting leaves of a mantissa. -/
theorem mantissa_shift (m : Nat) (e : Int) (accuracy : Accuracy) :
    ∃ count : Nat, (shiftToTargetExponent .binary64 m e accuracy).2 = e + count ∧
      (shiftToTargetExponent .binary64 m e accuracy).1 =
        ExtendedMantissa.ofMantissaAndAccuracy m accuracy >>> count :=
  ⟨_, rfl, rfl⟩

/-- The mantissa of a number that is not shifted yet. -/
theorem mantissa_ofMantissaAndAccuracy (m : Nat) (accuracy : Accuracy) :
    (ExtendedMantissa.ofMantissaAndAccuracy m accuracy).mantissa = m := by
  rcases accuracy with _ | order
  · rfl
  · cases order <;> rfl

/-- A shifted mantissa has at most 53 bits. -/
theorem mantissa_shift_lt (m : Nat) (e : Int) (accuracy : Accuracy) :
    (shiftToTargetExponent .binary64 m e accuracy).1.mantissa < 2 ^ 53 := by
  obtain ⟨count, exponent, shifted⟩ := mantissa_shift m e accuracy
  rw [exponent_shift] at exponent
  rw [shifted, mantissa_shiftRight, mantissa_ofMantissaAndAccuracy,
    Nat.div_lt_iff_lt_mul (Nat.two_pow_pos count), ← Nat.pow_add]
  have bits : m < 2 ^ (m.log2 + 1) := Nat.lt_log2_self
  exact bits.trans_le (Nat.pow_le_pow_right Nat.two_pos (by omega))

/-- The number is zero, or has a mantissa of at most 53 bits and an exponent up to a bound. -/
inductive Fits (bound : Int) : UnpackedFloat → Prop where
  /-- Zero fits. -/
  | zero (sign : Sign) : Fits bound (.zero sign)
  /-- Any other number fits whose mantissa and exponent do. -/
  | finite {sign : Sign} {m : Nat} {e : Int} {positive : 0 < m} (bits : m < 2 ^ 53)
    (low : -1074 ≤ e) (high : e ≤ bound) : Fits bound (.finite sign m e positive)

/-- A number stays below a bound on its exponent if, before rounding, it is less than half a unit
away from the largest mantissa there: rounding does not carry it into one bit more. -/
theorem fits_roundWithAccuracy {sign : Sign} {m count : Nat} {e bound : Int} {accuracy : Accuracy}
    (small : m < (2 ^ 54 - 1) * 2 ^ count) (inside : e + count < bound) (least : -1074 ≤ bound) :
    Fits bound (roundWithAccuracy .binary64 sign m e accuracy) := by
  have firstBits := mantissa_shift_lt m e accuracy
  have firstExponent := exponent_shift m e accuracy
  obtain ⟨cut, raised, shifted⟩ := mantissa_shift m e accuracy
  have bits : m.log2 ≤ 53 + count := by
    refine log2_le_of_lt (small.trans_le ?_)
    rw [Nat.add_right_comm, Nat.pow_add]
    exact Nat.mul_le_mul_right _ (Nat.sub_le _ 1)
  rcases first : shiftToTargetExponent .binary64 m e accuracy with ⟨em, e₁⟩
  simp only [first] at firstBits firstExponent raised shifted
  -- only below the bound rounding carries into one bit more: at the bound, more than `count` bits
  -- are cut off
  have carried : em.roundedMantissa.log2 ≤ 53 := by
    have := roundedMantissa_le em
    exact log2_le_of_lt (by omega)
  have full : e₁ = bound → em.roundedMantissa.log2 ≤ 52 := by
    intro atBound
    obtain ⟨less, rfl⟩ : ∃ less, cut = less + 1 := ⟨cut - 1, by omega⟩
    rw [shifted]
    refine log2_le_of_lt (roundedMantissa_shiftRight_lt ?_)
    rw [mantissa_ofMantissaAndAccuracy]
    exact small.trans_le (Nat.mul_le_mul_left _ (Nat.pow_le_pow_right Nat.two_pos (by omega)))
  have secondBits := mantissa_shift_lt em.roundedMantissa e₁ .exact
  have secondExponent := exponent_shift em.roundedMantissa e₁ .exact
  simp only [roundWithAccuracy, first]
  split
  · exact .zero sign
  · exact .finite secondBits (by omega) (by omega)

/-! ## Packing -/

/-- A number with another sign fits as well. -/
theorem Fits.neg {bound : Int} {u : UnpackedFloat} (fits : Fits bound u) : Fits bound u.neg := by
  cases fits with
  | zero sign => exact .zero _
  | finite bits low high => exact .finite bits low high

/-- A finite number in range is packed as fields, with an exponent that is not the one of
infinities and not larger than its own. -/
theorem exists_packComponents {sign : Sign} {m : Nat} {e : Int} {positive : 0 < m}
    (low : -1074 ≤ e) (high : e ≤ 971) :
    ∃ (exponent : BitVec 11) (fraction : BitVec 52),
      pack .binary64 (.finite sign m e positive) =
        packComponents .binary64 sign exponent fraction ∧
      exponent.toNat < 2047 ∧ (exponent.toNat : Int) ≤ e + 1075 := by
  have field : (e + Format.exponentBias .binary64 + (52 : Nat)).toNat = (e + 1075).toNat := by
    have bias : ((Format.exponentBias .binary64 : Nat) : Int) = 1023 := rfl
    omega
  simp only [pack, field]
  rw [if_neg (by omega)]
  split
  · refine ⟨_, _, rfl, ?_⟩
    rw [BitVec.toNat_ofNat, Nat.mod_eq_of_lt (by omega)]
    omega
  · exact ⟨0, _, rfl, by decide, by simp; omega⟩

/-- Fields without the exponent of infinities are a number that fits. -/
theorem fits_unpack_packComponents {bound : Int} (least : -1074 ≤ bound) {sign : Sign}
    {exponent : BitVec 11} {fraction : BitVec 52} (other : exponent.toNat < 2047)
    (high : (exponent.toNat : Int) ≤ bound + 1075) :
    Fits bound (unpack .binary64 (packComponents .binary64 sign exponent fraction)) := by
  have notAll : exponent ≠ -1#11 := by
    rintro rfl
    exact absurd other (by decide)
  have bias : ((Format.exponentBias .binary64 : Nat) : Int) = 1023 := rfl
  simp only [unpack, unpackExponent_packComponents, unpackMantissa_packComponents, if_neg notAll,
    bias]
  split
  · next zero =>
    subst zero
    split
    · exact .zero _
    · have bits : fraction.toNat < 2 ^ 52 := fraction.isLt
      exact .finite (by omega) (by decide) least
  · next nonzero =>
    have some : exponent.toNat ≠ 0 := fun none => nonzero (BitVec.eq_of_toNat_eq none)
    exact .finite (1#1 ++ fraction).isLt (by simp; omega) (by simp; omega)

/-- The bits of a number that fits do not have the exponent of infinities, and are unpacked as a
number that fits. -/
theorem Fits.pack {bound : Int} (least : -1074 ≤ bound) (most : bound ≤ 971) {u : UnpackedFloat}
    (fits : Fits bound u) :
    (unpackExponent (u.pack .binary64)).toNat ≠ 2047 ∧
      Fits bound (unpack .binary64 (u.pack .binary64)) := by
  obtain ⟨sign, exponent, fraction, packed, other, high⟩ :
      ∃ (sign : Sign) (exponent : BitVec 11) (fraction : BitVec 52),
        u.pack .binary64 = packComponents .binary64 sign exponent fraction ∧
        exponent.toNat < 2047 ∧ (exponent.toNat : Int) ≤ bound + 1075 := by
    cases fits with
    | zero sign => exact ⟨sign, 0, 0, rfl, by decide, by simp; omega⟩
    | finite bits low high =>
      obtain ⟨exponent, fraction, packed, other, le⟩ := exists_packComponents low (by omega)
      exact ⟨_, exponent, fraction, packed, other, by omega⟩
  rw [packed, unpackExponent_packComponents]
  exact ⟨other.ne, fits_unpack_packComponents least other high⟩

/-- The exponent of a number is a field of its bits. -/
theorem toNat_unpackExponent (bits : BitVec 64) :
    (@unpackExponent .binary64 bits).toNat = bits.toNat / Binary.leadingBit % 0x800 := by
  simp [unpackExponent, Nat.shiftRight_eq_div_pow, Binary.leadingBit]

/-- A number is finite if its exponent is not the one of infinities. -/
theorem isFinite_ofBits {bits : Nat} (other : bits / Binary.leadingBit % 0x800 ≠ 2047) :
    (Binary.ofBits bits).isFinite = true := by
  simp only [Binary.ofBits, if_neg other]
  split <;> rfl

/-! ## Decimals -/

/-- A quotient fits where its exponents are near each other and its mantissas are. -/
theorem fits_div {sign₁ sign₂ : Sign} {m₁ m₂ : Nat} {e₁ e₂ : Int} {positive₁ : 0 < m₁}
    {positive₂ : 0 < m₂} (near : e₁ - e₂ ≤ 64) (small : m₁ < 2 ^ 54 * m₂) :
    Fits 971 (div .binary64 (.finite sign₁ m₁ e₁ positive₁) (.finite sign₂ m₂ e₂ positive₂)) := by
  simp only [UnpackedFloat.div, divCore]
  generalize target : min (e₁ - e₂) (Format.targetExponent .binary64
    (totalExponent m₁ e₁ - totalExponent m₂ e₂)) = e
  have below : e ≤ e₁ - e₂ := target ▸ Int.min_le_left _ _
  generalize shift : (e₁ - e₂ - e).toNat = count
  have quotient : m₁ <<< count / m₂ < (2 ^ 54 - 1) * 2 ^ (count + 1) := by
    rw [Nat.div_lt_iff_lt_mul positive₂, Nat.shiftLeft_eq]
    calc m₁ * 2 ^ count
        < 2 ^ 54 * m₂ * 2 ^ count := Nat.mul_lt_mul_of_pos_right small (Nat.two_pow_pos count)
      _ = 2 ^ 54 * 2 ^ count * m₂ := Nat.mul_right_comm ..
      _ ≤ (2 ^ 54 - 1) * 2 ^ (count + 1) * m₂ := by
        rw [Nat.pow_succ 2 count]
        exact Nat.mul_le_mul_right _ (by omega)
  exact fits_roundWithAccuracy quotient (by omega) (by decide)

/-- A bound on a mantissa is shifted with it. -/
theorem shiftLeft_lt {n a bits : Nat} (small : n < a * 2 ^ bits) (count : Nat) :
    n <<< count < a * 2 ^ (bits + count) := by
  rw [Nat.shiftLeft_eq, Nat.pow_add, ← Nat.mul_assoc]
  exact Nat.mul_lt_mul_of_pos_right small (Nat.two_pow_pos count)

/-- A decimal fraction whose whole part has 54 bits is rounded to a finite number. -/
theorem fits_ofScientific_fraction {c places : Nat} (small : c < 2 ^ 54 * 10 ^ (places + 1)) :
    Fits 971 (UnpackedFloat.ofScientific .binary64 c (.negSucc places)) := by
  unfold UnpackedFloat.ofScientific
  split
  · exact .zero _
  · have negative : Int.negSucc places < 0 := Int.negSucc_lt_zero places
    rw [if_neg (by simp; omega)]
    split
    · exact .zero _
    · rw [if_neg (by omega)]
      exact fits_div (by decide) small

/-- A whole number of 53 bits is converted with an exponent of at most one. -/
theorem fits_ofNat {n : Nat} (small : n < 2 ^ 53) : Fits 1 (UnpackedFloat.ofNat .binary64 n) := by
  unfold UnpackedFloat.ofNat UnpackedFloat.ofInt UnpackedFloat.normalize
  rcases Nat.eq_zero_or_pos n with rfl | positive
  · exact .zero _
  · rw [Int.compare_eq_gt.2 (by omega)]
    simp only [Int.toNat_natCast, UnpackedFloat.round, decreaseExponent, targetExponent_eq]
    generalize (0 - max ((n.log2 : Int) + 0 - 52) (-1074)).toNat = count
    have bits : n < (2 ^ 54 - 1) * 2 ^ 0 := by omega
    exact fits_roundWithAccuracy (shiftLeft_lt bits count) (by omega) (by decide)

/-- Each power of ten that is kept ready is a number other than zero, with an exponent near
zero. -/
theorem unpack_powersOfTen {k : Nat} (small : k < Float.exactlyRepresentablePowersOfTen.size) :
    ∃ sign m e positive, -63 ≤ e ∧
      (Float.exactlyRepresentablePowersOfTen[k]).toModel.unpack = .finite sign m e positive := by
  have every : Float.exactlyRepresentablePowersOfTen.toList.all (fun x =>
    match x.toModel.unpack with
    | .finite _ _ e _ => decide (-63 ≤ e)
    | _ => false) = true := by decide +kernel
  have here := List.all_eq_true.1 every _ (Array.getElem_mem_toList small)
  split at here
  · next sign m e positive same =>
    exact ⟨sign, m, e, positive, of_decide_eq_true here, same⟩
  · cases here

/-- A whole number of 53 bits over a power of ten that is kept ready fits. -/
theorem Fits.div {u v : UnpackedFloat} (fits : Fits 1 u) {sign : Sign} {m : Nat} {e : Int}
    {positive : 0 < m} (power : v = .finite sign m e positive) (low : -63 ≤ e) :
    Fits 971 (UnpackedFloat.div .binary64 u v) := by
  subst power
  cases fits with
  | zero => exact .zero _
  | finite bits _ high => exact fits_div (by omega) (by omega)

/-! ## Floating-point numbers -/

/-- The number is packed from one that fits. -/
def Packed (x : Float) : Prop := ∃ u, Fits 971 u ∧ x = .ofModel (.pack u)

/-- A number packed from one that fits is finite. -/
theorem Packed.isFinite {x : Float} (packed : Packed x) : (Binary.ofFloat x).isFinite = true := by
  obtain ⟨u, fits, rfl⟩ := packed
  have other := (fits.pack (by decide) (by decide)).1
  rw [toNat_unpackExponent] at other
  exact isFinite_ofBits other

/-- The other sign keeps a number packed from one that fits. -/
theorem Packed.neg {x : Float} (packed : Packed x) : Packed (-x) := by
  obtain ⟨u, fits, rfl⟩ := packed
  exact ⟨_, (fits.pack (by decide) (by decide)).2.neg, rfl⟩

/-- A decimal fraction is a quotient of floating-point numbers where both are exact, and is
rounded where they are not. -/
theorem packed_ofScientific_fraction {c places : Nat} (small : c < 2 ^ 54 * 10 ^ (places + 1)) :
    Packed (Float.ofScientific c true (places + 1)) := by
  unfold Float.ofScientific
  split
  · next exact =>
    have word : c.toUInt64.toNat < 2 ^ 53 := (Nat.mod_le c (2 ^ 64)).trans_lt exact.1
    obtain ⟨sign, m, e, positive, low, power⟩ := unpack_powersOfTen (k := places + 1)
      (Nat.lt_succ_of_le exact.2)
    exact ⟨_, ((fits_ofNat word).pack (by decide) (by decide)).2.div power low, rfl⟩
  · exact ⟨_, fits_ofScientific_fraction small, rfl⟩

end Rounding

namespace Decimal

open Rounding

/-- A number below a power of ten has no more digits. -/
theorem length_naturalText_le {n digits : Nat} (some : 0 < digits) (small : n < 10 ^ digits) :
    (naturalText n).length ≤ digits :=
  (Nat.length_toDigits_le_iff (by decide) some).2 small

/-- The sign of a decimal decides nothing about whether its nearest number is finite. -/
theorem isFinite_nearest {d : Decimal} (packed : Packed d.nearestMagnitude) :
    (Binary.ofFloat d.nearest).isFinite = true := by
  unfold nearest
  split
  · exact packed.neg.isFinite
  · exact packed.isFinite

/-- The nearest number of a decimal fraction is finite, if its whole part has 54 bits. -/
theorem isFinite_nearest_fraction (negative : Bool) {c places : Nat}
    (small : c < 2 ^ 54 * 10 ^ (places + 1)) :
    (Binary.ofFloat (nearest ⟨negative, c, .negSucc places⟩)).isFinite = true := by
  refine isFinite_nearest ?_
  unfold nearestMagnitude
  split
  · exact ⟨.zero .positive, .zero _, rfl⟩
  · have digits : (naturalText c).length ≤ 17 + (places + 1) := by
      refine length_naturalText_le (by omega) (small.trans_le ?_)
      rw [Nat.pow_add 10 17]
      exact Nat.mul_le_mul_right _ (by decide)
    rw [if_neg (by simp only [size]; omega), decide_eq_true (Int.negSucc_lt_zero places)]
    exact packed_ofScientific_fraction small

end Decimal

end PathQuery
