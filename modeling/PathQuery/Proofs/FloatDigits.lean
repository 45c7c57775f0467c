import PathQuery.Proofs.FloatText
import PathQuery.Proofs.ShortestDigits
/-!
# The digits of floating-point numbers

A finite number is written with a fraction, unless it is whole and not below ten to the sixteenth:
then its shortest digits stand without a point. In both cases a zero in front of the others is never
written, and which whole number the digits before the point say is known well enough to tell whether
it fits 64 bits.
-/
namespace PathQuery

namespace Token

/-- The number is as it is read from a document: as from a path, and a zero in front stands
alone. -/
structure Strict (n : Numeral) : Prop extends Plain n where
  /-- A zero in front is the only whole digit. -/
  leading : n.whole = ['0'] ∨ n.whole.head? ≠ some '0'

end Token

namespace Decimal

open Token (Strict numeralText numeralOfInt plain_numeralOfInt)

/-! ## Whole digits -/

/-- The digits of a number other than zero do not start with a zero. -/
theorem naturalText_of_pos {n : Nat} (positive : 0 < n) :
    ∃ c later, naturalText n = c :: later ∧ c ≠ '0' := by
  induction n using Nat.strongRecOn with
  | ind n ih =>
    rcases Nat.lt_or_ge n 10 with small | large
    · refine ⟨n.digitChar, [], Nat.toDigits_of_lt_base small, fun zero => ?_⟩
      exact Nat.ne_of_gt positive (Nat.digitChar_eq_zero.1 zero)
    · obtain ⟨c, later, same, noZero⟩ := ih (n / 10) (by omega) (by omega)
      refine ⟨c, later ++ [(n % 10).digitChar], ?_, noZero⟩
      rw [naturalText, Nat.toDigits_of_base_le (by decide) large]
      exact congrArg (· ++ [(n % 10).digitChar]) same

/-- Zeros behind the digits of a number other than zero multiply it by ten. -/
theorem naturalText_mul_ten_pow {n : Nat} (positive : 0 < n) (zeros : Nat) :
    naturalText (n * 10 ^ zeros) = naturalText n ++ List.replicate zeros '0' := by
  induction zeros with
  | zero => simp
  | succ zeros ih =>
    have front : 0 < n * 10 ^ zeros := Nat.mul_pos positive (Nat.pow_pos (by decide))
    have last := Nat.toDigits_append_toDigits (b := 10) (d := 0) (by decide) front (by decide)
    rw [List.replicate_succ', ← List.append_assoc, ← ih, Nat.pow_succ, ← Nat.mul_assoc,
      Nat.mul_comm _ 10]
    exact last.symm

/-- The digits of a number do not start with a zero, unless it is zero. -/
theorem naturalText_leading (n : Nat) :
    naturalText n = ['0'] ∨ (naturalText n).head? ≠ some '0' := by
  rcases Nat.eq_zero_or_pos n with rfl | positive
  · exact .inl rfl
  · obtain ⟨c, later, same, noZero⟩ := naturalText_of_pos positive
    rw [same]
    exact .inr fun zero => noZero (Option.some.inj zero)

/-- The digits of an integer have no zero before others. -/
theorem strict_numeralOfInt (value : Int) : Strict (numeralOfInt value) :=
  ⟨plain_numeralOfInt value, naturalText_leading value.natAbs⟩

/-- Digits in front of others count in powers of ten. -/
theorem digitsValue_append (front back : List Char) :
    digitsValue (front ++ back) = 10 ^ back.length * digitsValue front + digitsValue back := by
  rw [digitsValue, Nat.ofDigitChars_append, Nat.ofDigitChars_eq_ofDigitChars_zero]
  rfl

/-- Digits say less than a one with as many zeros. -/
theorem digitsValue_lt {digits : List Char} (inside : ∀ c ∈ digits, c.isDigit = true) :
    digitsValue digits < 10 ^ digits.length := by
  induction digits with
  | nil => exact Nat.one_pos
  | cons c later ih =>
    obtain ⟨digit, inside⟩ := List.forall_mem_cons.1 inside
    have small : digitsValue [c] < 10 := by
      have high : c.toNat ≤ 57 := (Char.isDigit_iff_toNat.1 digit).2
      have zero : '0'.toNat = 48 := rfl
      simp only [digitsValue, Nat.ofDigitChars_cons, Nat.ofDigitChars_nil, zero]
      omega
    rw [← List.singleton_append, digitsValue_append, List.length_append, Nat.pow_add]
    calc 10 ^ later.length * digitsValue [c] + digitsValue later
        < 10 ^ later.length * digitsValue [c] + 10 ^ later.length :=
          Nat.add_lt_add_left (ih inside) _
      _ = (digitsValue [c] + 1) * 10 ^ later.length := by ring
      _ ≤ 10 ^ [c].length * 10 ^ later.length := Nat.mul_le_mul_right _ small

/-! ## Digits with a point -/

/-- A point among the digits of a number leaves a zero in front only where no other digit is left,
and the digits on both sides of it say the number. -/
theorem exists_split_naturalText (negative : Bool) (n places : Nat) :
    ∃ whole fraction, Split (naturalText n) places whole fraction ∧
      Strict ⟨negative, whole, fraction, none⟩ ∧ digitsValue (whole ++ fraction) = n := by
  obtain ⟨whole, fraction, split⟩ := exists_split (naturalText n) places
  have leading : whole = ['0'] ∨ whole.head? ≠ some '0' := by
    rcases split.front with zero | ⟨nonempty, later, same⟩
    · exact .inl zero
    · obtain ⟨c, others, rfl⟩ := List.exists_cons_of_ne_nil nonempty
      rcases naturalText_leading n with zero | other
      · obtain ⟨rfl, none⟩ := List.cons.inj (same.trans zero)
        rw [(List.append_eq_nil_iff.1 none).1]
        exact .inl rfl
      · rw [← same] at other
        exact .inr other
  refine ⟨whole, fraction, split,
    ⟨split.plain (fun _ => isDigit_of_mem_naturalText) negative, leading⟩, ?_⟩
  obtain ⟨zeros, same⟩ := split.filled
  rw [same, digitsValue, Nat.ofDigitChars_append, Nat.ofDigitChars_replicate_zero, Nat.mul_zero]
  exact digitsValue_naturalText n

/-! ## The text of a floating-point number -/

variable {x : Float} {negative : Bool} {m : Nat} {e : Int}

/-- The number is whole and not below ten to the sixteenth. -/
def Unpointed (m : Nat) (e : Int) : Prop :=
  Binary.isWhole m e = true ∧ 10 ^ 16 ≤ Binary.wholePart m e

/-- A number with a fraction is written as its shortest digits, with a point among them and less
than ten to the sixteenth before it. -/
theorem exists_fraction_shortestText (negative : Bool) (bits : m < 2 ^ 53)
    (fraction : Binary.isWhole m e = false) :
    ∃ n, Strict n ∧ n.fraction ≠ [] ∧ numeralText n = shortestText negative m e ∧
      digitsValue n.whole < 10000000000000000 := by
  cases e with
  | ofNat => cases fraction
  | negSucc places =>
    have rest : m % 2 ^ (places + 1) ≠ 0 := by
      simpa [Binary.isWhole, Nat.shiftLeft_eq] using fraction
    have positive : m ≠ 0 := fun none => rest (by simp [none])
    obtain ⟨n, digits, found, high⟩ := shortest_of_not_whole negative rest
    rw [shortestText, if_neg positive, found, positional, positionalMagnitude]
    obtain ⟨whole, fraction, split, strict, value⟩ :=
      exists_split_naturalText negative n (digits + 1)
    have some : fraction ≠ [] := List.ne_nil_of_length_pos (split.length ▸ Nat.succ_pos digits)
    refine ⟨_, strict, some, ?_, ?_⟩
    · dsimp only
      rw [split.text]
      cases negative <;> simp [numeralText, some]
    · have units : digitsValue whole * 10 ^ (digits + 1) ≤ n := by
        rw [← value, digitsValue_append, split.length, Nat.mul_comm]
        exact Nat.le_add_right _ _
      have eighth : n * 2 ^ 3 ≤ (4 * m + 2) * 10 ^ (digits + 1) :=
        (Nat.mul_le_mul_left n (Nat.pow_le_pow_right Nat.two_pos (by omega))).trans high
      have scaled : digitsValue whole * 8 * 10 ^ (digits + 1) ≤ (4 * m + 2) * 10 ^ (digits + 1) :=
        calc digitsValue whole * 8 * 10 ^ (digits + 1)
            = digitsValue whole * 10 ^ (digits + 1) * 2 ^ 3 := Nat.mul_right_comm ..
          _ ≤ n * 2 ^ 3 := Nat.mul_le_mul_right _ units
          _ ≤ _ := eighth
      have below := Nat.le_of_mul_le_mul_right scaled (Nat.pow_pos (by decide))
      dsimp only
      omega

/-- A finite number with a fraction, or below ten to the sixteenth, is written with a fraction and
with less than ten to the sixteenth before it. -/
theorem exists_fraction_floatText (parts : Binary.ofFloat x = .finite negative m e)
    (pointed : ¬Unpointed m e) :
    ∃ n, Strict n ∧ n.fraction ≠ [] ∧ numeralText n = floatText x ∧
      digitsValue n.whole < 10000000000000000 := by
  unfold floatText
  simp only [parts]
  split
  · next small =>
    have below := of_decide_eq_true (Bool.and_eq_true_iff.1 small).2
    refine ⟨⟨negative, naturalText (Binary.wholePart m e), ['0'], none⟩,
      ⟨⟨Nat.toDigits_ne_nil, fun _ => isDigit_of_mem_naturalText, by simp, rfl⟩,
        naturalText_leading _⟩, nofun, by simp [numeralText], ?_⟩
    rw [digitsValue_naturalText]
    exact below
  · next large =>
    refine exists_fraction_shortestText negative (Binary.proper_of_ofFloat parts).bits ?_
    simp only [Unpointed] at pointed
    cases whole : Binary.isWhole m e with
    | false => rfl
    | true =>
      simp only [whole, Bool.true_and, decide_eq_true_eq, true_and] at large pointed
      omega

/-- Ten to the sixteenth takes more than the 53 bits of a mantissa. -/
theorem exists_shift_of_large (bits : m < 2 ^ 53) (large : 10 ^ 16 ≤ Binary.wholePart m e) :
    ∃ shift : Nat, e = shift ∧ 0 < shift ∧ Binary.wholePart m e = m * 2 ^ shift := by
  cases e with
  | ofNat shift =>
    refine ⟨shift, rfl, Nat.pos_of_ne_zero ?_, Nat.shiftLeft_eq ..⟩
    rintro rfl
    have same : Binary.wholePart m (.ofNat 0) = m := Nat.shiftLeft_zero
    omega
  | negSucc places =>
    have less : Binary.wholePart m (.negSucc places) ≤ m := Nat.shiftRight_le ..
    omega

/-- A whole number other than zero is written as its magnitude behind its sign. -/
theorem integerText_of_sign (negative : Bool) {n : Nat} (positive : 0 < n) :
    integerText (if negative then -(n : Int) else n) =
      if negative then '-' :: naturalText n else naturalText n := by
  cases negative with
  | true => simp [integerText, positive]
  | false => simp [integerText]

/-- The shortest digits of two to the sixty-third say a larger number. -/
theorem shortest_limit (negative : Bool) :
    shortest negative (2 ^ 52) (11 : Nat) = ⟨negative, 9223372036854776, 3⟩ := by
  cases negative <;> rfl

/-- A finite number that is whole and not below ten to the sixteenth is written as a whole number.
This one is below two to the sixty-third where the number is, and above it everywhere else. -/
theorem exists_integerText_floatText (parts : Binary.ofFloat x = .finite negative m e)
    (unpointed : Unpointed m e) :
    ∃ n : Nat, 0 < n ∧ floatText x = integerText (if negative then -(n : Int) else n) ∧
      (Binary.wholePart m e < 2 ^ 63 → n < 2 ^ 63) ∧
      (2 ^ 63 ≤ Binary.wholePart m e → 2 ^ 63 < n) := by
  have proper := Binary.proper_of_ofFloat parts
  obtain ⟨whole, large⟩ := unpointed
  obtain ⟨shift, rfl, some, value⟩ := exists_shift_of_large proper.bits large
  have positive : 0 < m := by
    rcases Nat.eq_zero_or_pos m with rfl | positive
    · simp [value] at large
    · exact positive
  obtain ⟨c, zeros, found, low, high⟩ := shortest_of_large negative positive some
  have unit : 2 ^ shift ≤ m * 2 ^ shift := Nat.le_mul_of_pos_left _ positive
  have digits : 0 < c * 10 ^ zeros := by
    have := Nat.two_pow_pos shift
    omega
  have text : floatText x = integerText (if negative then -((c * 10 ^ zeros : Nat) : Int)
      else (c * 10 ^ zeros : Nat)) := by
    have notSmall : ¬(Binary.isWhole m shift &&
        decide (Binary.wholePart m shift < 10000000000000000)) = true := by
      simp only [Bool.and_eq_true, decide_eq_true_eq]
      omega
    simp only [floatText, parts]
    rw [if_neg notSmall, shortestText, if_neg positive.ne', found, positional, positionalMagnitude]
    simp only [← naturalText_mul_ten_pow (Nat.pos_of_mul_pos_right digits)]
    exact (integerText_of_sign negative digits).symm
  rw [value]
  refine ⟨c * 10 ^ zeros, digits, text, lt_of_lt_limit proper some high, fun beyond => ?_⟩
  by_cases least : m = 2 ^ 52 ∧ shift = 11
  · obtain ⟨rfl, rfl⟩ := least
    rw [shortest_limit] at found
    obtain ⟨-, rfl, same⟩ := Decimal.mk.inj found
    obtain rfl : 3 = zeros := Int.ofNat.inj same
    decide
  · exact limit_lt_of_le proper low least beyond

/-- A finite number is written as a number without a zero before other whole digits. -/
theorem exists_strict_floatText (finite : (Binary.ofFloat x).isFinite = true) :
    ∃ n, Strict n ∧ numeralText n = floatText x := by
  cases parts : Binary.ofFloat x with
  | nan | infinite => cases parts ▸ finite
  | finite negative m e =>
    by_cases unpointed : Unpointed m e
    · obtain ⟨n, -, text, -⟩ := exists_integerText_floatText parts unpointed
      exact ⟨_, strict_numeralOfInt _, (Token.numeralText_numeralOfInt _).trans text.symm⟩
    · obtain ⟨n, strict, -, text, -⟩ := exists_fraction_floatText parts unpointed
      exact ⟨n, strict, text⟩

end Decimal

end PathQuery
