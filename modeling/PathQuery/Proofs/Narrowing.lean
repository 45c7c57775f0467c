import PathQuery.Eval.Coercion
import Mathlib.Data.Rat.Floor
/-!
# Numbers in 32 and in 64 bits

A number is converted to an integer of 64 bits and to one of 32 bits. An integer of the document
wraps: in 32 bits it is what is left of it in 64 bits. A floating-point number loses its fraction
and is then moved to the nearer bound of either width. So in 32 bits it is what is left of it in 64
bits only where it fits 32 bits, and where wrapping leads to the very bound that it is moved to.
-/
namespace PathQuery

namespace Binary

/-! ## Numbers without their fraction -/

/-- The number that the parts of a finite number say. -/
def value? : Binary → Option ℚ
  | .finite negative mantissa exponent =>
    some (if negative then -(mantissa * 2 ^ exponent) else mantissa * 2 ^ exponent)
  | _ => none

/-- The whole number that is left of a number when its fraction is cut off. -/
def towardZero (q : ℚ) : ℤ := if 0 ≤ q then ⌊q⌋ else ⌈q⌉

/-- From zero on the fraction is cut off downward. -/
theorem towardZero_of_nonneg {q : ℚ} (nonneg : 0 ≤ q) : towardZero q = ⌊q⌋ :=
  if_pos nonneg

/-- Cutting off the fraction keeps the sign. -/
theorem towardZero_neg (q : ℚ) : towardZero (-q) = -towardZero q := by
  rcases lt_trichotomy q 0 with negative | rfl | positive
  · rw [towardZero_of_nonneg (by linarith), towardZero, if_neg (by linarith), Int.floor_neg]
  · rfl
  · rw [towardZero_of_nonneg positive.le, towardZero, if_neg (by linarith), Int.ceil_neg]

/-- A whole number has no fraction to cut off. -/
theorem towardZero_intCast (n : ℤ) : towardZero n = n := by
  unfold towardZero
  split
  · exact Int.floor_intCast n
  · exact Int.ceil_intCast n

/-- The whole part of a mantissa and an exponent is that of the number they say. -/
theorem floor_eq_wholePart (mantissa : Nat) (exponent : Int) :
    ⌊(mantissa * 2 ^ exponent : ℚ)⌋ = wholePart mantissa exponent := by
  cases exponent with
  | ofNat e =>
    have whole : (mantissa * 2 ^ (Int.ofNat e) : ℚ) = ((mantissa * 2 ^ e : ℕ) : ℤ) := by
      push_cast
      rfl
    rw [whole, Int.floor_intCast, wholePart, Nat.shiftLeft_eq]
  | negSucc e =>
    have fraction : (mantissa * 2 ^ (Int.negSucc e) : ℚ) = mantissa / (2 ^ (e + 1) : ℕ) := by
      push_cast
      rw [zpow_negSucc, div_eq_mul_inv]
    rw [fraction, Rat.floor_natCast_div_natCast, wholePart, Nat.shiftRight_eq_div_pow]
    rfl

/-- A finite number is clamped without its fraction. -/
theorem clamp_of_value? {x : Binary} {q : ℚ} (said : x.value? = some q) (low high : Int) :
    x.clamp low high = max low (min high (towardZero q)) := by
  cases x with
  | nan | infinite => cases said
  | finite negative mantissa exponent =>
    obtain rfl := Option.some.inj said
    have nonneg : (0 : ℚ) ≤ mantissa * 2 ^ exponent :=
      mul_nonneg mantissa.cast_nonneg (zpow_nonneg zero_le_two exponent)
    have whole := (towardZero_of_nonneg nonneg).trans (floor_eq_wholePart mantissa exponent)
    cases negative with
    | true => simp only [clamp, if_true, towardZero_neg, whole]
    | false => simp only [clamp, Bool.false_eq_true, if_false, whole]

end Binary

namespace Node

open Binary (towardZero)

/-- The number of a node, unless it is none or not finite. -/
def rational? : Node → Option ℚ
  | .integer n => some n.toInt
  | .float x => (Binary.ofFloat x).value?
  | _ => none

/-- A node is a number that is wrapped to 32 bits. -/
structure WrapsTo32 (n : Node) : Prop where
  /-- In 32 bits it is what is left of it in 64 bits. -/
  reduced : ∃ wide, n.long? = some wide ∧ n.int? = some wide.toInt32
  /-- In 32 bits it is what is left of it without its fraction. -/
  wrapped : ∀ q, n.rational? = some q →
    ∃ narrow, n.int? = some narrow ∧ narrow.toInt = (towardZero q).bmod (2 ^ 32)

/-- The whole numbers for which it makes no difference whether they are wrapped to 32 bits or moved
to the bounds, if 64 bits hold them. -/
inductive Steady (t : ℤ) : Prop where
  /-- The number fits 32 bits. -/
  | fits (low : -2 ^ 31 ≤ t) (high : t < 2 ^ 31)
  /-- The number is too large for 32 bits, and wraps to the upper bound. -/
  | top (above : 2 ^ 31 ≤ t) (high : t < 2 ^ 63) (bound : t.bmod (2 ^ 32) = 2 ^ 31 - 1)
  /-- The number is too small for 32 bits, and wraps to the lower bound. -/
  | bottom (low : -2 ^ 63 ≤ t) (below : t < -2 ^ 31) (bound : t.bmod (2 ^ 32) = -2 ^ 31)

/-- The nodes that are numbers and in 32 bits the same as if every number were wrapped. -/
inductive Wrappable : Node → Prop where
  /-- An integer wraps. -/
  | integer (n : Int64) : Wrappable (.integer n)
  /-- What is not a number is zero in both widths. -/
  | nan {x : Float} (parts : Binary.ofFloat x = .nan) : Wrappable (.float x)
  /-- A finite number is steady without its fraction. -/
  | finite {x : Float} {q : ℚ} (said : (Binary.ofFloat x).value? = some q)
    (steady : Steady (towardZero q)) : Wrappable (.float x)

variable {x : Float} {q : ℚ}

/-- A floating-point number in 32 bits is moved to the nearer bound. -/
theorem exists_int?_float (x : Float) : ∃ narrow, (float x).int? = some narrow ∧
    narrow.toInt = (Binary.ofFloat x).clamp (-2 ^ 31) (2 ^ 31 - 1) := by
  obtain ⟨low, high⟩ := @Binary.clamp_bounds (-2 ^ 31) (2 ^ 31 - 1) (by decide) (by decide)
    (Binary.ofFloat x)
  exact ⟨_, rfl, Int32.toInt_ofInt_of_le low (Int.lt_of_le_sub_one high)⟩

/-- A floating-point number in 64 bits is moved to the nearer bound. -/
theorem exists_long?_float (x : Float) : ∃ wide, (float x).long? = some wide ∧
    wide.toInt = (Binary.ofFloat x).clamp (-2 ^ 63) (2 ^ 63 - 1) := by
  obtain ⟨low, high⟩ := @Binary.clamp_bounds (-2 ^ 63) (2 ^ 63 - 1) (by decide) (by decide)
    (Binary.ofFloat x)
  exact ⟨_, rfl, Int64.toInt_ofInt_of_le low (Int.lt_of_le_sub_one high)⟩

/-- In 32 bits a floating-point number is what is left of it in 64 bits, if moving it to the bounds
of 64 bits and wrapping it then moves it to the bounds of 32 bits. -/
theorem reduced_iff (x : Float) :
    (∃ wide, (float x).long? = some wide ∧ (float x).int? = some wide.toInt32) ↔
      (Binary.ofFloat x).clamp (-2 ^ 31) (2 ^ 31 - 1) =
        ((Binary.ofFloat x).clamp (-2 ^ 63) (2 ^ 63 - 1)).bmod (2 ^ 32) := by
  obtain ⟨narrow, found, same⟩ := exists_int?_float x
  obtain ⟨wide, foundWide, sameWide⟩ := exists_long?_float x
  rw [found, foundWide, ← same, ← sameWide, ← Int64.toInt_toInt32, Int32.toInt_inj]
  simp

/-- A steady number is moved to the bounds of 32 bits as it is wrapped. -/
theorem Steady.clamp_eq {t : ℤ} (steady : Steady t) :
    max (-2 ^ 31) (min (2 ^ 31 - 1) t) = t.bmod (2 ^ 32) := by
  cases steady with
  | fits low high =>
    rw [Int.bmod_eq_of_le_mul_two (by omega) (by omega)]
    omega
  | top above high bound => omega
  | bottom low below bound => omega

/-- Exactly the steady numbers are moved to the bounds of 32 bits as they are wrapped behind the
bounds of 64 bits: these bounds themselves wrap to minus one and to zero. -/
theorem steady_iff {t : ℤ} : Steady t ↔
    max (-2 ^ 31) (min (2 ^ 31 - 1) t) = (max (-2 ^ 63) (min (2 ^ 63 - 1) t)).bmod (2 ^ 32) := by
  constructor
  · intro steady
    have inside : max (-2 ^ 63) (min (2 ^ 63 - 1) t) = t := by cases steady <;> omega
    rw [inside, steady.clamp_eq]
  · intro same
    have place : (-2 ^ 31 ≤ t ∧ t < 2 ^ 31) ∨
        (2 ^ 31 ≤ t ∧ t < 2 ^ 63 ∧ t.bmod (2 ^ 32) = 2 ^ 31 - 1) ∨
        (-2 ^ 63 ≤ t ∧ t < -2 ^ 31 ∧ t.bmod (2 ^ 32) = -2 ^ 31) := by
      simp only [Int.bmod_def] at same ⊢
      omega
    rcases place with ⟨low, high⟩ | ⟨above, high, bound⟩ | ⟨low, below, bound⟩
    · exact .fits low high
    · exact .top above high bound
    · exact .bottom low below bound

/-- An integer wraps. -/
theorem wrapsTo32_integer (n : Int64) : (integer n).WrapsTo32 where
  reduced := ⟨n, rfl, rfl⟩
  wrapped := by
    rintro q said
    obtain rfl := Option.some.inj said
    exact ⟨_, rfl, by rw [Int64.toInt_toInt32, Binary.towardZero_intCast]⟩

/-- A finite number is wrapped exactly where it is steady without its fraction. -/
theorem wrapsTo32_finite_iff (said : (Binary.ofFloat x).value? = some q) :
    (float x).WrapsTo32 ↔ Steady (towardZero q) := by
  have reduced := reduced_iff x
  rw [Binary.clamp_of_value? said, Binary.clamp_of_value? said, ← steady_iff] at reduced
  refine ⟨fun wraps => reduced.1 wraps.reduced, fun steady => ⟨reduced.2 steady, ?_⟩⟩
  intro r other
  obtain rfl := Option.some.inj (said.symm.trans other)
  obtain ⟨narrow, found, clamped⟩ := exists_int?_float x
  rw [Binary.clamp_of_value? said, steady.clamp_eq] at clamped
  exact ⟨narrow, found, clamped⟩

/-- A floating-point number is wrapped exactly if that makes no difference: an infinity is moved to
the bounds of both widths, and those of 64 bits do not wrap to those of 32. -/
theorem wrapsTo32_float_iff (x : Float) : (float x).WrapsTo32 ↔ (float x).Wrappable := by
  cases parts : Binary.ofFloat x with
  | nan =>
    refine ⟨fun _ => .nan parts, fun _ => ⟨(reduced_iff x).2 ?_, fun q said => ?_⟩⟩
    · rw [parts]
      rfl
    · rw [rational?, parts] at said
      cases said
  | infinite negative =>
    constructor
    · intro wraps
      have same := (reduced_iff x).1 wraps.reduced
      rw [parts] at same
      cases negative <;> cases same
    · intro wrappable
      cases wrappable with
      | nan other => cases parts.symm.trans other
      | finite said =>
        rw [parts] at said
        cases said
  | finite =>
    have said := congrArg Binary.value? parts
    rw [wrapsTo32_finite_iff said]
    refine ⟨.finite said, fun wrappable => ?_⟩
    cases wrappable with
    | nan other => cases parts.symm.trans other
    | finite other steady =>
      obtain rfl := Option.some.inj (said.symm.trans other)
      exact steady

/-- A node is a number that is wrapped to 32 bits exactly if it is an integer, or a floating-point
number for which wrapping makes no difference. Every finite floating-point number is moved to the
nearer bound of 32 bits instead. -/
theorem wrapsTo32_iff (n : Node) :
    (n.WrapsTo32 ↔ n.Wrappable) ∧
    ∀ x q, n = .float x → n.rational? = some q → ∃ narrow, n.int? = some narrow ∧
      narrow.toInt = max (-2 ^ 31) (min (2 ^ 31 - 1) (towardZero q)) := by
  constructor
  · cases n with
    | integer n => exact ⟨fun _ => .integer n, fun _ => wrapsTo32_integer n⟩
    | float x => exact wrapsTo32_float_iff x
    | null | boolean | string | array | object | missing =>
      refine ⟨fun wraps => ?_, nofun⟩
      obtain ⟨wide, found, -⟩ := wraps.reduced
      cases found
  · rintro n q rfl said
    obtain ⟨narrow, found, clamped⟩ := exists_int?_float n
    exact ⟨narrow, found, clamped.trans (Binary.clamp_of_value? said _ _)⟩

/-- The number 6442450943.5 is too large for 32 bits, and both wraps and is moved to the upper
bound. -/
theorem wrapsTo32_iff_bound :
    let n := Node.float (Float.ofBits 0x41f7fffffff80000)
    n.rational? = some (12884901887 / 2) ∧ n.WrapsTo32 ∧
      ∃ narrow, n.int? = some narrow ∧ narrow.toInt = 2147483647 := by
  intro n
  have parts : Binary.ofFloat (Float.ofBits 0x41f7fffffff80000) =
      .finite false 6755399440531456 (-20) := by decide +kernel
  have said : n.rational? = some (12884901887 / 2) := by
    rw [rational?, parts, Binary.value?]
    norm_num
  have whole : towardZero (12884901887 / 2) = 6442450943 := by norm_num [towardZero]
  obtain ⟨exactly, moved⟩ := wrapsTo32_iff n
  refine ⟨said, exactly.2 (.finite said ?_), ?_⟩
  · rw [whole]
    exact .top (by decide) (by decide) (by decide)
  · obtain ⟨narrow, found, clamped⟩ := moved _ _ rfl said
    rw [whole] at clamped
    exact ⟨narrow, found, clamped⟩

/-- Two to the thirty-first is moved to the upper bound of 32 bits, and would wrap to the lower
one. -/
theorem not_wrapsTo32_two_pow_31 :
    let n := Node.float (Float.ofBits 0x41e0000000000000)
    n.int? = some 2147483647 ∧ n.long? = some 2147483648 ∧ n.rational? = some (2 ^ 31) ∧
      ¬ n.WrapsTo32 := by
  intro n
  have parts : Binary.ofFloat (Float.ofBits 0x41e0000000000000) =
      .finite false 4503599627370496 (-21) := by decide +kernel
  have narrow : n.int? = some 2147483647 := by
    rw [int?, parts]
    rfl
  have wide : n.long? = some 2147483648 := by
    rw [long?, parts]
    rfl
  have said : n.rational? = some (2 ^ 31) := by
    rw [rational?, parts, Binary.value?]
    norm_num
  refine ⟨narrow, wide, said, fun wraps => ?_⟩
  obtain ⟨other, found, left⟩ := wraps.reduced
  obtain rfl := Option.some.inj (wide.symm.trans found)
  cases Option.some.inj (narrow.symm.trans left)

end Node

end PathQuery
