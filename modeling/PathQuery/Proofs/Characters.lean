import PathQuery.Text.Blank
import PathQuery.Text.Numeric
/-!
# Classes that share no character

The published tables keep white space apart from letters and numerals, so that blanks around a
name never belong to it, and digits apart from letters, so that no number starts as a name.
-/
namespace PathQuery.Text

/-- Whether no range of one list meets a range of the other. -/
def Ranges.apart (left right : Ranges) : Bool :=
  left.all fun a => right.all fun b => a.2 < b.1 || b.2 < a.1

/-- A character in some ranges lies in none that are apart from them. -/
theorem Ranges.not_contain_of_apart {left right : Ranges} {c : Char}
    (apart : left.apart right = true) (inside : left.contain c = true) :
    right.contain c = false := by
  rw [Ranges.contain, List.any_eq_true] at inside
  obtain ⟨a, member, within⟩ := inside
  rw [Ranges.contain, List.any_eq_false]
  intro b other
  have separate := List.all_eq_true.1 (List.all_eq_true.1 apart a member) b other
  simp only [Bool.or_eq_true, Bool.and_eq_true, decide_eq_true_eq] at within separate ⊢
  omega

/-- The letters of ASCII. -/
def asciiLetters : Ranges := [(0x41, 0x5a), (0x61, 0x7a)]

/-- The digits of ASCII. -/
def asciiDigits : Ranges := [(0x30, 0x39)]

/-- A letter of ASCII lies in the ranges of these. -/
theorem asciiLetters_contain {c : Char} (letter : c.isAlpha = true) :
    asciiLetters.contain c = true := by
  have bounds : (65 ≤ c.toNat ∧ c.toNat ≤ 90) ∨ (97 ≤ c.toNat ∧ c.toNat ≤ 122) := by
    rcases Bool.or_eq_true_iff.1 letter with upper | lower
    · obtain ⟨low, high⟩ : c.val ≥ 'A'.val ∧ c.val ≤ 'Z'.val := of_decide_eq_true upper
      exact .inl ⟨UInt32.le_iff_toNat_le.1 low, UInt32.le_iff_toNat_le.1 high⟩
    · obtain ⟨low, high⟩ := Bool.and_eq_true_iff.1 lower
      have low := of_decide_eq_true low
      have high := of_decide_eq_true high
      exact .inr ⟨UInt32.le_iff_toNat_le.1 low, UInt32.le_iff_toNat_le.1 high⟩
  simpa [Ranges.contain, asciiLetters] using bounds

/-- A digit of ASCII lies in the range of these. -/
theorem asciiDigits_contain {c : Char} (digit : c.isDigit = true) :
    asciiDigits.contain c = true := by
  simpa [Ranges.contain, asciiDigits, Char.isDigit, UInt32.le_iff_toNat_le] using digit

/-- No digit is alphabetic. -/
theorem not_isAlphabetic_of_isDigit {c : Char} (digit : c.isDigit = true) :
    isAlphabetic c = false := by
  have inside := asciiDigits_contain digit
  have noLetter : c.isAlpha = false := by
    refine Bool.eq_false_iff.2 fun letter => ?_
    have outside : asciiLetters.contain c = false := Ranges.not_contain_of_apart (by decide) inside
    rw [asciiLetters_contain letter] at outside
    cases outside
  have beyond : alphabeticRanges.contain c = false :=
    Ranges.not_contain_of_apart (by decide +kernel) inside
  rw [isAlphabetic, noLetter, beyond, Bool.and_false, Bool.or_false]

/-- No alphabetic character is blank. -/
theorem not_isBlank_of_isAlphabetic {c : Char} (alphabetic : isAlphabetic c = true) :
    isBlank c = false := by
  rw [isAlphabetic, Bool.or_eq_true] at alphabetic
  rcases alphabetic with letter | beyond
  · exact Ranges.not_contain_of_apart (by decide) (asciiLetters_contain letter)
  · have inside := (Bool.and_eq_true _ _ ▸ beyond).2
    exact Ranges.not_contain_of_apart (by decide +kernel) inside

/-- No numeric character is blank. -/
theorem not_isBlank_of_isNumeric {c : Char} (numeric : isNumeric c = true) :
    isBlank c = false := by
  rw [isNumeric, Bool.or_eq_true] at numeric
  rcases numeric with digit | beyond
  · exact Ranges.not_contain_of_apart (by decide) (asciiDigits_contain digit)
  · have inside := (Bool.and_eq_true _ _ ▸ beyond).2
    exact Ranges.not_contain_of_apart (by decide +kernel) inside

end PathQuery.Text
