import PathQuery.Proofs.Spelling
import PathQuery.Document.Render
/-!
# Floating-point numbers as they are written

Which digits a floating-point number has is a matter of its own. Whatever they are, if they are
read back as the number when they stand alone, they are in any place where no digit follows.
-/
namespace PathQuery

open Token (Plain numeralText)

namespace Decimal

/-- The digits of a natural number are digits. -/
theorem isDigit_of_mem_naturalText {n : Nat} {c : Char} (member : c ∈ naturalText n) :
    c.isDigit = true :=
  Nat.isDigit_of_mem_toDigits (by decide) (by decide) member

/-- Zeros that fill up are digits. -/
theorem isDigit_of_mem_zeros {count : Nat} {c : Char} (member : c ∈ List.replicate count '0') :
    c.isDigit = true := by
  obtain ⟨-, rfl⟩ := List.mem_replicate.1 member
  rfl

/-- What a point before the last `places` digits has on its two sides, with zeros in front as many
as it takes to leave a digit before the point. -/
structure Split (digits : List Char) (places : Nat) (whole fraction : List Char) : Prop where
  /-- The point stands between the two sides. -/
  text : pointed digits places = whole ++ '.' :: fraction
  /-- Before it there is one zero, or a front of the digits. -/
  front : whole = ['0'] ∨ whole ≠ [] ∧ whole <+: digits
  /-- Behind it there are as many digits as places. -/
  length : fraction.length = places
  /-- Both sides together are the digits behind zeros. -/
  filled : ∃ zeros, whole ++ fraction = List.replicate zeros '0' ++ digits

/-- A point has two sides. -/
theorem exists_split (digits : List Char) (places : Nat) :
    ∃ whole fraction, Split digits places whole fraction := by
  refine ⟨_, _, rfl, ?_, ?_, _, List.take_append_drop _ _⟩
  · rcases Nat.lt_or_ge places digits.length with enough | few
    · have none : places + 1 - digits.length = 0 := by omega
      rw [none, List.replicate_zero, List.nil_append]
      refine .inr ⟨List.ne_nil_of_length_pos ?_, List.take_prefix _ _⟩
      rw [List.length_take]
      omega
    · obtain ⟨filled, count⟩ : ∃ filled, places + 1 - digits.length = filled + 1 :=
        ⟨places - digits.length, by omega⟩
      have one : (List.replicate (places + 1 - digits.length) '0' ++ digits).length - places =
          1 := by
        rw [List.length_append, List.length_replicate]
        omega
      rw [one, count]
      exact .inl rfl
  · rw [List.length_drop, List.length_append, List.length_replicate]
    omega

namespace Split

variable {digits whole fraction : List Char} {places : Nat}

/-- There is a digit before the point. -/
theorem nonempty (split : Split digits places whole fraction) : whole ≠ [] := by
  rcases split.front with rfl | ⟨nonempty, -⟩
  · nofun
  · exact nonempty

/-- On both sides there are digits. -/
theorem isDigit (split : Split digits places whole fraction)
    (inside : ∀ c ∈ digits, c.isDigit = true) : ∀ c ∈ whole ++ fraction, c.isDigit = true := by
  obtain ⟨zeros, same⟩ := split.filled
  intro c member
  rw [same] at member
  exact (List.mem_append.1 member).elim isDigit_of_mem_zeros (inside c)

/-- The two sides stand as a number in a path. -/
theorem plain (split : Split digits places whole fraction)
    (inside : ∀ c ∈ digits, c.isDigit = true) (negative : Bool) :
    Plain ⟨negative, whole, fraction, none⟩ where
  nonempty := split.nonempty
  whole c member := split.isDigit inside c (List.mem_append_left _ member)
  fraction c member := split.isDigit inside c (List.mem_append_right _ member)
  exponent := rfl

end Split

/-- Positional notation writes a number as it stands in a path. -/
theorem exists_numeralText_positional (d : Decimal) :
    ∃ n, Plain n ∧ numeralText n = d.positional := by
  obtain ⟨n, plain, negative, magnitude⟩ : ∃ n, Plain n ∧ n.negative = d.negative ∧
      d.positionalMagnitude = n.whole ++ (if n.fraction = [] then [] else '.' :: n.fraction) := by
    cases exponent : d.exponent with
    | ofNat count =>
      have nonempty : naturalText d.coefficient ≠ [] := Nat.toDigits_ne_nil
      refine ⟨⟨d.negative, naturalText d.coefficient ++ List.replicate count '0', [], none⟩,
        ⟨?_, fun c member => ?_, nofun, rfl⟩, rfl, ?_⟩
      · exact List.append_ne_nil_of_left_ne_nil nonempty _
      · exact (List.mem_append.1 member).elim isDigit_of_mem_naturalText isDigit_of_mem_zeros
      · simp [positionalMagnitude, exponent]
    | negSucc places =>
      obtain ⟨whole, fraction, split⟩ := exists_split (naturalText d.coefficient) (places + 1)
      have some : fraction ≠ [] := List.ne_nil_of_length_pos (split.length ▸ Nat.succ_pos places)
      refine ⟨⟨d.negative, whole, fraction, none⟩,
        split.plain (fun _ => isDigit_of_mem_naturalText) _, rfl, ?_⟩
      simp only [positionalMagnitude, exponent, split.text, some, if_false]
  refine ⟨n, plain, ?_⟩
  cases sign : d.negative <;> simp [numeralText, positional, negative, magnitude, sign]

/-- A finite floating-point number is written as a number stands in a path. -/
theorem exists_numeralText_floatText {x : Float} (finite : (Binary.ofFloat x).isFinite = true) :
    ∃ n, Plain n ∧ numeralText n = floatText x := by
  cases parts : Binary.ofFloat x with
  | nan | infinite => cases parts ▸ finite
  | finite negative mantissa exponent =>
    simp only [floatText, parts]
    split
    · refine ⟨⟨negative, naturalText (Binary.wholePart mantissa exponent), ['0'], none⟩,
        ⟨Nat.toDigits_ne_nil, fun _ => isDigit_of_mem_naturalText, ?_, rfl⟩, ?_⟩
      · simp
      · simp [numeralText]
    · unfold shortestText
      split <;> exact exists_numeralText_positional _

/-- The characters of numbers in positional notation. -/
def isPositional (c : Char) : Bool := c.isDigit || c == '-' || c == '.'

/-- A number that stands in a path is written in positional notation. -/
theorem isPositional_of_mem_numeralText {n : Numeral} {c : Char} (plain : Plain n)
    (member : c ∈ numeralText n) : isPositional c = true := by
  rw [numeralText, List.mem_append, List.mem_append] at member
  rcases member with (sign | whole) | fraction
  · split at sign
    · obtain rfl := List.mem_singleton.1 sign
      rfl
    · cases sign
  · simp [isPositional, plain.whole c whole]
  · split at fraction
    · cases fraction
    · rcases List.mem_cons.1 fraction with rfl | inside
      · rfl
      · simp [isPositional, plain.fraction c inside]

/-- A whole number is written in positional notation. -/
theorem isPositional_of_mem_integerText {n : Int} {c : Char} (member : c ∈ integerText n) :
    isPositional c = true := by
  rw [← Token.numeralText_numeralOfInt] at member
  exact isPositional_of_mem_numeralText (Token.plain_numeralOfInt n) member

/-- A finite floating-point number is written in positional notation. -/
theorem isPositional_of_mem_floatText {x : Float} {c : Char}
    (finite : (Binary.ofFloat x).isFinite = true) (member : c ∈ floatText x) :
    isPositional c = true := by
  obtain ⟨n, plain, same⟩ := exists_numeralText_floatText finite
  exact isPositional_of_mem_numeralText plain (same ▸ member)

/-- No character of positional notation is blank. -/
theorem not_isBlank_of_isPositional {c : Char} (positional : isPositional c = true) :
    Text.isBlank c = false := by
  simp only [isPositional, Bool.or_eq_true, beq_iff_eq] at positional
  rcases positional with (digit | rfl) | rfl
  · exact Text.not_isBlank_of_isNumeric (Text.isNumeric_of_isDigit digit)
  · rfl
  · rfl

/-- A floating-point number that is not finite is written as null. -/
theorem floatText_of_not_finite {x : Float} (other : (Binary.ofFloat x).isFinite = false) :
    floatText x = ['n', 'u', 'l', 'l'] := by
  unfold floatText
  cases parts : Binary.ofFloat x with
  | finite => cases parts ▸ other
  | nan | infinite => rfl

/-- No character of a floating-point number is blank. -/
theorem not_isBlank_of_mem_floatText {x : Float} {c : Char} (member : c ∈ floatText x) :
    Text.isBlank c = false := by
  cases finite : (Binary.ofFloat x).isFinite with
  | true => exact not_isBlank_of_isPositional (isPositional_of_mem_floatText finite member)
  | false =>
    rw [floatText_of_not_finite finite] at member
    have letters : ['n', 'u', 'l', 'l'].all Text.isAlphabetic = true := rfl
    exact Text.not_isBlank_of_isAlphabetic (List.all_eq_true.1 letters c member)

end Decimal

namespace Lexer

/-! ## What the tokens of a text tell -/

/-- The tokens of a text are none, where the end comes next, or a next token and those behind it. -/
theorem next_of_tokens {l : Lexer} {s : TokenStream} (read : l.tokens = .ok s) :
    (∃ after, l.next = (.ok ⟨.endOfInput, s.finish⟩, after) ∧ s.tokens = []) ∨
      ∃ found after later, l.next = (.ok found, after) ∧ found.token ≠ .endOfInput ∧
        after.tokens = .ok later ∧ s = { later with tokens := found :: later.tokens } := by
  rw [tokens] at read
  split at read
  · cases read
  · next found after ok =>
    split at read
    · next ended =>
      obtain rfl := Except.ok.inj read
      obtain ⟨token, p⟩ := found
      obtain rfl : token = .endOfInput := ended
      exact .inl ⟨after, ok, rfl⟩
    · next inside =>
      split at read
      · next later rest =>
        obtain rfl := Except.ok.inj read
        exact .inr ⟨found, after, later, ok, inside, rest, rfl⟩
      · cases read

/-- The next token of a lexer that stands at no blank is scanned at its front. -/
theorem scan_of_next {l after : Lexer} {token : Token} {p : Nat}
    (starts : Token.Ends Text.isBlank l.rest) (read : l.next = (.ok ⟨token, p⟩, after)) :
    ∃ width, Token.scan (!l.afterDot) l.rest = .token token width ∧
      after.rest = l.rest.drop width := by
  simp only [next, skipBlank_of_ends starts] at read
  split at read
  · next width scanned =>
    obtain ⟨ok, rfl⟩ := Prod.mk.inj read
    obtain ⟨rfl, -⟩ := Located.mk.inj (Except.ok.inj ok)
    exact ⟨width, scanned, rfl⟩
  · cases (Prod.mk.inj read).1

end Lexer

namespace Token

/-! ## Numbers that are read back -/

/-- The text of a floating-point number, alone, is that number as its only token. -/
def ReadsBack (x : Float) : Prop :=
  ∃ p finish, TokenStream.ofText (Node.float x).compact = .ok ⟨[⟨.float x, p⟩], finish⟩

/-- Reading the text tells whether it is read back. -/
instance (x : Float) : Decidable (ReadsBack x) :=
  match read : TokenStream.ofText (Node.float x).compact with
  | .ok ⟨[⟨token, p⟩], finish⟩ =>
    decidable_of_iff (token = .float x) (by
      constructor
      · rintro rfl
        exact ⟨p, finish, read⟩
      · rintro ⟨_, _, other⟩
        cases read.symm.trans other
        rfl)
  | .ok ⟨[], _⟩ | .ok ⟨_ :: _ :: _, _⟩ | .error _ =>
    isFalse fun ⟨_, _, other⟩ => nomatch read.symm.trans other

/-- What is scanned from a text without blanks that has a single token is that token, and it takes
the whole text. -/
theorem scan_of_tokens {text : List Char} {token : Token} {p finish : Nat}
    (noBlank : ∀ c ∈ text, Text.isBlank c = false)
    (read : TokenStream.ofText (String.ofList text) = .ok ⟨[⟨token, p⟩], finish⟩) :
    ∃ width, scan true text = .token token width ∧ text.drop width = [] := by
  have start : Lexer.ofText (String.ofList text) = ⟨text, 0, false⟩ := by
    rw [Lexer.ofText, String.toList_ofList]
  have ends : ∀ width, Ends Text.isBlank (text.drop width) :=
    fun _ c first => noBlank c (List.mem_of_mem_drop (List.mem_of_mem_head? first))
  rw [TokenStream.ofText, start] at read
  rcases Lexer.next_of_tokens read with
    ⟨after, -, none⟩ | ⟨found, after, later, next, -, rest, same⟩
  · cases none
  · obtain ⟨rfl, none⟩ : ⟨token, p⟩ = found ∧ [] = later.tokens := by
      simpa using congrArg TokenStream.tokens same
    obtain ⟨width, scanned, behind⟩ := Lexer.scan_of_next (ends 0) next
    refine ⟨width, scanned, ?_⟩
    rcases Lexer.next_of_tokens rest with ⟨last, ended, -⟩ | ⟨other, _, _, -, -, -, more⟩
    · obtain ⟨_, scannedEnd, -⟩ := Lexer.scan_of_next (behind ▸ ends width) ended
      exact behind ▸ eq_nil_of_scan_endOfInput scannedEnd
    · rw [more] at none
      cases none

/-- The text of a number spells what it is scanned as, in front of anything that does not go on with
it. -/
theorem spells_numeralText {n : Numeral} {token : Token} {width : Nat} (plain : Plain n)
    (found : scanOfNumeral n = .token token width) :
    Spells (numeralText n) [token] (continuesNumber true) := by
  have nonempty : numeralText n ≠ [] := by simp [numeralText, plain.nonempty]
  obtain ⟨c, text, same⟩ := List.exists_cons_of_ne_nil nonempty
  have positional := Decimal.isPositional_of_mem_numeralText plain (same ▸ List.mem_cons_self)
  have other : token ≠ .dot := by
    rintro rfl
    unfold scanOfNumeral at found
    repeat' split at found
    all_goals cases found
  rw [same]
  refine .of_scan (Decimal.not_isBlank_of_isPositional positional) other fun rest ends => ?_
  rw [← same, scan_numeralText plain (fun _ => rfl) ends, found, length_of_scanOfNumeral found]

/-- A text without blanks whose only token is a floating-point number spells it, in front of
anything that does not go on with it. -/
theorem spells_of_tokens {text : List Char} {x : Float} {p finish : Nat}
    (noBlank : ∀ c ∈ text, Text.isBlank c = false)
    (read : TokenStream.ofText (String.ofList text) = .ok ⟨[⟨.float x, p⟩], finish⟩) :
    Spells text [.float x] (continuesNumber true) := by
  obtain ⟨width, scanned, whole⟩ := scan_of_tokens noBlank read
  obtain ⟨starts, number⟩ := startsNumber_of_scan_float scanned
  have plain := plain_readNumeral true starts
  obtain ⟨rest, written, -⟩ := numeralText_readNumeral true text
  obtain rfl : (numeralText (readNumeral true text)).length = width :=
    length_of_scanOfNumeral number
  have all : numeralText (readNumeral true text) = text := by
    have dropped := congrArg (List.drop (numeralText (readNumeral true text)).length) written
    rw [List.drop_left, whole] at dropped
    rwa [dropped, List.append_nil] at written
  exact all ▸ spells_numeralText plain number

/-- A floating-point number that is read back where it stands alone is spelled wherever it
stands. -/
theorem spells_float {x : Float} (back : ReadsBack x) :
    Spells (floatText x) [.float x] (continuesNumber true) := by
  obtain ⟨p, finish, read⟩ := back
  exact spells_of_tokens (fun _ member => Decimal.not_isBlank_of_mem_floatText member) read

end Token

end PathQuery
