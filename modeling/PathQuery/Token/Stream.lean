import PathQuery.Token.Lexer
/-!
# The tokens of a text

A text without faults is a sequence of tokens and the offset of its end. Every token but the end
takes at least one character (`Token.scan_width_pos`), so the sequence is finite.
-/
namespace PathQuery

namespace Token

/-- A number that starts at some place has a digit. -/
theorem numeralText_pos (pointed : Bool) {cs : List Char} (starts : startsNumber cs = true) :
    0 < (numeralText (readNumeral pointed cs)).length := by
  fun_cases startsNumber cs with
  | case1 d rest =>
    simp [numeralText, readNumeral, Numeral.readMinus]
  | case2 c rest other =>
    have digit : c.isDigit = true := by
      simpa [startsNumber] using starts
    have plain : Numeral.readMinus (c :: rest) = (false, c :: rest) := by
      unfold Numeral.readMinus
      split
      · next same => simp_all [Char.isDigit]
      · rfl
    simp [numeralText, readNumeral, plain, Numeral.readDigits, digit]
  | case3 => simp [startsNumber] at starts

/-- A number takes at least one character. -/
theorem scanNumber_width_pos {pointed : Bool} {cs : List Char} {token : Token} {width : Nat}
    (starts : startsNumber cs = true) (found : scanNumber pointed cs = .token token width) :
    0 < width := by
  have positive := numeralText_pos pointed starts
  simp only [scanNumber] at found
  split at found
  · split at found
    · simp only [Scan.token.injEq] at found
      exact found.2 ▸ positive
    · simp at found
  · simp only [Scan.token.injEq] at found
    exact found.2 ▸ positive

/-- A quoted text takes at least its opening quote. -/
theorem scanString_width_pos {quote : Char} {rest : List Char} {token : Token} {width : Nat}
    (found : scanString quote rest = .token token width) : 0 < width := by
  simp only [scanString] at found
  split at found <;> simp_all
  omega

/-- A word takes at least its first character. -/
theorem scanWord_width_pos {c : Char} {rest : List Char} {token : Token} {width : Nat}
    (starts : startsName c = true) (found : scanWord (c :: rest) = .token token width) :
    0 < width := by
  simp only [scanWord, Scan.token.injEq, List.takeWhile_cons,
    continuesName_of_startsName starts, if_true, List.length_cons] at found
  omega

/-- A doubled operator takes two characters. -/
theorem scanDouble_width_pos {c : Char} {expected token : Token} {rest : List Char} {width : Nat}
    (found : scanDouble c expected rest = .token token width) : 0 < width := by
  simp only [scanDouble] at found
  split at found <;> simp_all
  omega

/-- Every token that stands at some character takes at least one character. -/
theorem scan_width_pos {pointed : Bool} {c : Char} {rest : List Char} {token : Token}
    {width : Nat} (found : scan pointed (c :: rest) = .token token width) : 0 < width := by
  simp only [scan] at found
  split at found
  · simp only [Scan.token.injEq] at found
    omega
  · split at found
    · split at found <;> simp only [Scan.token.injEq] at found <;> omega
    · split at found
      · exact scanDouble_width_pos found
      · split at found
        · exact scanDouble_width_pos found
        · split at found
          · exact scanString_width_pos found
          · split at found
            · next starts => exact scanNumber_width_pos starts found
            · split at found
              · next starts => exact scanWord_width_pos starts found
              · simp at found

/-- Only at the end of the text stands its end. -/
theorem scan_endOfInput {pointed : Bool} {cs : List Char} {token : Token} {width : Nat}
    (found : scan pointed cs = .token token width) (inside : token ≠ .endOfInput) : cs ≠ [] := by
  rintro rfl
  simp only [scan, Scan.token.injEq] at found
  exact inside found.1.symm

end Token

namespace Lexer

/-- Advancing never lengthens the rest. -/
theorem length_advance (l : Lexer) (count : Nat) :
    (l.advance count).rest.length = l.rest.length - count := by
  simp [advance]

/-- A token other than the end leaves a shorter rest. -/
theorem length_next {l after : Lexer} {found : Located} (read : l.next = (.ok found, after))
    (inside : found.token ≠ .endOfInput) : after.rest.length < l.rest.length := by
  have blank : l.skipBlank.rest.length ≤ l.rest.length := by
    simp only [skipBlank, length_advance]
    omega
  simp only [next] at read
  split at read
  · next token width scanned =>
    simp only [Prod.mk.injEq, Except.ok.injEq] at read
    obtain ⟨rfl, rfl⟩ := read
    have some := Token.scan_endOfInput scanned inside
    have short : width ≠ 0 := by
      cases rest : l.skipBlank.rest with
      | nil => exact absurd rest some
      | cons c cs => exact Nat.ne_of_gt (Token.scan_width_pos (rest ▸ scanned))
    have := List.length_pos_iff.2 some
    simp only [length_advance]
    omega
  · simp at read

end Lexer

/-- The tokens of a text and the offset of its end. -/
structure TokenStream where
  /-- The tokens in order, without the end of the text. -/
  tokens : List Located
  /-- The offset of the end of the text. -/
  finish : Nat
deriving DecidableEq

namespace TokenStream

/-- The tokens with the end of the text as the last one. -/
def toList (s : TokenStream) : List Located := s.tokens ++ [⟨.endOfInput, s.finish⟩]

end TokenStream

/-- The tokens from a lexer to the end of its text, or the first fault among them. -/
def Lexer.tokens (l : Lexer) : Except LexError TokenStream :=
  match read : l.next with
  | (.error e, _) => .error e
  | (.ok found, after) =>
    if inside : found.token = .endOfInput then .ok ⟨[], found.position⟩
    else
      have := Lexer.length_next read inside
      match after.tokens with
      | .ok later => .ok { later with tokens := found :: later.tokens }
      | .error e => .error e
termination_by l.rest.length

/-- The tokens of a text, or its first fault. -/
def TokenStream.ofText (text : String) : Except LexError TokenStream :=
  (Lexer.ofText text).tokens

end PathQuery
