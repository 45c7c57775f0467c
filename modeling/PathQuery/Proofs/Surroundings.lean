import PathQuery.Proofs.Coverage
/-!
# Texts inside other texts

A text that is cut into tokens is cut into the same tokens inside a longer text, further on by what
stands in front of it, as long as what stands behind it is no blank and goes on with no token. What
matters here is a text in parentheses: the closing one keeps its last token as it is, whatever that
is and whatever blanks stand behind it.
-/
namespace PathQuery

/-- The token some characters further on. -/
def Located.shift (found : Located) (offset : Nat) : Located :=
  { found with position := found.position + offset }

namespace Lexer

open Token (Ends continuesToken)

variable {l after : Lexer} {found : Located} {s t : TokenStream} {tail : List Char}
  {offset p : Nat} {dotted : Bool}

/-! ## Lexers inside longer texts -/

/-- What is scanned behind the blanks is the next token. -/
theorem next_of_scan_skipBlank {token : Token} {width : Nat}
    (scanned : Token.scan (!l.afterDot) l.skipBlank.rest = .token token width) :
    l.next = (.ok ⟨token, l.skipBlank.position⟩,
      { l.skipBlank.advance width with afterDot := token == .dot }) := by
  have same : Token.scan (!l.skipBlank.afterDot) l.skipBlank.rest = .token token width := scanned
  simp only [next, same]

/-- A fault that is scanned behind the blanks is the answer, and what was read of it is left. -/
theorem next_of_fault_skipBlank {fault : LexFault} {width start : Nat}
    (scanned : Token.scan (!l.afterDot) l.skipBlank.rest = .fault fault start width) :
    l.next = (.error ⟨fault, l.skipBlank.position + start⟩, l.skipBlank.advance width) := by
  have same : Token.scan (!l.skipBlank.afterDot) l.skipBlank.rest = .fault fault start width :=
    scanned
  simp only [next, same]

/-- The lexer in front of the same characters where some more characters stand before them and a
text behind them. -/
def within (l : Lexer) (offset : Nat) (tail : List Char) : Lexer :=
  ⟨l.rest ++ tail, l.position + offset, l.afterDot⟩

/-- Moving over characters that are left is the same inside a longer text. -/
theorem advance_within {count : Nat} (some : count ≤ l.rest.length) :
    (l.within offset tail).advance count = (l.advance count).within offset tail := by
  simp only [within, advance, List.drop_append_of_le_length some, Nat.add_right_comm]

/-- The same blanks are skipped inside a longer text that goes on without one. -/
theorem skipBlank_within (apart : Ends Text.isBlank tail) :
    (l.within offset tail).skipBlank = l.skipBlank.within offset tail := by
  have blanks : (l.within offset tail).rest.takeWhile Text.isBlank =
      l.rest.takeWhile Text.isBlank := Token.takeWhile_extend l.rest apart
  rw [skipBlank, blanks, advance_within (List.takeWhile_prefix Text.isBlank).length_le, skipBlank]

/-- The next token is the same inside a longer text that goes on with no token. -/
theorem next_within (read : l.next = (.ok found, after)) (inside : found.token ≠ .endOfInput)
    (apart : Ends Text.isBlank tail) (ends : Ends continuesToken tail) :
    (l.within offset tail).next = (.ok (found.shift offset), after.within offset tail) := by
  have answers := l.answers_next
  rw [read] at answers
  cases answers with
  | @token token width scanned fits =>
    obtain ⟨c, rest, front⟩ := List.exists_cons_of_ne_nil (Token.scan_endOfInput scanned inside)
    have further : Token.scan (!l.afterDot) (l.skipBlank.rest ++ tail) = .token token width := by
      rw [front] at scanned fits ⊢
      rw [← List.append_nil rest] at scanned
      exact Token.scan_front scanned fits ends
    have scannedOn : Token.scan (!(l.within offset tail).afterDot)
        (l.within offset tail).skipBlank.rest = .token token width := by
      rw [skipBlank_within apart]
      exact further
    rw [next_of_scan_skipBlank scannedOn, skipBlank_within apart, advance_within fits]
    rfl

/-- The tokens of a text are the same inside a longer text that goes on with no token, and behind
them come the tokens of that. -/
theorem tokens_within (read : l.tokens = .ok s) (apart : Ends Text.isBlank tail)
    (ends : Ends continuesToken tail)
    (behind : ∀ dotted, (Lexer.mk tail (s.finish + offset) dotted).tokens = .ok t) :
    (l.within offset tail).tokens =
      .ok ⟨s.tokens.map (·.shift offset) ++ t.tokens, t.finish⟩ := by
  obtain ⟨tokens, finish⟩ := s
  induction tokens generalizing l with
  | nil =>
    have next := next_of_tokens_nil read
    have none := skipBlank_of_end (next ▸ l.answers_next)
    have here : finish = l.skipBlank.position := position_of_next next
    have stands : (l.within offset tail).skipBlank = ⟨tail, finish + offset, l.afterDot⟩ := by
      rw [skipBlank_within apart, within, none, List.nil_append, ← here]
      rfl
    rw [tokens_eq_of_skipBlank_eq (stands.trans (skipBlank_of_ends apart).symm)]
    exact behind l.afterDot
  | cons first later ih =>
    obtain ⟨next, inside, rest⟩ := next_of_tokens_cons read
    exact tokens_of_next (next_within (Prod.ext next rfl) inside apart ends) inside (ih rest behind)

/-! ## Groups -/

/-- What is scanned at the front is the first token, and behind it come the others. -/
theorem tokens_of_front {c : Char} {text rest : List Char} {token : Token}
    (scanned : Token.scan (!dotted) (c :: text ++ rest) = .token token (c :: text).length)
    (starts : Text.isBlank c = false)
    (behind : (Lexer.mk rest (p + (c :: text).length) (token == .dot)).tokens = .ok t) :
    (Lexer.mk (c :: text ++ rest) p dotted).tokens =
      .ok { t with tokens := ⟨token, p⟩ :: t.tokens } := by
  let l : Lexer := ⟨c :: text ++ rest, p, dotted⟩
  have stands : l.skipBlank = l := skipBlank_of_ends (Token.ends_cons.2 starts)
  have moved : l.advance (c :: text).length = ⟨rest, p + (c :: text).length, dotted⟩ := by
    simp only [l, advance, List.drop_left]
  have first : l.next = (.ok ⟨token, p⟩, ⟨rest, p + (c :: text).length, token == .dot⟩) := by
    have scannedHere : Token.scan (!l.afterDot) l.skipBlank.rest =
        .token token (c :: text).length := stands.symm ▸ scanned
    rw [next_of_scan_skipBlank scannedHere, stands, moved]
  exact tokens_of_next first (Token.ne_endOfInput_of_scan scanned) behind

/-- The tokens behind a blank are those of the text. -/
theorem tokens_of_blank {c : Char} (blank : Text.isBlank c = true) {rest : List Char}
    (behind : (Lexer.mk rest (p + 1) dotted).tokens = .ok t) :
    (Lexer.mk (c :: rest) p dotted).tokens = .ok t :=
  (tokens_eq_of_skipBlank_eq (skipBlank_blank rfl blank)).trans behind

end Lexer

namespace TokenStream

/-- The tokens of a text in parentheses, of which the first stands at an offset. -/
def grouped (s : TokenStream) (p : Nat) : List Located :=
  ⟨.leftParen, p⟩ :: (s.tokens.map (·.shift (p + 1)) ++ [⟨.rightParen, s.finish + (p + 1)⟩])

/-- A text in parentheses is cut into its tokens in parentheses, whatever stands behind. -/
theorem tokens_of_grouped {text : String} {s t : TokenStream} (read : ofText text = .ok s)
    {tail : List Char} {p : Nat}
    (behind : (Lexer.mk tail (p + text.length + 2) false).tokens = .ok t) :
    (Lexer.mk ('(' :: (text.toList ++ ')' :: tail)) p false).tokens =
      .ok ⟨s.grouped p ++ t.tokens, t.finish⟩ := by
  have finish : s.finish = text.length := (partitions_of_ofText read).finish
  have parens (dotted : Bool) (rest : List Char) :
      Token.scan (!dotted) ('(' :: [] ++ rest) = .token .leftParen 1 ∧
      Token.scan (!dotted) (')' :: [] ++ rest) = .token .rightParen 1 := ⟨rfl, rfl⟩
  have closed (dotted : Bool) : (Lexer.mk (')' :: tail) (s.finish + (p + 1)) dotted).tokens =
      .ok { t with tokens := ⟨.rightParen, s.finish + (p + 1)⟩ :: t.tokens } := by
    have place : p + text.length + 2 = s.finish + (p + 1) + 1 := by omega
    exact Lexer.tokens_of_front (parens dotted tail).2 rfl (place ▸ behind)
  have content := Lexer.tokens_within read (Token.ends_cons.2 rfl) (Token.ends_cons.2 rfl) closed
  have inside : (Lexer.ofText text).within (p + 1) (')' :: tail) =
      ⟨text.toList ++ ')' :: tail, p + 1, false⟩ := by simp [Lexer.within, Lexer.ofText]
  rw [inside] at content
  have whole := Lexer.tokens_of_front (parens false _).1 rfl content
  simpa [grouped] using whole

end TokenStream

end PathQuery
