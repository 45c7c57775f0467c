import PathQuery.Proofs.QuotedTexts
/-!
# Written texts in front of a lexer

A document writes its texts with five short escapes and with code points of four digits; a lexer
knows one short escape more, and code points with a plus sign. What is written is always a row of
items of the strict grammar, one for each character of the text, so a lexer reads it back as the
text, up to the closing quote and no further, whatever stands behind it.
-/
namespace PathQuery

namespace Token

/-- A character is written as one item, which stands for it. -/
theorem item_writeChar (c : Char) : Item '"' (Quoted.writeChar c) c := by
  have way := Quoted.written_writeChar c
  generalize Quoted.writeChar c = written at way ⊢
  cases way with
  | @short e letter =>
    have listed : (e, c) ∈ escapes := by cases letter <;> simp [escapes]
    exact .short listed
  | code control =>
    have small := Quoted.toNat_lt_of_isControl control
    have digits := hexValue?_hexWord (Nat.lt_trans small (by decide))
    have item : Item '"' ('\\' :: 'u' :: Text.hexWord c.toNat) (Char.ofNat c.toNat) :=
      .code digits (.inl small)
    rwa [Char.ofNat_toNat] at item
  | plain noQuote noBackslash => exact .plain noQuote noBackslash

/-- Characters are written as a row of items, which stand for them. -/
theorem row_writeChar (text : List Char) : Row (Item '"') (text.flatMap Quoted.writeChar) text := by
  induction text with
  | nil => exact .nil
  | cons c later ih => exact .cons (item_writeChar c) ih

end Token

namespace Lexer

/-- A lexer that stands at a written text, behind a point or not, answers with that text at the
offset of its opening quote, and stands right behind its closing quote then. -/
theorem next_written (text : String) (after : List Char) (position : Nat) (afterDot : Bool) :
    (⟨Quoted.write text.toList ++ after, position, afterDot⟩ : Lexer).next =
      (.ok ⟨.string text, position⟩,
        ⟨after, position + (Quoted.write text.toList).length, false⟩) := by
  let l : Lexer := ⟨Quoted.write text.toList ++ after, position, afterDot⟩
  let body := text.toList.flatMap Quoted.writeChar
  have front : l.rest = '"' :: (body ++ '"' :: after) := by simp [l, body, Quoted.write]
  have row : Token.Row (Token.Item '"') body text.toList := Token.row_writeChar text.toList
  have read := (readsQuoted front (.inl rfl)).closed _ _ _ (closedText_orSigned ⟨rfl, row⟩)
  have width : (Quoted.write text.toList).length = 1 + body.length + 1 := by
    simp only [Quoted.write, List.length_cons, List.length_append, List.length_nil, body]
    omega
  rw [String.ofList_toList] at read
  rw [width, ← Nat.add_assoc, ← Nat.add_assoc]
  exact read

/-- A text that looks like an escape, with a control character in it and a quote behind it. -/
example : (⟨Quoted.write ['\\', 'u', '\x01'] ++ ['"'], 3, true⟩ : Lexer).next =
    (.ok ⟨.string "\\u\x01", 3⟩, ⟨['"'], 14, false⟩) := by
  rfl

end Lexer

end PathQuery
