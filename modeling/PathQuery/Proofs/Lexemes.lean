import PathQuery.Proofs.JsonText
/-!
# Lexemes of standard text

Each number, each text and each word of the grammar is read at the front of any text that does not
go on with it. A text is cut into some lexemes when a reader in front of it finds these lexemes
first, whatever follows, as long as that does not go on with a number at its end. Such texts can be
put in a row.
-/
namespace PathQuery

open Token (Ends ends_nil ends_cons)

namespace Reader

open JsonText (Digits Fraction Sign Exponent Item)

/-! ## Numbers in front of other text -/

/-- Whether a character goes on with a number: a digit, a point or an exponent mark. -/
def continuesNumeral (c : Char) : Bool := c.isDigit || c == '.' || c == 'e' || c == 'E'

/-- The characters that do not go on with a number. -/
theorem continuesNumeral_eq_false {c : Char} :
    continuesNumeral c = false ↔ c.isDigit = false ∧ c ≠ '.' ∧ c ≠ 'e' ∧ c ≠ 'E' := by
  simp [continuesNumeral, and_assoc]

section

variable {rest : List Char}

/-- Digits are split off up to what is no digit. -/
theorem splitDigits_append {digits : List Char} (inside : ∀ c ∈ digits, c.isDigit = true)
    (ends : Ends Char.isDigit rest) : Numeral.readDigits (digits ++ rest) = (digits, rest) :=
  Prod.ext (Token.takeWhile_of_ends inside ends) (Token.dropWhile_of_ends inside ends)

/-- Digits are read up to what is no digit. -/
theorem readDigits_append {digits : List Char} (run : Digits digits)
    (ends : Ends Char.isDigit rest) : readDigits (digits ++ rest) = some (digits, rest) := by
  obtain ⟨c, later, rfl⟩ := List.exists_cons_of_ne_nil run.nonempty
  rw [readDigits, splitDigits_append run.inside ends]

/-- Whole digits are read up to what is no digit. -/
theorem readWhole_append {whole : List Char} (run : Digits whole)
    (leading : whole = ['0'] ∨ whole.head? ≠ some '0') (ends : Ends Char.isDigit rest) :
    readWhole (whole ++ rest) = some (whole, rest) := by
  rcases leading with rfl | noZero
  · rfl
  · obtain ⟨c, later, rfl⟩ := List.exists_cons_of_ne_nil run.nonempty
    have other : c ≠ '0' := fun zero => noZero (congrArg some zero)
    have digit := run.inside c List.mem_cons_self
    have split := splitDigits_append (fun d member => run.inside d (List.mem_cons_of_mem c member))
      ends
    simp only [List.cons_append, readWhole, other, digit, split, if_false, if_true]

/-- A fraction is read up to what neither is a point nor a digit. -/
theorem readFraction_append {text fraction : List Char} (fractional : Fraction text fraction)
    (ends : Ends (fun c => c.isDigit || c == '.') rest) :
    readFraction (text ++ rest) = some (fraction, rest) := by
  cases fractional with
  | none =>
    rw [List.nil_append]
    fun_cases readFraction rest with
    | case1 later => exact absurd (ends_cons.1 ends) (by decide)
    | case2 => rfl
  | some run =>
    exact readDigits_append run (ends.mono fun c stops => (Bool.or_eq_false_iff.1 stops).1)

/-- A sign is read in front of digits. -/
theorem readSign_append {sign digits : List Char} {negative : Bool} (signed : Sign sign negative)
    (run : Digits digits) : readSign (sign ++ (digits ++ rest)) = (negative, digits ++ rest) := by
  obtain ⟨c, later, rfl⟩ := List.exists_cons_of_ne_nil run.nonempty
  have digit := run.inside c List.mem_cons_self
  cases signed with
  | none =>
    have other : c ≠ '+' := by
      rintro rfl
      cases digit
    rw [List.nil_append, List.cons_append]
    unfold readSign
    split
    · next same => exact absurd (List.cons.inj same).1 other
    · exact Token.readMinus_of_isDigit digit
  | plus | minus => rfl

/-- An exponent is read up to what does not go on with a number. -/
theorem readExponent_append {text : List Char} {exponent : Option Int}
    (exponential : Exponent text exponent) (ends : Ends continuesNumeral rest) :
    readExponent (text ++ rest) = some (exponent, rest) := by
  cases exponential with
  | none =>
    cases rest with
    | nil => rfl
    | cons c later =>
      obtain ⟨-, -, small, capital⟩ := continuesNumeral_eq_false.1 (ends_cons.1 ends)
      exact if_neg (not_or.2 ⟨small, capital⟩)
  | @some mark sign digits negative isMark signed run =>
    have read := readDigits_append run
      (ends.mono fun c stops => (continuesNumeral_eq_false.1 stops).1)
    rw [List.cons_append, List.append_assoc, readExponent, if_pos isMark,
      readSign_append signed run]
    simp only [read, Option.map_some]

/-- What goes on with no number does not go on with its fraction, also behind an exponent. -/
theorem ends_exponent {text : List Char} {exponent : Option Int}
    (exponential : Exponent text exponent) (ends : Ends continuesNumeral rest) :
    Ends (fun c => c.isDigit || c == '.') (text ++ rest) := by
  cases exponential with
  | none =>
    refine ends.mono fun c stops => ?_
    obtain ⟨digit, point, -⟩ := continuesNumeral_eq_false.1 stops
    simp [digit, point]
  | some isMark => rcases isMark with rfl | rfl <;> exact ends_cons.2 rfl

/-- A number is read up to what does not go on with it. -/
theorem readNumeral_append {text : List Char} {n : Numeral} (number : JsonText.Number text n)
    (ends : Ends continuesNumeral rest) : readNumeral (text ++ rest) = some (n, rest) := by
  cases number with
  | @parts negative whole fraction behind power exponent run leading fractional exponential =>
    have minus : ∀ tail, Numeral.readMinus ((if negative then ['-'] else []) ++ (whole ++ tail)) =
        (negative, whole ++ tail) := by
      intro tail
      cases negative with
      | true => rfl
      | false =>
        obtain ⟨c, later, rfl⟩ := List.exists_cons_of_ne_nil run.nonempty
        exact Token.readMinus_of_isDigit (run.inside c List.mem_cons_self)
    have apart := ends_exponent exponential ends
    have noDigit : Ends Char.isDigit (behind ++ (power ++ rest)) := by
      cases fractional with
      | none => exact apart.mono fun c stops => (Bool.or_eq_false_iff.1 stops).1
      | some => exact ends_cons.2 rfl
    simp only [readNumeral, List.append_assoc, minus, readWhole_append run leading noDigit,
      readFraction_append fractional apart, readExponent_append exponential ends,
      Option.bind_eq_bind, Option.bind_some]

end

/-! ## Quoted texts -/

/-- A character read in front of a text. -/
def prepend (c : Char) : List Char × List Char → List Char × List Char :=
  fun (content, after) => (c :: content, after)

section

variable {c : Char} {rest : List Char}

/-- A character that is neither quote, backslash nor one of the first thirty-two stands for
itself. -/
theorem readText_plain (noQuote : c ≠ '"') (noBackslash : c ≠ '\\') (printable : 0x20 ≤ c.toNat) :
    readText (c :: rest) = (readText rest).map (prepend c) := by
  rw [readText.eq_def]
  exact (if_neg noQuote).trans ((if_neg noBackslash).trans (if_neg (Nat.not_lt.2 printable)))

/-- An escape of one letter stands for its character. -/
theorem readText_short {e : Char} (escape : (e, c) ∈ JsonText.escapes) :
    readText ('\\' :: e :: rest) = (readText rest).map (prepend c) := by
  simp only [JsonText.escapes, List.mem_cons, Prod.mk.injEq, List.not_mem_nil, or_false] at escape
  rcases escape with ⟨rfl, rfl⟩ | ⟨rfl, rfl⟩ | ⟨rfl, rfl⟩ | ⟨rfl, rfl⟩ | ⟨rfl, rfl⟩ | ⟨rfl, rfl⟩ |
    ⟨rfl, rfl⟩ | ⟨rfl, rfl⟩ <;> rw [readText.eq_def] <;> rfl

/-- The four digits of a code unit that is no surrogate stand for its character. -/
theorem readText_unit {a b d e : Char} {unit : Nat}
    (digits : Text.hexValue? [a, b, d, e] = some unit)
    (noSurrogate : unit < 0xd800 ∨ 0xdfff < unit) :
    readText ('\\' :: 'u' :: a :: b :: d :: e :: rest) =
      (readText rest).map (prepend (Char.ofNat unit)) := by
  have noHigh : isHighSurrogate unit = false := by
    simp only [isHighSurrogate, Bool.and_eq_false_iff, decide_eq_false_iff_not]
    omega
  have noLow : isLowSurrogate unit = false := by
    simp only [isLowSurrogate, Bool.and_eq_false_iff, decide_eq_false_iff_not]
    omega
  rw [readText.eq_def]
  refine (if_neg (by decide)).trans ((if_pos rfl).trans ?_)
  simp only [digits, noHigh, noLow, Bool.false_eq_true, if_false]
  rfl

/-- The digits of a pair of surrogates stand for the character whose code point they share. -/
theorem readText_pair {a b d e a' b' d' e' : Char} {high low : Nat}
    (first : Text.hexValue? [a, b, d, e] = some (0xd800 + high)) (highBits : high < 0x400)
    (second : Text.hexValue? [a', b', d', e'] = some (0xdc00 + low)) (lowBits : low < 0x400) :
    readText ('\\' :: 'u' :: a :: b :: d :: e :: '\\' :: 'u' :: a' :: b' :: d' :: e' :: rest) =
      (readText rest).map (prepend (Char.ofNat (0x10000 + high * 0x400 + low))) := by
  have isHigh : isHighSurrogate (0xd800 + high) = true := by
    simp only [isHighSurrogate, Bool.and_eq_true, decide_eq_true_eq]
    omega
  have isLow : isLowSurrogate (0xdc00 + low) = true := by
    simp only [isLowSurrogate, Bool.and_eq_true, decide_eq_true_eq]
    omega
  have code : surrogatePair (0xd800 + high) (0xdc00 + low) = 0x10000 + high * 0x400 + low := by
    unfold surrogatePair
    omega
  rw [readText.eq_def]
  refine (if_neg (by decide)).trans ((if_pos rfl).trans ?_)
  simp only [first, second, isHigh, isLow, code, if_true]
  rfl

/-- An item is read as what it stands for. -/
theorem readText_item {written : List Char} (item : Item written c) :
    readText (written ++ rest) = (readText rest).map (prepend c) := by
  cases item with
  | plain noQuote noBackslash printable => exact readText_plain noQuote noBackslash printable
  | short escape => exact readText_short escape
  | unit digits noSurrogate => exact readText_unit digits noSurrogate
  | pair first highBits second lowBits => exact readText_pair first highBits second lowBits

/-- A row of items is read up to a closing quote. -/
theorem readText_row {body content : List Char} (items : Token.Row Item body content) :
    readText (body ++ '"' :: rest) = some (content, rest) := by
  induction items with
  | nil =>
    rw [List.nil_append, readText.eq_def]
    exact if_pos rfl
  | cons first _ ih =>
    rw [List.append_assoc, readText_item first, ih]
    rfl

end

/-! ## Texts in a row -/

/-- The text is cut into the lexemes, in front of anything that does not go on with it. -/
def Cuts (text : List Char) (found : List Lexeme) (goesOn : Char → Bool) : Prop :=
  ∀ rest, Ends goesOn rest → lexemes (text ++ rest) = (lexemes rest).map (found ++ ·)

section

variable {text later : List Char} {found further : List Lexeme} {lexeme : Lexeme}
  {goesOn fewer : Char → Bool} {c : Char}

/-- A text without lexemes is cut into none. -/
theorem cuts_nil : Cuts [] [] goesOn := by
  intro rest _
  simp

/-- A text is cut the same when more characters are kept from following it. -/
theorem Cuts.mono (cuts : Cuts text found fewer)
    (more : ∀ c, goesOn c = false → fewer c = false) : Cuts text found goesOn :=
  fun rest ends => cuts rest (ends.mono more)

/-- A text that has its own end is cut the same whatever may not follow it. -/
theorem Cuts.anywhere (cuts : Cuts text found Token.nothing) : Cuts text found goesOn :=
  cuts.mono fun _ _ => rfl

/-- Two texts in a row are cut into the lexemes of both, if the second does not go on with the
first. -/
theorem Cuts.append (first : Cuts text found fewer) (second : Cuts later further goesOn)
    (apart : ∀ rest, Ends goesOn rest → Ends fewer (later ++ rest)) :
    Cuts (text ++ later) (found ++ further) goesOn := by
  intro rest ends
  rw [List.append_assoc, first _ (apart rest ends), second rest ends, Option.map_map]
  simp [Function.comp_def]

/-- Behind a text that has its own end any text can follow. -/
theorem Cuts.append_closed (first : Cuts text found Token.nothing)
    (second : Cuts later further goesOn) : Cuts (text ++ later) (found ++ further) goesOn :=
  first.append second fun _ _ _ _ => rfl

/-- Behind a value a text can follow whose first character does not go on with a number. -/
theorem Cuts.append_apart (first : Cuts text found continuesNumeral)
    (second : Cuts (c :: later) further goesOn) (apart : continuesNumeral c = false) :
    Cuts (text ++ c :: later) (found ++ further) goesOn :=
  first.append second fun _ _ => ends_cons.2 apart

/-- A text that is read as a lexeme in front of anything is cut into it. -/
theorem cuts_of_readLexeme (starts : isBlank c = false)
    (read : ∀ rest, Ends goesOn rest → readLexeme c (text ++ rest) = some (lexeme, rest)) :
    Cuts (c :: text) [lexeme] goesOn := by
  intro rest ends
  rw [List.cons_append, lexemes]
  simp only [starts, Bool.false_eq_true, if_false]
  split
  · next failed => cases (read rest ends).symm.trans failed
  · next ok =>
    obtain ⟨rfl, rfl⟩ := Prod.mk.inj (Option.some.inj ((read rest ends).symm.trans ok))
    rfl

/-- Blanks are cut away. -/
theorem cuts_blank (blank : JsonText.Blank text) : Cuts text [] Token.nothing := by
  induction text with
  | nil => exact cuts_nil
  | cons c later ih =>
    obtain ⟨first, others⟩ := List.forall_mem_cons.1 blank
    have isBlank : isBlank c = true := by
      rcases first with rfl | rfl | rfl | rfl <;> rfl
    have space : Cuts [c] [] Token.nothing := fun rest _ => by simp [lexemes, isBlank]
    exact space.append_closed (ih others)

/-- Blanks do not go on with a number. -/
theorem ends_blank {rest : List Char} (blank : JsonText.Blank text)
    (ends : Ends continuesNumeral rest) : Ends continuesNumeral (text ++ rest) := by
  cases text with
  | nil => exact ends
  | cons c later =>
    rcases blank c List.mem_cons_self with rfl | rfl | rfl | rfl <;> exact ends_cons.2 rfl

/-- Blanks around a text are cut away. -/
theorem Cuts.spaced {before after : List Char} (front : JsonText.Blank before)
    (cuts : Cuts text found continuesNumeral) (back : JsonText.Blank after) :
    Cuts (before ++ (text ++ after)) found continuesNumeral := by
  have behind := cuts.append (cuts_blank back).anywhere fun rest ends => ends_blank back ends
  rw [List.append_nil] at behind
  exact (cuts_blank front).append_closed behind

end

/-! ## Single lexemes -/

/-- A mark is cut into its lexeme. -/
theorem cuts_mark {c : Char} {mark : Lexeme} (sign : mark? c = some mark)
    (starts : isBlank c = false) : Cuts [c] [mark] Token.nothing :=
  cuts_of_readLexeme starts fun rest _ => by simp [readLexeme, sign]

/-- A text between quotes is cut into what it stands for. -/
theorem cuts_quoted {text : List Char} {content : String} (quoted : JsonText.Quoted text content) :
    Cuts text [.text content] Token.nothing := by
  cases quoted with
  | row items =>
    refine cuts_of_readLexeme rfl fun rest _ => ?_
    simp [readLexeme, mark?, readText_row items]

/-- A word that stands for a value is cut into that value. -/
theorem cuts_word {c : Char} {word : List Char} {value : JsonValue Numeral}
    (starts : isBlank c = false)
    (read : ∀ rest, readLexeme c rest =
      (readWord word rest).map fun after => (.scalar value, after)) :
    Cuts (c :: word) [.scalar value] Token.nothing := by
  refine cuts_of_readLexeme starts fun rest _ => ?_
  rw [read]
  simp [readWord]

/-- A number starts with a digit or a minus sign. -/
theorem exists_number_cons {text : List Char} {n : Numeral} (number : JsonText.Number text n) :
    ∃ c rest, text = c :: rest ∧ (c.isDigit = true ∨ c = '-') := by
  cases number with
  | @parts negative whole _ _ _ _ run =>
    cases negative with
    | true => exact ⟨'-', _, rfl, .inr rfl⟩
    | false =>
      obtain ⟨c, later, rfl⟩ := List.exists_cons_of_ne_nil run.nonempty
      exact ⟨c, _, rfl, .inl (run.inside c List.mem_cons_self)⟩

/-- A number is cut into it. -/
theorem cuts_number {text : List Char} {n : Numeral} (number : JsonText.Number text n) :
    Cuts text [.scalar (.number n)] continuesNumeral := by
  have read : ∀ rest, Ends continuesNumeral rest → readNumeral (text ++ rest) = some (n, rest) :=
    fun _ ends => readNumeral_append number ends
  obtain ⟨c, later, rfl, front⟩ := exists_number_cons number
  have other : ∀ d, d.isDigit = false → d ≠ '-' → c ≠ d := by
    rintro d noDigit noMinus rfl
    rcases front with digit | minus
    · cases noDigit.symm.trans digit
    · exact noMinus minus
  have starts : isBlank c = false := by
    simp [isBlank, other ' ' rfl, other '\t' rfl, other '\n' rfl, other '\r' rfl]
  refine cuts_of_readLexeme starts fun rest ends => ?_
  have number := read rest ends
  rw [List.cons_append] at number
  simp only [readLexeme, mark?, number, other '[' rfl (by decide), other ']' rfl (by decide),
    other '\x7b' rfl (by decide), other '\x7d' rfl (by decide), other ',' rfl (by decide),
    other ':' rfl (by decide), other '"' rfl (by decide), other 'n' rfl (by decide),
    other 't' rfl (by decide), other 'f' rfl (by decide), if_false, Option.map_some]

end Reader

end PathQuery
