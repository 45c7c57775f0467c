import PathQuery.Document.Exchange
import PathQuery.Text.Hex
import PathQuery.Decimal.Numeral
/-!
# Lexemes of JSON text

JSON text is cut into marks, texts and scalars, with blanks between them. Every rule of the
standard grammar for these is kept: control characters are escaped, surrogates come in pairs, and
a number has no leading zeros and digits on both sides of its point. Numbers stay as they are
written.
-/
namespace PathQuery.Reader

/-- A smallest part of JSON text. -/
inductive Lexeme where
  /-- Opens an array. -/
  | openArray
  /-- Closes an array. -/
  | closeArray
  /-- Opens an object. -/
  | openObject
  /-- Closes an object. -/
  | closeObject
  /-- Sets elements and members apart. -/
  | comma
  /-- Stands between a key and its value. -/
  | colon
  /-- A text, which is a key or a value. -/
  | text (content : String)
  /-- A number, a truth value or null. -/
  | scalar (value : JsonValue Numeral)

/-- Whether a character may stand between lexemes: space, tab, line feed or carriage return. -/
def isBlank (c : Char) : Bool := c = ' ' || c = '\t' || c = '\n' || c = '\r'

/-- The character of an escape of one letter. -/
def shortEscape? (c : Char) : Option Char :=
  if c = '"' ∨ c = '\\' ∨ c = '/' then some c
  else if c = 'b' then some '\x08'
  else if c = 'f' then some '\x0c'
  else if c = 'n' then some '\n'
  else if c = 'r' then some '\r'
  else if c = 't' then some '\t'
  else none

/-- The code point that a pair of surrogates names. -/
def surrogatePair (high low : Nat) : Nat := 0x10000 + (high - 0xd800) * 0x400 + (low - 0xdc00)

/-- Whether a code unit is the first of a pair of surrogates. -/
def isHighSurrogate (unit : Nat) : Bool := 0xd800 ≤ unit && unit < 0xdc00

/-- Whether a code unit is the second of a pair of surrogates. -/
def isLowSurrogate (unit : Nat) : Bool := 0xdc00 ≤ unit && unit < 0xe000

/-- Reads a text behind its opening quote, giving its content and what follows the closing
quote. -/
def readText : List Char → Option (List Char × List Char)
  | [] => none
  | c :: rest =>
    if c = '"' then some ([], rest)
    else if c = '\\' then
      match rest with
      | 'u' :: a :: b :: c :: d :: rest =>
        match Text.hexValue? [a, b, c, d] with
        | none => none
        | some unit =>
          if isHighSurrogate unit then
            match rest with
            | '\\' :: 'u' :: a :: b :: c :: d :: rest =>
              match Text.hexValue? [a, b, c, d] with
              | none => none
              | some low =>
                if isLowSurrogate low then
                  (readText rest).map fun (content, after) =>
                    (Char.ofNat (surrogatePair unit low) :: content, after)
                else none
            | _ => none
          else if isLowSurrogate unit then none
          else (readText rest).map fun (content, after) => (Char.ofNat unit :: content, after)
      | e :: rest =>
        match shortEscape? e with
        | none => none
        | some c => (readText rest).map fun (content, after) => (c :: content, after)
      | [] => none
    else if c.toNat < 0x20 then none
    else (readText rest).map fun (content, after) => (c :: content, after)

/-- What follows a text is not longer than what the text was read from. -/
theorem length_of_readText {cs content after : List Char}
    (read : readText cs = some (content, after)) : after.length ≤ cs.length := by
  fun_induction readText cs generalizing content <;> simp_all
  all_goals grind

/-- Reads the digits before the point: one zero, or digits that start with another. -/
def readWhole : List Char → Option (List Char × List Char)
  | [] => none
  | c :: rest =>
    if c = '0' then some (['0'], rest)
    else if c.isDigit then
      let (digits, after) := Numeral.readDigits rest
      some (c :: digits, after)
    else none

/-- Reads digits, of which there must be one at least. -/
def readDigits (cs : List Char) : Option (List Char × List Char) :=
  match Numeral.readDigits cs with
  | ([], _) => none
  | found => some found

/-- Reads the fraction of a number, if a point follows. -/
def readFraction : List Char → Option (List Char × List Char)
  | '.' :: rest => readDigits rest
  | cs => some ([], cs)

/-- Reads a sign of either kind, if there is one. -/
def readSign : List Char → Bool × List Char
  | '+' :: rest => (false, rest)
  | cs => Numeral.readMinus cs

/-- Reads the exponent of a number, if an exponent mark follows. -/
def readExponent : List Char → Option (Option Int × List Char)
  | [] => some (none, [])
  | c :: rest =>
    if c = 'e' ∨ c = 'E' then
      let (negative, cs) := readSign rest
      (readDigits cs).map fun (digits, after) =>
        let power : Int := Decimal.digitsValue digits
        (some (if negative then -power else power), after)
    else some (none, c :: rest)

/-- Reads a number. -/
def readNumeral (cs : List Char) : Option (Numeral × List Char) := do
  let (negative, cs) := Numeral.readMinus cs
  let (whole, cs) ← readWhole cs
  let (fraction, cs) ← readFraction cs
  let (exponent, cs) ← readExponent cs
  some (⟨negative, whole, fraction, exponent⟩, cs)

/-- What follows a word at the front of a text, if the text starts with it. -/
def readWord (word : List Char) (cs : List Char) : Option (List Char) :=
  if word.isPrefixOf cs then some (cs.drop word.length) else none

/-- The lexeme of a single character. -/
def mark? (c : Char) : Option Lexeme :=
  if c = '[' then some .openArray
  else if c = ']' then some .closeArray
  else if c = '\x7b' then some .openObject
  else if c = '\x7d' then some .closeObject
  else if c = ',' then some .comma
  else if c = ':' then some .colon
  else none

/-- Reads the lexeme that starts with a character, which stands before the given rest. -/
def readLexeme (c : Char) (rest : List Char) : Option (Lexeme × List Char) :=
  match mark? c with
  | some mark => some (mark, rest)
  | none =>
    if c = '"' then
      (readText rest).map fun (content, after) => (.text (String.ofList content), after)
    else if c = 'n' then
      (readWord ['u', 'l', 'l'] rest).map fun after => (.scalar .null, after)
    else if c = 't' then
      (readWord ['r', 'u', 'e'] rest).map fun after => (.scalar (.boolean true), after)
    else if c = 'f' then
      (readWord ['a', 'l', 's', 'e'] rest).map fun after => (.scalar (.boolean false), after)
    else (readNumeral (c :: rest)).map fun (n, after) => (.scalar (.number n), after)

/-- What follows the digits before the point is shorter than what they were read from. -/
theorem length_of_readWhole {cs whole after : List Char}
    (read : readWhole cs = some (whole, after)) : after.length < cs.length := by
  cases cs with
  | nil => simp [readWhole] at read
  | cons c rest =>
    simp only [readWhole] at read
    split at read
    · simp only [Option.some.injEq, Prod.mk.injEq] at read
      exact read.2 ▸ Nat.lt_succ_self _
    · split at read
      · simp only [Option.some.injEq, Prod.mk.injEq] at read
        exact read.2 ▸ Nat.lt_succ_of_le (Numeral.length_of_readDigits rest)
      · simp at read

/-- What follows digits is not longer than what they were read from. -/
theorem length_of_readDigits {cs digits after : List Char}
    (read : readDigits cs = some (digits, after)) : after.length ≤ cs.length := by
  simp only [readDigits] at read
  split at read
  · simp at read
  · simp only [Option.some.injEq] at read
    have := Numeral.length_of_readDigits cs
    simp_all

/-- What follows a fraction is not longer than what it was read from. -/
theorem length_of_readFraction {cs fraction after : List Char}
    (read : readFraction cs = some (fraction, after)) : after.length ≤ cs.length := by
  fun_cases readFraction cs
  · next rest => exact Nat.le_succ_of_le (length_of_readDigits read)
  · simp_all [readFraction]

/-- What follows a sign is not longer than what it was read from. -/
theorem length_of_readSign (cs : List Char) : (readSign cs).2.length ≤ cs.length := by
  fun_cases readSign cs
  · simp
  · exact Numeral.length_of_readMinus _

/-- What follows an exponent is not longer than what it was read from. -/
theorem length_of_readExponent {cs after : List Char} {exponent : Option Int}
    (read : readExponent cs = some (exponent, after)) : after.length ≤ cs.length := by
  cases cs with
  | nil => simp_all [readExponent]
  | cons c rest =>
    simp only [readExponent] at read
    split at read
    · obtain ⟨⟨digits, left⟩, found, same⟩ := Option.map_eq_some_iff.1 read
      simp only [Prod.mk.injEq] at same
      have := length_of_readDigits found
      have := length_of_readSign rest
      simp only [← same.2, List.length_cons]
      omega
    · simp only [Option.some.injEq, Prod.mk.injEq] at read
      simp [← read.2]

/-- What follows a number is shorter than what it was read from. -/
theorem length_of_readNumeral {cs after : List Char} {n : Numeral}
    (read : readNumeral cs = some (n, after)) : after.length < cs.length := by
  simp only [readNumeral, Option.bind_eq_bind, Option.bind_eq_some_iff, Prod.exists,
    Option.some.injEq, Prod.mk.injEq] at read
  obtain ⟨whole, first, readFirst, fraction, second, readSecond, exponent, third, readThird,
    _, rfl⟩ := read
  have := Numeral.length_of_readMinus cs
  have := length_of_readWhole readFirst
  have := length_of_readFraction readSecond
  have := length_of_readExponent readThird
  omega

/-- What follows a word is not longer than what it was read from. -/
theorem length_of_readWord {word cs after : List Char}
    (read : readWord word cs = some after) : after.length ≤ cs.length := by
  simp only [readWord] at read
  split at read
  · simp only [Option.some.injEq] at read
    subst read
    simp
  · simp at read

/-- What follows a lexeme is not longer than what stood behind its first character. -/
theorem length_of_readLexeme {c : Char} {rest after : List Char} {lexeme : Lexeme}
    (read : readLexeme c rest = some (lexeme, after)) : after.length ≤ rest.length := by
  simp only [readLexeme] at read
  split at read
  · simp_all
  · split at read
    · obtain ⟨⟨content, left⟩, found, same⟩ := Option.map_eq_some_iff.1 read
      simp only [Prod.mk.injEq] at same
      exact same.2 ▸ length_of_readText found
    · repeat' split at read
      case' isFalse =>
        obtain ⟨⟨n, left⟩, found, same⟩ := Option.map_eq_some_iff.1 read
        simp only [Prod.mk.injEq] at same
        exact same.2 ▸ Nat.le_of_lt_succ (length_of_readNumeral found)
      all_goals
        obtain ⟨left, found, same⟩ := Option.map_eq_some_iff.1 read
        simp only [Prod.mk.injEq] at same
        exact same.2 ▸ length_of_readWord found

/-- The lexemes of a text, without the blanks between them. -/
def lexemes : List Char → Option (List Lexeme)
  | [] => some []
  | c :: rest =>
    if isBlank c then lexemes rest
    else
      match found : readLexeme c rest with
      | none => none
      | some (lexeme, after) =>
        have : after.length ≤ rest.length := length_of_readLexeme found
        (lexemes after).map (lexeme :: ·)
termination_by cs => cs.length

end PathQuery.Reader
