import PathQuery.Token
import PathQuery.Token.Quoted
import PathQuery.Text.Blank
import PathQuery.Decimal.Nearest
import PathQuery.Decimal.Numeral
/-!
# The lexer

Cuts the text of a path into tokens. What stands at the front of a text is decided by the text
alone, and by one bit: behind a single dot a number never has a fraction, so that `a.0.1` is two
index steps. A scan says how many characters it took; a lexer is the rest of the text, the offset
where it stands, and that bit.

An error leaves the lexer where it stopped reading, so that reading can go on behind it.
-/
namespace PathQuery

/-- Why the characters at some place are no token. -/
inductive LexFault where
  /-- No token starts with the character. -/
  | unexpectedCharacter (c : Char)
  /-- An operator that has to be doubled stands alone. -/
  | loneOperator (c : Char)
  /-- A backslash stands before a character that has no escape. -/
  | invalidEscape (c : Char)
  /-- An escaped code point is not one of a character. -/
  | invalidCodePoint
  /-- A quoted text is never closed. -/
  | unterminatedString
  /-- A whole number does not fit 64 bits. -/
  | malformedNumber (text : String)
deriving DecidableEq, Repr

/-- What a message says of a fault. -/
def LexFault.detail : LexFault → String
  | .unexpectedCharacter c => "unexpected character '" ++ c.toString ++ "'"
  | .loneOperator c => "expected '" ++ c.toString ++ c.toString ++ "'"
  | .invalidEscape c => "invalid escape sequence '\\" ++ c.toString ++ "'"
  | .invalidCodePoint => "invalid unicode escape"
  | .unterminatedString => "unterminated string"
  | .malformedNumber text => "malformed number '" ++ text ++ "'"

/-- A fault and its place. -/
structure LexError where
  /-- What is wrong. -/
  fault : LexFault
  /-- The offset of the character at fault. -/
  position : Nat
deriving DecidableEq, Repr

/-- The text of an error. -/
def LexError.message (e : LexError) : String :=
  e.fault.detail ++ " at position " ++ toString e.position

namespace Token

/-! ## What stands at the front of a text -/

/-- What stands at the front of a text. -/
inductive Scan where
  /-- A token and the number of its characters. -/
  | token (token : Token) (width : Nat)
  /-- A fault, the characters before it, and the characters that were read. -/
  | fault (fault : LexFault) (offset width : Nat)
deriving DecidableEq

/-- Whether a number starts here: a digit, or a minus sign and a digit. -/
def startsNumber : List Char → Bool
  | '-' :: d :: _ => d.isDigit
  | c :: _ => c.isDigit
  | [] => false

/-- The fraction that follows the whole digits of a number: a point and at least one digit. -/
def readFraction : List Char → List Char
  | '.' :: rest => (Numeral.readDigits rest).1
  | _ => []

/-- Reads a number at the front of a text. Only where `pointed` allows it, a fraction may follow
the whole digits. -/
def readNumeral (pointed : Bool) (cs : List Char) : Numeral :=
  let (negative, cs) := Numeral.readMinus cs
  let (whole, cs) := Numeral.readDigits cs
  ⟨negative, whole, if pointed then readFraction cs else [], none⟩

/-- A number as it stands in a path. -/
def numeralText (n : Numeral) : List Char :=
  (if n.negative then ['-'] else []) ++ n.whole
    ++ (if n.fraction = [] then [] else '.' :: n.fraction)

/-- Scans a number. With a fraction it is the nearest floating-point number, without one it is an
integer and has to fit 64 bits. -/
def scanNumber (pointed : Bool) (cs : List Char) : Scan :=
  let n := readNumeral pointed cs
  let text := numeralText n
  if n.fraction = [] then
    match Numeral.int64? n.wholeValue with
    | some value => .token (.integer value) text.length
    | none => .fault (.malformedNumber (String.ofList text)) 0 text.length
  else .token (.float n.decimal.nearest) text.length

/-- Scans a quoted text that starts with the given quote. -/
def scanString (quote : Char) (rest : List Char) : Scan :=
  match scanQuoted quote rest with
  | .closed content width => .token (.string (String.ofList content)) (width + 1)
  | .invalidEscape c width => .fault (.invalidEscape c) (width + 1) (width + 1)
  | .invalidCodePoint width => .fault .invalidCodePoint (width + 1) (width + 1)
  | .unclosed width => .fault .unterminatedString 0 (width + 1)

/-- Scans a word, which is a name or a keyword. -/
def scanWord (cs : List Char) : Scan :=
  let word := cs.takeWhile continuesName
  .token (ofWord (String.ofList word)) word.length

/-- Scans an operator of a doubled character. -/
def scanDouble (c : Char) (token : Token) (rest : List Char) : Scan :=
  if rest.head? = some c then .token token 2 else .fault (.loneOperator c) 0 0

/-- What stands at the front of a text without blanks there. -/
def scan (pointed : Bool) : List Char → Scan
  | [] => .token .endOfInput 0
  | c :: rest =>
    match single? c with
    | some token => .token token 1
    | none =>
      if c = '.' then if rest.head? = some '.' then .token .dotDot 2 else .token .dot 1
      else if c = '&' then scanDouble c .andAnd rest
      else if c = '|' then scanDouble c .orOr rest
      else if c = '"' ∨ c = '\'' then scanString c rest
      else if startsNumber (c :: rest) then scanNumber pointed (c :: rest)
      else if startsName c then scanWord (c :: rest)
      else .fault (.unexpectedCharacter c) 0 0

end Token

/-! ## Lexers -/

/-- A lexer at some place of a text. -/
structure Lexer where
  /-- The characters from there on. -/
  rest : List Char
  /-- The number of characters before. -/
  position : Nat
  /-- Whether the last token was a single dot. -/
  afterDot : Bool

namespace Lexer

/-- The lexer at the start of a text. -/
def ofText (text : String) : Lexer := ⟨text.toList, 0, false⟩

/-- The lexer some characters further on. -/
def advance (l : Lexer) (count : Nat) : Lexer :=
  { l with rest := l.rest.drop count, position := l.position + count }

/-- The lexer behind the blanks. -/
def skipBlank (l : Lexer) : Lexer := l.advance (l.rest.takeWhile Text.isBlank).length

/-- The next token or the fault that stands there, and the lexer behind what was read. At the end
of the text the next token is its end, again and again. -/
def next (l : Lexer) : Except LexError Located × Lexer :=
  let start := l.skipBlank
  match Token.scan (!start.afterDot) start.rest with
  | .token token width =>
    (.ok ⟨token, start.position⟩, { start.advance width with afterDot := token == .dot })
  | .fault fault offset width => (.error ⟨fault, start.position + offset⟩, start.advance width)

/-- The lexer behind some tokens, if there is no fault among them. -/
def skip (l : Lexer) : Nat → Except LexError Lexer
  | 0 => .ok l
  | count + 1 =>
    match l.next with
    | (.ok _, after) => after.skip count
    | (.error e, _) => .error e

/-- The answers of a lexer that is asked for the next token some times, faults included. -/
def steps (l : Lexer) : Nat → List (Except LexError Located)
  | 0 => []
  | count + 1 => l.next.1 :: l.next.2.steps count

end Lexer

end PathQuery
