import PathQuery.Decimal.Shortest
import PathQuery.Text.Numeric
/-!
# Tokens of a path

The smallest parts of a path expression: literals, names, selectors, operators and brackets. A
name starts with an alphabetic character or an underscore and goes on with alphanumeric
characters, underscores and dashes; five words that look like names are literals and operators.
-/
namespace PathQuery

/-- A smallest part of a path. -/
inductive Token where
  /-- A whole number. -/
  | integer (value : Int64)
  /-- A number with a fraction. -/
  | float (value : Float)
  /-- A quoted text. -/
  | string (text : String)
  /-- A truth value. -/
  | boolean (value : Bool)
  /-- The null literal. -/
  | null
  /-- A name. -/
  | identifier (name : String)
  /-- The document. -/
  | dollar
  /-- A step to a field or an index. -/
  | dot
  /-- A descent. -/
  | dotDot
  /-- A wildcard. -/
  | star
  /-- Conjunction, as a sign or a word. -/
  | andAnd
  /-- Disjunction, as a sign or a word. -/
  | orOr
  /-- Opens a computed key. -/
  | leftBracket
  /-- Closes a computed key. -/
  | rightBracket
  /-- Opens a group. -/
  | leftParen
  /-- Closes a group. -/
  | rightParen
  /-- The end of the text. -/
  | endOfInput
deriving DecidableEq

/-- A token with the number of characters before it. -/
structure Located where
  /-- The token. -/
  token : Token
  /-- The offset of its first character. -/
  position : Nat
deriving DecidableEq

namespace Token

/-- A token as messages name it. -/
def description : Token → String
  | .integer n => "integer " ++ String.ofList (Decimal.integerText n.toInt)
  | .float x => "number " ++ String.ofList (Decimal.plainText x)
  | .string text => "string \"" ++ text ++ "\""
  | .boolean true => "'true'"
  | .boolean false => "'false'"
  | .null => "'null'"
  | .identifier name => "identifier '" ++ name ++ "'"
  | .dollar => "'$'"
  | .dot => "'.'"
  | .dotDot => "'..'"
  | .star => "'*'"
  | .andAnd => "'&&'"
  | .orOr => "'||'"
  | .leftBracket => "'['"
  | .rightBracket => "']'"
  | .leftParen => "'('"
  | .rightParen => "')'"
  | .endOfInput => "end of input"

/-- The token of a single character that starts no other token. -/
def single? (c : Char) : Option Token :=
  if c = '$' then some .dollar
  else if c = '*' then some .star
  else if c = '[' then some .leftBracket
  else if c = ']' then some .rightBracket
  else if c = '(' then some .leftParen
  else if c = ')' then some .rightParen
  else none

/-- Whether a name may start with the character. -/
def startsName (c : Char) : Bool := Text.isAlphabetic c || c = '_'

/-- Whether a name may go on with the character. -/
def continuesName (c : Char) : Bool := Text.isAlphanumeric c || c = '_' || c = '-'

/-- The token of a word that is not a name. -/
def keyword? (word : String) : Option Token :=
  if word = "and" then some .andAnd
  else if word = "or" then some .orOr
  else if word = "true" then some (.boolean true)
  else if word = "false" then some (.boolean false)
  else if word = "null" then some .null
  else none

/-- The token of a word: a keyword's own token, or an identifier. -/
def ofWord (word : String) : Token := (keyword? word).getD (.identifier word)

/-- Whether a text, written without quotes, is a name. -/
def isPlainName (text : String) : Bool :=
  match text.toList with
  | [] => false
  | c :: rest => startsName c && rest.all continuesName && (keyword? text).isNone

/-- The characters of a name start may also continue one. -/
theorem continuesName_of_startsName {c : Char} (starts : startsName c = true) :
    continuesName c = true := by
  simp only [startsName, Bool.or_eq_true, decide_eq_true_eq] at starts
  rcases starts with alphabetic | rfl
  · simp [continuesName, Text.isAlphanumeric, alphabetic]
  · rfl

end Token

end PathQuery
