import PathQuery.Expr
import PathQuery.Token.Stream
/-!
# Reading expressions

Tokens are read by the grammar

* an expression is conjunctions with `||` between them,
* a conjunction is paths with `&&` between them,
* a path is a primary with steps behind it,
* a primary is `$`, a name, `*`, `..` with or without a name, a literal, or an expression in
  parentheses,
* a step is a point and a name, an index or `*`; `..` with or without a name; or brackets around
  `*`, a name or an expression.

Both operators group to the left. Expressions may be nested in each other up to a limit. Every
reader says what it made of the tokens and which tokens are left, also after an error, so that
reading can go on there; none leaves more tokens than it was given, which is why reading ends.
-/
namespace PathQuery

/-- How deep parentheses and computed keys may be nested, the whole expression included. -/
def Expr.nestingLimit : Nat := 256

/-- What had to come. -/
inductive Expectation where
  /-- The start of a path, or a literal. -/
  | pathOrLiteral
  /-- What may follow a point. -/
  | step
  /-- The end of a computed key. -/
  | rightBracket
  /-- The end of a group. -/
  | rightParen
  /-- The end of the text. -/
  | endOfInput
deriving DecidableEq, Repr

/-- An expectation as messages name it. -/
def Expectation.description : Expectation → String
  | .pathOrLiteral => "path or literal"
  | .step => "field name, index or '*' after '.'"
  | .rightBracket => "']'"
  | .rightParen => "')'"
  | .endOfInput => "end of input"

/-- Why a text is not an expression. -/
inductive ParseError where
  /-- The text does not consist of tokens. -/
  | lexical (error : LexError)
  /-- Another token had to come. -/
  | unexpected (expected : Expectation) (found : Located)
  /-- Expressions are nested too deep. -/
  | tooDeep (position : Nat)
deriving DecidableEq

namespace ParseError

/-- The offset an error points at. -/
def position : ParseError → Nat
  | .lexical error => error.position
  | .unexpected _ found => found.position
  | .tooDeep position => position

/-- The text of an error. -/
def message : ParseError → String
  | .lexical error => error.message
  | .unexpected expected found =>
    "expected " ++ expected.description ++ " but found " ++ found.token.description
      ++ " at position " ++ toString found.position
  | .tooDeep position =>
    "expression nested deeper than " ++ toString Expr.nestingLimit ++ " levels at position "
      ++ toString position

end ParseError

namespace Parser

/-- What was made of some tokens, and the tokens that are left. -/
structure Reading (α : Type) (tokens : List Located) where
  /-- What was read, or why nothing was. -/
  result : Except ParseError α
  /-- The tokens from where reading stopped. -/
  rest : List Located
  /-- No more tokens are left than there were. -/
  shrinks : rest.length ≤ tokens.length

/-- A reader of expressions. -/
abbrev Reader := (tokens : List Located) → Reading Expr tokens

namespace Reading

variable {α β : Type} {tokens later : List Located}

/-- A reading of later tokens, seen from earlier ones. -/
def within (r : Reading α later) (shorter : later.length ≤ tokens.length) : Reading α tokens :=
  ⟨r.result, r.rest, Nat.le_trans r.shrinks shorter⟩

/-- Goes on with what was read, and stops at an error. -/
def andThen (r : Reading α tokens)
    (next : α → (rest : List Located) → rest.length ≤ tokens.length → Reading β rest) :
    Reading β tokens :=
  match r with
  | ⟨.ok a, rest, shrinks⟩ => (next a rest shrinks).within shrinks
  | ⟨.error e, rest, shrinks⟩ => ⟨.error e, rest, shrinks⟩

end Reading

/-- The first of some tokens, or the end of the text at its offset. -/
def current (finish : Nat) (tokens : List Located) : Located :=
  tokens.headD ⟨.endOfInput, finish⟩

/-- Takes nothing and gives a value. -/
def accept {α : Type} (value : α) (tokens : List Located) : Reading α tokens :=
  ⟨.ok value, tokens, Nat.le_refl _⟩

/-- Takes nothing and refuses the current token. -/
def refuse {α : Type} (finish : Nat) (expected : Expectation) (tokens : List Located) :
    Reading α tokens :=
  ⟨.error (.unexpected expected (current finish tokens)), tokens, Nat.le_refl _⟩

/-- Takes one token that has to come. -/
def expect (finish : Nat) (token : Token) (expected : Expectation) (tokens : List Located) :
    Reading Unit tokens :=
  match tokens with
  | first :: rest =>
    if first.token = token then ⟨.ok (), rest, Nat.le_succ _⟩
    else refuse finish expected (first :: rest)
  | [] => refuse finish expected []

/-- Takes a name, plain or quoted, if one comes. -/
def readName (tokens : List Located) : Reading (Option String) tokens :=
  match tokens with
  | ⟨.identifier name, _⟩ :: rest => ⟨.ok (some name), rest, Nat.le_succ _⟩
  | ⟨.string name, _⟩ :: rest => ⟨.ok (some name), rest, Nat.le_succ _⟩
  | tokens => accept none tokens

/-- Reads the step behind a point. -/
def readDotted (finish : Nat) (tokens : List Located) : Reading Step tokens :=
  match tokens with
  | ⟨.identifier name, _⟩ :: rest => ⟨.ok (.field name), rest, Nat.le_succ _⟩
  | ⟨.string name, _⟩ :: rest => ⟨.ok (.field name), rest, Nat.le_succ _⟩
  | ⟨.integer index, _⟩ :: rest => ⟨.ok (.index index), rest, Nat.le_succ _⟩
  | ⟨.star, _⟩ :: rest => ⟨.ok .wildcard, rest, Nat.le_succ _⟩
  | tokens => refuse finish .step tokens

/-- Reads the step behind an opening bracket. A lone `*` or name is not an expression there. -/
def readBracketed (finish : Nat) (nested : Reader) (tokens : List Located) :
    Reading Step tokens :=
  match tokens with
  | ⟨.star, _⟩ :: ⟨.rightBracket, _⟩ :: rest =>
    ⟨.ok .wildcard, rest, Nat.le_trans (Nat.le_succ _) (Nat.le_succ _)⟩
  | ⟨.identifier name, _⟩ :: ⟨.rightBracket, _⟩ :: rest =>
    ⟨.ok (.field name), rest, Nat.le_trans (Nat.le_succ _) (Nat.le_succ _)⟩
  | tokens =>
    (nested tokens).andThen fun key rest _ =>
      (expect finish .rightBracket .rightBracket rest).andThen fun _ rest _ =>
        accept (.key key) rest

/-- Reads a step, if a token introduces one. -/
def readStep (finish : Nat) (nested : Reader) (token : Token) (tokens : List Located) :
    Option (Reading Step tokens) :=
  match token with
  | .dot => some (readDotted finish tokens)
  | .dotDot => some ((readName tokens).andThen fun name rest _ => accept (.descent name) rest)
  | .leftBracket => some (readBracketed finish nested tokens)
  | _ => none

/-- Reads all steps behind an object. -/
def readSteps (finish : Nat) (nested : Reader) (object : Expr) (tokens : List Located) :
    Reading Expr tokens :=
  match tokens with
  | [] => accept object []
  | ⟨token, position⟩ :: later =>
    match readStep finish nested token later with
    | none => accept object (⟨token, position⟩ :: later)
    | some step =>
      (step.andThen fun step rest _ =>
        readSteps finish nested (step.apply position object) rest).within (Nat.le_succ _)
termination_by tokens.length
decreasing_by exact Nat.lt_succ_of_le ‹_›

/-- Reads what a path starts with. A token that starts no path is taken too. -/
def readPrimary (finish : Nat) (nested : Reader) (tokens : List Located) : Reading Expr tokens :=
  match tokens with
  | [] => refuse finish .pathOrLiteral []
  | ⟨token, position⟩ :: rest =>
    let reading : Reading Expr rest :=
      match token with
      | .integer n => accept (.literal position (.integer n)) rest
      | .float x => accept (.literal position (.float x)) rest
      | .string text => accept (.literal position (.string text)) rest
      | .boolean b => accept (.literal position (.boolean b)) rest
      | .null => accept (.literal position .null) rest
      | .dollar => accept (.root position) rest
      | .identifier name => accept (.named position (.root position) name) rest
      | .star => accept (.wildcard position (.root position)) rest
      | .dotDot =>
        (readName rest).andThen fun name rest _ =>
          accept (.descent position (.root position) name) rest
      | .leftParen =>
        (nested rest).andThen fun inner rest _ =>
          (expect finish .rightParen .rightParen rest).andThen fun _ rest _ => accept inner rest
      | token => ⟨.error (.unexpected .pathOrLiteral ⟨token, position⟩), rest, Nat.le_refl _⟩
    reading.within (Nat.le_succ _)

/-- Reads a path. -/
def readPath (finish : Nat) (nested : Reader) : Reader := fun tokens =>
  (readPrimary finish nested tokens).andThen fun object rest _ =>
    readSteps finish nested object rest

/-- The token of a combinator. -/
def operator : BoolOp → Token
  | .and => .andAnd
  | .or => .orOr

/-- Reads all further operands of a combinator behind a left operand. -/
def readOperands (op : BoolOp) (operand : Reader) (left : Expr) (tokens : List Located) :
    Reading Expr tokens :=
  match tokens with
  | [] => accept left []
  | ⟨token, position⟩ :: later =>
    if token = operator op then
      ((operand later).andThen fun right rest _ =>
        readOperands op operand (.boolean position op left right) rest).within (Nat.le_succ _)
    else accept left (⟨token, position⟩ :: later)
termination_by tokens.length
decreasing_by exact Nat.lt_succ_of_le ‹_›

/-- Reads operands with a combinator between them, grouped to the left. -/
def readCombination (op : BoolOp) (operand : Reader) : Reader := fun tokens =>
  (operand tokens).andThen fun left rest _ => readOperands op operand left rest

/-- Reads an expression that may still be nested the given number of levels deep. -/
def readExpr (finish : Nat) : Nat → Reader
  | 0 => fun tokens =>
    ⟨.error (.tooDeep (current finish tokens).position), tokens, Nat.le_refl _⟩
  | levels + 1 =>
    readCombination .or (readCombination .and (readPath finish (readExpr finish levels)))

/-- Reads an expression that has to go on to the end of the text. -/
def readWhole (finish : Nat) (levels : Nat) (tokens : List Located) : Reading Expr tokens :=
  (readExpr finish levels tokens).andThen fun e rest _ =>
    match rest with
    | [] => accept e []
    | first :: rest => refuse finish .endOfInput (first :: rest)

end Parser

namespace TokenStream

/-- The expression that all tokens make up, or why they do not; and the tokens from where reading
stopped. -/
def parse (s : TokenStream) : Except ParseError Expr × TokenStream :=
  let reading := Parser.readWhole s.finish Expr.nestingLimit s.tokens
  (reading.result, { s with tokens := reading.rest })

end TokenStream

/-- The expression of a text. -/
def Expr.ofText (text : String) : Except ParseError Expr :=
  match TokenStream.ofText text with
  | .ok s => s.parse.1
  | .error e => .error (.lexical e)

end PathQuery
