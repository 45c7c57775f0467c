import PathQuery.Expr.Parser
/-!
# Parsers that go on after an error

A parser keeps its tokens in slots, with a cursor at the current one, and counts the expressions
that it is reading inside of each other. It can be asked for an expression again and again, also
when the answer before was an error, and goes on at its cursor.

It reads by the same grammar as the readers of `PathQuery.Expr.Parser`, but in place: tokens that
carry a value are moved out of their slots, and the depth is raised before an expression is read and
lowered behind it, whether it was read or not. Every run says which state it ended in; none has
more tokens left than before, which is why parsing ends.
-/
namespace PathQuery.Parser

/-- A parser at work. -/
structure State where
  /-- The tokens, without the end of the text. Where one was taken the end stands instead. -/
  slots : List Located
  /-- The offset of the end of the text. -/
  finish : Nat
  /-- The number of slots before the current one. -/
  cursor : Nat
  /-- The current slot is one of the tokens or the end behind them. -/
  inside : cursor ≤ slots.length
  /-- The number of expressions that are being read. -/
  depth : Nat

namespace State

/-- A new parser in front of some tokens. -/
def ofTokens (s : TokenStream) : State := ⟨s.tokens, s.finish, 0, Nat.zero_le _, 0⟩

/-- The token some slots behind the current one, or the end of the text. -/
def peek (s : State) (ahead : Nat) : Located :=
  s.slots.getD (s.cursor + ahead) ⟨.endOfInput, s.finish⟩

/-- The current token. -/
def current (s : State) : Located := s.peek 0

/-- The number of tokens from the current one on. -/
def left (s : State) : Nat := s.slots.length - s.cursor

/-- Moves on to the next slot, unless the current one is the end. -/
def advance (s : State) : State :=
  if inside : s.cursor < s.slots.length then { s with cursor := s.cursor + 1, inside } else s

/-- Moves the current token out of its slot, leaving the end there, and moves on. -/
def take (s : State) : State :=
  let slots := s.slots.set s.cursor { s.current with token := .endOfInput }
  advance { s with slots, inside := by rw [List.length_set]; exact s.inside }

/-- Inside of one expression more. -/
def raise (s : State) : State := { s with depth := s.depth + 1 }

/-- Inside of one expression less. -/
def lower (s : State) : State := { s with depth := s.depth - 1 }

/-! ## Progress -/

/-- Moving on leaves one token less, if there is one. -/
theorem left_advance (s : State) : s.advance.left = s.left - 1 := by
  unfold advance
  split
  · exact Nat.sub_add_eq ..
  · simp only [left]
    omega

/-- Taking a token leaves one token less, if there is one. -/
theorem left_take (s : State) : s.take.left = s.left - 1 := by
  rw [take, left_advance, left, List.length_set, left]

/-- One expression more takes no tokens. -/
theorem left_raise (s : State) : s.raise.left = s.left := rfl

/-- Where the current token is not the end, there are tokens left. -/
theorem left_pos {s : State} (inside : s.current.token ≠ .endOfInput) : 0 < s.left := by
  refine Nat.sub_pos_of_lt (Nat.lt_of_not_le fun none => inside ?_)
  rw [current, peek, List.getD_eq_getElem?_getD, Nat.add_zero, List.getElem?_eq_none none]
  rfl

end State

/-! ## Runs -/

/-- What a parser made of its tokens, and where it stands then. -/
structure Run (α : Type) (s : State) where
  /-- What was read, or why nothing was. -/
  result : Except ParseError α
  /-- The parser behind what was read. -/
  state : State
  /-- No more tokens are left than there were. -/
  shrinks : state.left ≤ s.left

namespace Run

variable {α β : Type} {s t : State}

/-- A run from a later state, seen from an earlier one. -/
def within (run : Run α t) (shorter : t.left ≤ s.left) : Run α s :=
  ⟨run.result, run.state, Nat.le_trans run.shrinks shorter⟩

/-- Goes on with what was read, and stops at an error. -/
def andThen (run : Run α s) (next : α → (t : State) → t.left ≤ s.left → Run β t) : Run β s :=
  match run with
  | ⟨.ok a, state, shrinks⟩ => (next a state shrinks).within shrinks
  | ⟨.error e, state, shrinks⟩ => ⟨.error e, state, shrinks⟩

/-- A run inside of one expression more, with the depth lowered again behind it. -/
def lowered (run : Run α s.raise) : Run α s := ⟨run.result, run.state.lower, run.shrinks⟩

end Run

namespace State

variable {α : Type}

/-- Takes nothing and gives a value. -/
def accept (value : α) (s : State) : Run α s := ⟨.ok value, s, Nat.le_refl _⟩

/-- Takes nothing and refuses the current token. -/
def refuse (expected : Expectation) (s : State) : Run α s :=
  ⟨.error (.unexpected expected s.current), s, Nat.le_refl _⟩

/-- Moves on behind the current token and gives a value. -/
def skip (value : α) (s : State) : Run α s :=
  ⟨.ok value, s.advance, s.left_advance ▸ Nat.sub_le _ _⟩

/-- Moves on behind one token that has to come. -/
def expect (token : Token) (expected : Expectation) (s : State) : Run Unit s :=
  if s.current.token = token then skip () s else refuse expected s

/-- Takes a name, plain or quoted, if one comes. -/
def takeName (s : State) : Run (Option String) s :=
  match s.current.token with
  | .identifier name | .string name =>
    ⟨.ok (some name), s.take, s.left_take ▸ Nat.sub_le _ _⟩
  | _ => accept none s

/-- Takes the name of a field that comes. -/
def takeField (s : State) : Run Step s :=
  (takeName s).andThen fun name t _ => accept (.field (name.getD "")) t

/-- A parser of expressions for states with less than some number of tokens left. -/
abbrev Below (bound : Nat) := (s : State) → s.left < bound → Run Expr s

variable {bound : Nat}

/-- Parses the step behind a point. -/
def parseDotted (s : State) : Run Step s :=
  match s.current.token with
  | .identifier _ | .string _ => takeField s
  | .integer n => skip (.index n) s
  | .star => skip .wildcard s
  | _ => refuse .step s

/-- Expects the bracket behind a step. -/
def closeBracket (step : Step) (s : State) : Run Step s :=
  (expect .rightBracket .rightBracket s).andThen fun _ t _ => accept step t

/-- Parses the step behind an opening bracket. A lone `*` or name is not an expression there. -/
def parseBracketed (nested : Below bound) (s : State) (inside : s.left < bound) : Run Step s :=
  match s.current.token, (s.peek 1).token with
  | .star, .rightBracket => (skip .wildcard s).andThen fun step t _ => closeBracket step t
  | .identifier _, .rightBracket => (takeField s).andThen fun step t _ => closeBracket step t
  | _, _ => (nested s inside).andThen fun key t _ => closeBracket (.key key) t

/-- Parses a step, if the token in front introduces one. -/
def parseStep (nested : Below bound) (token : Token) (s : State)
    (inside : token ≠ .endOfInput → s.left < bound) : Option (Run Step s) :=
  match token, inside with
  | .dot, _ => some (parseDotted s)
  | .dotDot, _ => some ((takeName s).andThen fun name t _ => accept (.descent name) t)
  | .leftBracket, inside => some (parseBracketed nested s (inside nofun))
  | _, _ => none

/-- Behind a token that is not the end there is less than before it. -/
theorem left_advance_lt {s : State} (inside : s.left < bound + 1)
    (some : s.current.token ≠ .endOfInput) : s.advance.left < bound := by
  have positive := left_pos some
  rw [left_advance]
  omega

/-- The end introduces no step. -/
theorem ne_endOfInput_of_parseStep {nested : Below bound} {token : Token} {s : State}
    {inside : token ≠ .endOfInput → s.left < bound} {step : Run Step s}
    (opens : parseStep nested token s inside = some step) : token ≠ .endOfInput := by
  rintro rfl
  cases opens

/-- Parses all steps behind an object. -/
def parseSteps (nested : Below bound) (object : Expr) (s : State) (inside : s.left < bound + 1) :
    Run Expr s :=
  match opens : parseStep nested s.current.token s.advance (left_advance_lt inside) with
  | none => accept object s
  | some step =>
    have shorter : s.advance.left < s.left :=
      left_advance_lt (Nat.lt_succ_self _) (ne_endOfInput_of_parseStep opens)
    (step.andThen fun step t further =>
      parseSteps nested (step.apply s.current.position object) t (by omega)).within
        (Nat.le_of_lt shorter)
termination_by s.left

/-- Parses what a path starts with, behind its first token. -/
def parseStart (nested : Below bound) (first : Located) (s : State)
    (inside : first.token ≠ .endOfInput → s.left < bound) : Run Expr s :=
  match first, inside with
  | ⟨.integer n, position⟩, _ => accept (.literal position (.integer n)) s
  | ⟨.float x, position⟩, _ => accept (.literal position (.float x)) s
  | ⟨.string text, position⟩, _ => accept (.literal position (.string text)) s
  | ⟨.boolean b, position⟩, _ => accept (.literal position (.boolean b)) s
  | ⟨.null, position⟩, _ => accept (.literal position .null) s
  | ⟨.dollar, position⟩, _ => accept (.root position) s
  | ⟨.identifier name, position⟩, _ => accept (.named position (.root position) name) s
  | ⟨.star, position⟩, _ => accept (.wildcard position (.root position)) s
  | ⟨.dotDot, position⟩, _ =>
    (takeName s).andThen fun name t _ => accept (.descent position (.root position) name) t
  | ⟨.leftParen, _⟩, inside =>
    (nested s (inside nofun)).andThen fun inner t _ =>
      (expect .rightParen .rightParen t).andThen fun _ t _ => accept inner t
  | first, _ => ⟨.error (.unexpected .pathOrLiteral first), s, Nat.le_refl _⟩

/-- Behind a token that was taken there is less than before it. -/
theorem left_take_lt {s : State} (inside : s.left < bound + 1)
    (some : s.current.token ≠ .endOfInput) : s.take.left < bound := by
  have positive := left_pos some
  rw [left_take]
  omega

/-- Parses what a path starts with. A token that starts no path is taken too. -/
def parsePrimary (nested : Below bound) : Below (bound + 1) := fun s inside =>
  (parseStart nested s.current s.take (left_take_lt inside)).within
    (s.left_take ▸ Nat.sub_le _ _)

/-- Parses a path. -/
def parsePath (nested : Below bound) : Below (bound + 1) := fun s inside =>
  (parsePrimary nested s inside).andThen fun object t shorter =>
    parseSteps nested object t (Nat.lt_of_le_of_lt shorter inside)

/-- The end is no operator. -/
theorem operator_ne_endOfInput (op : BoolOp) : operator op ≠ .endOfInput := by
  cases op <;> nofun

/-- Parses all further operands of a combinator behind a left operand. -/
def parseOperands (op : BoolOp) (operand : Below bound) (left : Expr) (s : State)
    (inside : s.left < bound) : Run Expr s :=
  if goesOn : s.current.token = operator op then
    have shorter : s.advance.left < s.left :=
      left_advance_lt (Nat.lt_succ_self _) (goesOn ▸ operator_ne_endOfInput op)
    ((operand s.advance (by omega)).andThen fun right t further =>
      parseOperands op operand (.boolean s.current.position op left right) t (by omega)).within
        (Nat.le_of_lt shorter)
  else accept left s
termination_by s.left

/-- Parses operands with a combinator between them, grouped to the left. -/
def parseCombination (op : BoolOp) (operand : Below bound) : Below bound := fun s inside =>
  (operand s inside).andThen fun left t shorter =>
    parseOperands op operand left t (Nat.lt_of_le_of_lt shorter inside)

/-- Parses an expression inside of those that are being read, unless there are too many. -/
def parseExpr (s : State) : Run Expr s :=
  if s.depth ≥ Expr.nestingLimit then
    ⟨.error (.tooDeep s.current.position), s, Nat.le_refl _⟩
  else
    let path : Below (s.left + 1) := parsePath fun t _ => parseExpr t
    let run := parseCombination .or (parseCombination .and path) s.raise
    (run (Nat.lt_succ_of_le (Nat.le_of_eq s.left_raise))).lowered
termination_by s.left

/-- Parses an expression that has to go on to the end of the text. -/
def parse (s : State) : Run Expr s :=
  (parseExpr s).andThen fun e t _ =>
    if t.current.token = .endOfInput then accept e t else refuse .endOfInput t

/-- The parser after it was asked some times, whatever it answered. -/
def after (s : State) : Nat → State
  | 0 => s
  | count + 1 => s.parse.state.after count

end State

end PathQuery.Parser

namespace PathQuery

/-- The answers when a parser of the tokens is asked some times. -/
def TokenStream.parseRepeatedly (s : TokenStream) (count : Nat) :
    List (Except ParseError Expr) :=
  (List.range count).map fun earlier => ((Parser.State.ofTokens s).after earlier).parse.result

end PathQuery
