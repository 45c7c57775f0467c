import PathQuery.Proofs.Reading
/-!
# Tokens moved to other places

The readers look at tokens, never at their places: these they only copy into the expression or the
error that they make. So when every token is moved, the expression is the same with all its places
moved, or the error is the same one at its moved place. That holds for every way of moving, also for
one that moves all tokens to the same place.
-/
namespace PathQuery

/-! ## Moved parts -/

/-- The token at its moved place. -/
def Located.moved (f : Nat → Nat) (found : Located) : Located :=
  { found with position := f found.position }

/-- The expression with all its places moved. -/
def Expr.moved (f : Nat → Nat) : Expr → Expr
  | .root p => .root (f p)
  | .literal p value => .literal (f p) value
  | .field p object key => .field (f p) (object.moved f) (key.moved f)
  | .index p object n => .index (f p) (object.moved f) n
  | .wildcard p object => .wildcard (f p) (object.moved f)
  | .descent p object name => .descent (f p) (object.moved f) name
  | .boolean p op left right => .boolean (f p) op (left.moved f) (right.moved f)

/-- The step with all places of its key moved. -/
def Step.moved (f : Nat → Nat) : Step → Step
  | .key k => .key (k.moved f)
  | .field name => .field name
  | .index n => .index n
  | .wildcard => .wildcard
  | .descent name => .descent name

/-- The same error at its moved place. -/
def ParseError.moved (f : Nat → Nat) : ParseError → ParseError
  | .lexical e => .lexical { e with position := f e.position }
  | .unexpected expected found => .unexpected expected (found.moved f)
  | .tooDeep p => .tooDeep (f p)

/-- A moved step applies to the moved object at the moved place. -/
theorem Step.moved_apply (f : Nat → Nat) (step : Step) (p : Nat) (object : Expr) :
    (step.apply p object).moved f = (step.moved f).apply (f p) (object.moved f) := by
  cases step <;> rfl

/-- Moved expressions are equal up to their places. -/
theorem Expr.unplaced_moved (f : Nat → Nat) (e : Expr) : (e.moved f).unplaced = e.unplaced := by
  induction e with
  | root | literal => rfl
  | field _ _ _ object key => simp only [moved, unplaced, object, key]
  | index _ _ _ object | wildcard _ _ object | descent _ _ _ object =>
    simp only [moved, unplaced, object]
  | boolean _ _ _ _ left right => simp only [moved, unplaced, left, right]

namespace Parser

variable {f : Nat → Nat} {α β : Type} {tokens other : List Located} {move : α → α} {onward : β → β}

/-! ## Moved readings -/

namespace Reading

/-- What was made of a value or an error when everything is moved. -/
def movedResult (f : Nat → Nat) (move : α → α) : Except ParseError α → Except ParseError α
  | .ok value => .ok (move value)
  | .error e => .error (e.moved f)

/-- The second reading is the first one with its value, its error and the tokens that are left
moved. -/
structure Moves (f : Nat → Nat) (move : α → α) (r : Reading α tokens) (m : Reading α other) :
    Prop where
  /-- The value or the error is moved. -/
  result : m.result = movedResult f move r.result
  /-- The tokens that are left are moved. -/
  rest : m.rest = r.rest.map (·.moved f)

/-- Seen from earlier tokens, readings are moved as they were. -/
theorem Moves.within {later behind : List Located} {r : Reading α later} {m : Reading α behind}
    (moves : Moves f move r m) (shorter : later.length ≤ tokens.length)
    (shorter' : behind.length ≤ other.length) :
    Moves f move (r.within shorter) (m.within shorter') :=
  ⟨moves.result, moves.rest⟩

/-- Readings in a row are moved when both parts are. -/
theorem Moves.andThen {r : Reading α tokens} {m : Reading α other}
    {next : α → (rest : List Located) → rest.length ≤ tokens.length → Reading β rest}
    {next' : α → (rest : List Located) → rest.length ≤ other.length → Reading β rest}
    (first : Moves f move r m)
    (second : ∀ value rest shorter shorter', Moves f onward (next value rest shorter)
      (next' (move value) (rest.map (·.moved f)) shorter')) :
    Moves f onward (r.andThen next) (m.andThen next') := by
  obtain ⟨result, rest, shrinks⟩ := r
  obtain ⟨result', rest', shrinks'⟩ := m
  obtain ⟨sameResult, sameRest⟩ := first
  cases result with
  | ok value =>
    obtain rfl : result' = .ok (move value) := sameResult
    obtain rfl : rest' = rest.map (·.moved f) := sameRest
    exact (second value rest shrinks shrinks').within shrinks shrinks'
  | error e =>
    obtain rfl : result' = .error (e.moved f) := sameResult
    exact ⟨rfl, sameRest⟩

end Reading

open Reading

/-- A reader makes of moved tokens what another one makes of the tokens, moved. -/
def Natural (f : Nat → Nat) (reader moved : Reader) : Prop :=
  ∀ tokens, Moves f (·.moved f) (reader tokens) (moved (tokens.map (·.moved f)))

variable {finish : Nat} {nested moved operand further : Reader}

/-! ## The small readers -/

/-- The first of moved tokens is the first one moved, and so is the end. -/
theorem current_moved (f : Nat → Nat) (finish : Nat) (tokens : List Located) :
    current (f finish) (tokens.map (·.moved f)) = (current finish tokens).moved f := by
  cases tokens <;> rfl

/-- A value that is accepted is moved. -/
theorem accept_moves (value : α) (tokens : List Located) :
    Moves f move (accept value tokens) (accept (move value) (tokens.map (·.moved f))) :=
  ⟨rfl, rfl⟩

/-- A refused token is moved. -/
theorem refuse_moves (expected : Expectation) (tokens : List Located) :
    Moves f move (refuse finish expected tokens)
      (refuse (f finish) expected (tokens.map (·.moved f))) :=
  ⟨by rw [refuse, current_moved]; rfl, rfl⟩

/-- A token that has to come is taken or refused where it is moved to. -/
theorem expect_moves (token : Token) (expected : Expectation) (tokens : List Located) :
    Moves f id (expect finish token expected tokens)
      (expect (f finish) token expected (tokens.map (·.moved f))) := by
  cases tokens with
  | nil => exact refuse_moves expected []
  | cons first later =>
    rw [List.map_cons, expect, expect]
    split
    · next same =>
      rw [if_pos (show (first.moved f).token = token from same)]
      exact ⟨rfl, rfl⟩
    · next different =>
      rw [if_neg (show (first.moved f).token ≠ token from different)]
      exact refuse_moves expected (first :: later)

/-- A name is the same where it is moved to. -/
theorem readName_moves (tokens : List Located) :
    Moves f id (readName tokens) (readName (tokens.map (·.moved f))) := by
  cases tokens with
  | nil => exact ⟨rfl, rfl⟩
  | cons first later =>
    obtain ⟨token, p⟩ := first
    cases token <;> exact ⟨rfl, rfl⟩

/-- A step behind a point is the same where it is moved to. -/
theorem readDotted_moves (tokens : List Located) :
    Moves f (·.moved f) (readDotted finish tokens)
      (readDotted (f finish) (tokens.map (·.moved f))) := by
  cases tokens with
  | nil => exact ⟨rfl, rfl⟩
  | cons first later =>
    obtain ⟨token, p⟩ := first
    cases token <;> exact ⟨rfl, rfl⟩

/-- A step in brackets is moved with the expression in them. -/
theorem readBracketed_moves (natural : Natural f nested moved) (tokens : List Located) :
    Moves f (·.moved f) (readBracketed finish nested tokens)
      (readBracketed (f finish) moved (tokens.map (·.moved f))) := by
  by_cases closed : ∃ first second later, tokens = first :: second :: later ∧
      Grammar.standsAlone first.token = true ∧ second.token = .rightBracket
  · obtain ⟨⟨token, p⟩, ⟨_, q⟩, later, rfl, alone, rfl⟩ := closed
    cases token with
    | star | identifier => exact ⟨rfl, rfl⟩
    | _ => cases alone
  · have here : ∀ first second later, tokens = first :: second :: later →
        Grammar.standsAlone first.token = true → second.token ≠ .rightBracket :=
      fun first second later same alone close => closed ⟨first, second, later, same, alone, close⟩
    have there : ∀ first second later, tokens.map (·.moved f) = first :: second :: later →
        Grammar.standsAlone first.token = true → second.token ≠ .rightBracket := by
      intro first second later same
      obtain ⟨first, tail, rfl, rfl, rest⟩ := List.map_eq_cons_iff.1 same
      obtain ⟨second, later, rfl, rfl, -⟩ := List.map_eq_cons_iff.1 rest
      exact here first second later rfl
    rw [readBracketed_eq_nested here, readBracketed_eq_nested there]
    exact (natural tokens).andThen fun key rest _ _ =>
      (expect_moves .rightBracket .rightBracket rest).andThen fun _ rest _ _ =>
        accept_moves (Step.key key) rest

/-! ## Paths -/

/-- Steps are moved with the expressions in them. -/
theorem readSteps_moves (natural : Natural f nested moved) :
    ∀ (object : Expr) (tokens : List Located),
      Moves f (·.moved f) (readSteps finish nested object tokens)
        (readSteps (f finish) moved (object.moved f) (tokens.map (·.moved f))) := by
  intro object tokens
  induction bound : tokens.length using Nat.strongRecOn generalizing object tokens with
  | ind length ih =>
    match tokens, bound with
    | [], _ =>
      rw [List.map_nil, readSteps, readSteps]
      exact accept_moves object []
    | ⟨token, p⟩ :: later, bound =>
      have again : ∀ (step : Step) (rest : List Located), rest.length ≤ later.length →
          Moves f (·.moved f) (readSteps finish nested (step.apply p object) rest)
            (readSteps (f finish) moved ((step.moved f).apply (f p) (object.moved f))
              (rest.map (·.moved f))) := by
        intro step rest shorter
        rw [← Step.moved_apply]
        refine ih rest.length ?_ _ rest rfl
        simp only [List.length_cons] at bound
        omega
      rw [List.map_cons, readSteps, readSteps]
      cases token with
      | dot =>
        exact ((readDotted_moves later).andThen fun step rest shorter _ =>
          again step rest shorter).within _ _
      | dotDot =>
        have descent : Moves f (·.moved f)
            ((readName later).andThen fun name rest _ => accept (Step.descent name) rest)
            ((readName (later.map (·.moved f))).andThen fun name rest _ =>
              accept (Step.descent name) rest) :=
          (readName_moves later).andThen fun name rest _ _ => accept_moves (Step.descent name) rest
        exact (descent.andThen fun step rest shorter _ => again step rest shorter).within _ _
      | leftBracket =>
        exact ((readBracketed_moves natural later).andThen fun step rest shorter _ =>
          again step rest shorter).within _ _
      | _ => exact accept_moves object _

/-- What a path starts with is moved. -/
theorem readPrimary_moves (natural : Natural f nested moved) (tokens : List Located) :
    Moves f (·.moved f) (readPrimary finish nested tokens)
      (readPrimary (f finish) moved (tokens.map (·.moved f))) := by
  cases tokens with
  | nil => exact refuse_moves .pathOrLiteral []
  | cons first rest =>
    obtain ⟨token, p⟩ := first
    cases token with
    | dotDot =>
      have descent : Moves f (·.moved f)
          ((readName rest).andThen fun name rest _ => accept (Expr.descent p (.root p) name) rest)
          ((readName (rest.map (·.moved f))).andThen fun name rest _ =>
            accept (Expr.descent (f p) (.root (f p)) name) rest) :=
        (readName_moves rest).andThen fun name rest _ _ =>
          accept_moves (Expr.descent p (.root p) name) rest
      exact descent.within (Nat.le_succ _) (Nat.le_succ _)
    | leftParen =>
      have group : Moves f (·.moved f)
          ((nested rest).andThen fun inner rest _ =>
            (expect finish .rightParen .rightParen rest).andThen fun _ rest _ => accept inner rest)
          ((moved (rest.map (·.moved f))).andThen fun inner rest _ =>
            (expect (f finish) .rightParen .rightParen rest).andThen fun _ rest _ =>
              accept inner rest) :=
        (natural rest).andThen fun inner rest _ _ =>
          (expect_moves .rightParen .rightParen rest).andThen fun _ rest _ _ =>
            accept_moves inner rest
      exact group.within (Nat.le_succ _) (Nat.le_succ _)
    | _ => exact ⟨rfl, rfl⟩

/-- A path is moved with the expressions in it. -/
theorem readPath_natural (natural : Natural f nested moved) :
    Natural f (readPath finish nested) (readPath (f finish) moved) := fun tokens =>
  (readPrimary_moves natural tokens).andThen fun object rest _ _ =>
    readSteps_moves natural object rest

/-! ## Expressions -/

/-- Further operands are moved as operands are. -/
theorem readOperands_moves {op : BoolOp} (natural : Natural f operand further) :
    ∀ (left : Expr) (tokens : List Located),
      Moves f (·.moved f) (readOperands op operand left tokens)
        (readOperands op further (left.moved f) (tokens.map (·.moved f))) := by
  intro left tokens
  induction bound : tokens.length using Nat.strongRecOn generalizing left tokens with
  | ind length ih =>
    match tokens, bound with
    | [], _ =>
      rw [List.map_nil, readOperands, readOperands]
      exact accept_moves left []
    | ⟨token, p⟩ :: later, bound =>
      rw [List.map_cons, readOperands, Located.moved, readOperands]
      split
      · refine ((natural later).andThen fun right rest shorter _ => ?_).within _ _
        simp only [List.length_cons] at bound
        exact ih rest.length (by omega) (.boolean p op left right) rest rfl
      · exact accept_moves left _

/-- Combinations are moved as operands are. -/
theorem readCombination_natural {op : BoolOp} (natural : Natural f operand further) :
    Natural f (readCombination op operand) (readCombination op further) := fun tokens =>
  (natural tokens).andThen fun left rest _ _ => readOperands_moves natural left rest

/-- Expressions are moved at every level of nesting. -/
theorem readExpr_natural (levels : Nat) :
    Natural f (readExpr finish levels) (readExpr (f finish) levels) := by
  induction levels with
  | zero => exact fun tokens => ⟨by simp only [readExpr, current_moved]; rfl, rfl⟩
  | succ levels deeper =>
    exact readCombination_natural (readCombination_natural (readPath_natural deeper))

/-- A whole expression is moved. -/
theorem readWhole_moves (f : Nat → Nat) (finish levels : Nat) (tokens : List Located) :
    Moves f (·.moved f) (readWhole finish levels tokens)
      (readWhole (f finish) levels (tokens.map (·.moved f))) := by
  refine (readExpr_natural levels tokens).andThen fun e rest _ _ => ?_
  cases rest with
  | nil => exact accept_moves e []
  | cons first later => exact refuse_moves .endOfInput (first :: later)

end Parser

/-! ## Moved texts -/

namespace TokenStream

/-- The tokens and the end of the text at their moved places. -/
def moved (f : Nat → Nat) (s : TokenStream) : TokenStream :=
  ⟨s.tokens.map (·.moved f), f s.finish⟩

/-- What is made of moved tokens is what is made of the tokens, moved. -/
theorem parse_moved (f : Nat → Nat) (s : TokenStream) :
    (s.moved f).parse.1 = Parser.Reading.movedResult f (·.moved f) s.parse.1 :=
  (Parser.readWhole_moves f s.finish Expr.nestingLimit s.tokens).result

end TokenStream

end PathQuery
