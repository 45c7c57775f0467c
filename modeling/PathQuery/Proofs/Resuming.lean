import PathQuery.Expr.Parser.State
import PathQuery.Proofs.Refusal
/-!
# Parsers that are asked again

A parser that works in place reads what the readers of expressions read from the tokens at its
cursor and behind. So nothing of what it was asked before matters, neither the slots it emptied nor
the errors it stopped at: it answers like a new parser of the tokens that are left, its depth is
where it was, and its cursor moves on until it stands at the end.
-/
namespace PathQuery.Parser

namespace State

/-! ## Tokens that are left -/

/-- The tokens from the current one on. -/
def remaining (s : State) : List Located := s.slots.drop s.cursor

variable {s t u : State}

/-- There are as many of them as are left. -/
theorem length_remaining (s : State) : s.remaining.length = s.left := List.length_drop

/-- The current token is the first of them. -/
theorem current_eq (s : State) : s.current = Parser.current s.finish s.remaining := by
  rw [current, peek, Parser.current, remaining, List.headD_eq_head?_getD, List.head?_drop,
    List.getD_eq_getElem?_getD, Nat.add_zero]

/-- The token behind the current one is the second of them. -/
theorem peek_one (s : State) : s.peek 1 = Parser.current s.finish s.remaining.tail := by
  rw [peek, Parser.current, remaining, List.tail_drop, List.headD_eq_head?_getD, List.head?_drop,
    List.getD_eq_getElem?_getD]

/-- Where tokens are left the current one is their first. -/
theorem current_of_front {first : Located} {later : List Located}
    (front : s.remaining = first :: later) : s.current = first := by
  rw [current_eq, front]
  rfl

/-- Where none is left it is the end. -/
theorem current_of_none (none : s.remaining = []) : s.current = ⟨.endOfInput, s.finish⟩ := by
  rw [current_eq, none]
  rfl

/-- A current token that is not the end is the first of those that are left. -/
theorem front_of_current (inside : s.current.token ≠ .endOfInput) :
    s.remaining = s.current :: s.remaining.tail := by
  obtain ⟨later, front⟩ := eq_cons_of_current inside s.current_eq.symm
  rw [front, List.tail_cons]

/-- A token behind the current one that is not the end is the second of those that are left. -/
theorem front_of_peek (inside : (s.peek 1).token ≠ .endOfInput) :
    ∃ later, s.remaining = s.current :: s.peek 1 :: later := by
  obtain ⟨later, second⟩ := eq_cons_of_current inside s.peek_one.symm
  cases front : s.remaining with
  | nil => cases front ▸ second
  | cons first behind =>
    rw [front, List.tail_cons] at second
    exact ⟨later, by rw [current_of_front front, second]⟩

/-- Moving on leaves all but the first. -/
theorem remaining_advance (s : State) : s.advance.remaining = s.remaining.tail := by
  unfold advance
  split
  · rw [remaining, remaining, List.tail_drop]
  · next none =>
    rw [remaining, List.drop_eq_nil_of_le (Nat.le_of_not_lt none), List.tail_nil]

/-- Taking a token leaves all but the first. -/
theorem remaining_take (s : State) : s.take.remaining = s.remaining.tail := by
  rw [take, remaining_advance, remaining, remaining, List.tail_drop, List.tail_drop]
  exact List.drop_set_of_lt (Nat.lt_succ_self _)

/-! ## What every run keeps -/

/-- A later state of a parser: the depth is the same again, the cursor is not before where it was,
and no slot from there on was touched. -/
structure Onward (s t : State) : Prop where
  /-- The end of the text is the same. -/
  finish : t.finish = s.finish
  /-- The depth is the same. -/
  depth : t.depth = s.depth
  /-- There are as many slots. -/
  length : t.slots.length = s.slots.length
  /-- The cursor did not go back. -/
  forward : s.cursor ≤ t.cursor
  /-- The slots from the cursor on are the same. -/
  untouched : t.remaining = s.slots.drop t.cursor

/-- Where nothing happened everything is the same. -/
theorem Onward.refl (s : State) : s.Onward s := ⟨rfl, rfl, rfl, Nat.le_refl _, rfl⟩

/-- Of the tokens that were left, the last ones still are. -/
theorem Onward.remaining_eq (later : s.Onward t) :
    t.remaining = s.remaining.drop (t.cursor - s.cursor) := by
  rw [later.untouched, remaining, List.drop_drop, Nat.add_sub_cancel' later.forward]

/-- A state that is later than a later one is later. -/
theorem Onward.trans (first : s.Onward t) (second : t.Onward u) : s.Onward u where
  finish := second.finish.trans first.finish
  depth := second.depth.trans first.depth
  length := second.length.trans first.length
  forward := Nat.le_trans first.forward second.forward
  untouched := by
    rw [second.remaining_eq, first.untouched, List.drop_drop, Nat.add_sub_cancel' second.forward]

/-- Moving on leads to a later state. -/
theorem onward_advance (s : State) : s.Onward s.advance := by
  unfold advance
  split
  · exact ⟨rfl, rfl, rfl, Nat.le_succ _, rfl⟩
  · exact .refl s

/-- Taking a token leads to a later state. -/
theorem onward_take (s : State) : s.Onward s.take := by
  have cursor : s.take.cursor = s.advance.cursor := by
    simp only [take, advance, List.length_set]
    split <;> rfl
  have moved := onward_advance s
  have kept : s.take.finish = s.finish ∧ s.take.depth = s.depth ∧
      s.take.slots.length = s.slots.length := by
    simp only [take, advance, List.length_set]
    split <;> exact ⟨rfl, rfl, List.length_set⟩
  have untouched : s.take.remaining = s.slots.drop s.take.cursor := by
    rw [remaining_take, ← remaining_advance, moved.untouched, cursor]
  exact ⟨kept.1, kept.2.1, kept.2.2, cursor ▸ moved.forward, untouched⟩

end State

/-! ## Runs that follow readings -/

open State

/-- A run made of the tokens what a reading made of them, and kept what every run keeps. -/
structure Run.Follows {α : Type} {s : State} {tokens : List Located} (run : Run α s)
    (reading : Reading α tokens) : Prop where
  /-- Both have the same result. -/
  result : run.result = reading.result
  /-- Both leave the same tokens. -/
  rest : run.state.remaining = reading.rest
  /-- The state is a later one. -/
  onward : s.Onward run.state

section

variable {α β : Type} {s t : State} {tokens later : List Located}

/-- Seen from earlier a run follows what it followed. -/
theorem Run.Follows.within {run : Run α t} {reading : Reading α later}
    (follows : run.Follows reading) (onward : s.Onward t) (fewer : t.left ≤ s.left)
    (shorter : later.length ≤ tokens.length) :
    (run.within fewer).Follows (reading.within shorter) :=
  ⟨follows.result, follows.rest, onward.trans follows.onward⟩

/-- What a run follows it follows seen from earlier tokens. -/
theorem Run.Follows.earlier {run : Run α s} {reading : Reading α later}
    (follows : run.Follows reading) (shorter : later.length ≤ tokens.length) :
    run.Follows (reading.within shorter) :=
  ⟨follows.result, follows.rest, follows.onward⟩

/-- Two runs in a row follow two readings in a row. -/
theorem Run.Follows.andThen {run : Run α s} {reading : Reading α tokens}
    {next : α → (t : State) → t.left ≤ s.left → Run β t}
    {further : α → (rest : List Located) → rest.length ≤ tokens.length → Reading β rest}
    (follows : run.Follows reading)
    (goesOn : ∀ a t fewer shorter, s.Onward t →
      (next a t fewer).Follows (further a t.remaining shorter)) :
    (run.andThen next).Follows (reading.andThen further) := by
  obtain ⟨result, t, fewer⟩ := run
  obtain ⟨expected, rest, shorter⟩ := reading
  obtain ⟨same, left, onward⟩ := follows
  obtain rfl : result = expected := same
  obtain rfl : t.remaining = rest := left
  cases result with
  | error e => exact ⟨rfl, rfl, onward⟩
  | ok a => exact (goesOn a t fewer shorter onward).within onward fewer shorter

/-- Accepting follows accepting. -/
theorem accept_follows (value : α) (front : s.remaining = tokens) :
    (State.accept value s).Follows (Parser.accept value tokens) :=
  ⟨rfl, front, .refl s⟩

/-- Refusing follows refusing. -/
theorem refuse_follows (expected : Expectation) (front : s.remaining = tokens) :
    (State.refuse expected s : Run α s).Follows (Parser.refuse s.finish expected tokens) :=
  ⟨by rw [State.refuse, Parser.refuse, State.current_eq, front], front, .refl s⟩

/-- Moving on behind the first token follows reading it. -/
theorem skip_follows (value : α) {first : Located} (front : s.remaining = first :: later)
    (shorter : later.length ≤ tokens.length) :
    (State.skip value s).Follows (⟨.ok value, later, shorter⟩ : Reading α tokens) :=
  ⟨rfl, by rw [State.skip, remaining_advance, front, List.tail_cons], onward_advance s⟩

/-- Taking the first token follows reading it. -/
theorem take_follows (value : α) {first : Located} (front : s.remaining = first :: later)
    (fewer : s.take.left ≤ s.left) (shorter : later.length ≤ tokens.length) :
    (⟨.ok value, s.take, fewer⟩ : Run α s).Follows
      (⟨.ok value, later, shorter⟩ : Reading α tokens) :=
  ⟨rfl, by rw [remaining_take, front, List.tail_cons], onward_take s⟩

end

variable {s : State} {tokens later : List Located}

/-! ## Names and steps -/

/-- Expecting a token follows expecting it, if it is not the end. -/
theorem expect_follows {token : Token} (inside : token ≠ .endOfInput) (expected : Expectation)
    (front : s.remaining = tokens) :
    (State.expect token expected s).Follows (Parser.expect s.finish token expected tokens) := by
  cases tokens with
  | nil =>
    have other : s.current.token ≠ token := by
      rw [current_of_none front]
      exact inside.symm
    rw [State.expect, if_neg other]
    exact refuse_follows expected front
  | cons first later =>
    rw [State.expect, Parser.expect, current_of_front front]
    split
    · exact skip_follows () front _
    · exact refuse_follows expected front

/-- Taking a name follows reading one. -/
theorem takeName_follows (front : s.remaining = tokens) :
    (takeName s).Follows (readName tokens) := by
  cases tokens with
  | nil =>
    simp only [takeName, current_of_none front]
    exact accept_follows none front
  | cons first later =>
    obtain ⟨token, p⟩ := first
    cases token with
    | identifier name | string name =>
      simp only [takeName, current_of_front front]
      exact take_follows _ front _ _
    | _ =>
      simp only [takeName, current_of_front front]
      exact accept_follows none front

/-- Taking the name of a field that comes follows reading it. -/
theorem takeField_follows {first : Located} {name : String}
    (front : s.remaining = first :: later)
    (named : first.token = .identifier name ∨ first.token = .string name)
    (shorter : later.length ≤ tokens.length) :
    (takeField s).Follows (⟨.ok (.field name), later, shorter⟩ : Reading Step tokens) := by
  have here : s.current.token = .identifier name ∨ s.current.token = .string name := by
    rwa [current_of_front front]
  have taken : takeField s = ⟨.ok (.field name), s.take, s.left_take ▸ Nat.sub_le _ _⟩ := by
    rcases here with here | here <;> simp only [takeField, takeName, here] <;> rfl
  rw [taken]
  exact take_follows _ front _ _

/-- Parsing the step behind a point follows reading it. -/
theorem parseDotted_follows (front : s.remaining = tokens) :
    (parseDotted s).Follows (readDotted s.finish tokens) := by
  cases tokens with
  | nil =>
    simp only [parseDotted, current_of_none front]
    exact refuse_follows .step front
  | cons first later =>
    obtain ⟨token, p⟩ := first
    cases token with
    | identifier name =>
      simp only [parseDotted, current_of_front front]
      exact takeField_follows front (.inl rfl) _
    | string name =>
      simp only [parseDotted, current_of_front front]
      exact takeField_follows front (.inr rfl) _
    | integer | star =>
      simp only [parseDotted, current_of_front front]
      exact skip_follows _ front _
    | _ =>
      simp only [parseDotted, current_of_front front]
      exact refuse_follows .step front

/-- Expecting the bracket behind a step follows expecting it. -/
theorem closeBracket_follows (step : Step) (front : s.remaining = tokens) :
    (closeBracket step s).Follows
      ((Parser.expect s.finish .rightBracket .rightBracket tokens).andThen fun _ rest _ =>
        Parser.accept step rest) := by
  have noEnd : Token.rightBracket ≠ .endOfInput := by simp
  have close := expect_follows noEnd .rightBracket front
  exact close.andThen fun _ _ _ _ _ => accept_follows step rfl

/-- A parser of expressions follows a reader, at some depth and in front of some end. -/
def Mirrors {bound : Nat} (parse : Below bound) (finish depth : Nat) (reader : Reader) : Prop :=
  ∀ s inside, s.finish = finish → s.depth = depth → (parse s inside).Follows (reader s.remaining)

variable {bound finish depth : Nat} {nested operand : Below bound} {reader : Reader}

/-- A step that is taken together with the bracket behind it follows reading both. -/
theorem closed_follows {run : Run Step s} {step : Step} {q : Nat} {rest : List Located}
    (follows : run.Follows (⟨.ok step, rest, Nat.le_refl _⟩ : Reading Step rest))
    (front : rest = ⟨.rightBracket, q⟩ :: later) (shorter : later.length ≤ tokens.length) :
    (run.andThen fun step t _ => closeBracket step t).Follows
      (⟨.ok step, later, shorter⟩ : Reading Step tokens) := by
  have close : (run.andThen fun step t _ => closeBracket step t).Follows
      ((⟨.ok step, rest, Nat.le_refl _⟩ : Reading Step rest).andThen fun step rest _ =>
        (Parser.expect s.finish .rightBracket .rightBracket rest).andThen fun _ rest _ =>
          Parser.accept step rest) :=
    follows.andThen fun step t _ _ onward => onward.finish ▸ closeBracket_follows step rfl
  subst front
  exact ⟨close.result, close.rest, close.onward⟩

/-- Brackets around anything but a lone `*` or name are parsed as a computed key. -/
theorem parseBracketed_eq_nested (inside : s.left < bound)
    (other : ∀ first second later, s.remaining = first :: second :: later →
      Grammar.standsAlone first.token = true → second.token ≠ .rightBracket) :
    parseBracketed nested s inside =
      (nested s inside).andThen fun key t _ => closeBracket (.key key) t := by
  have notLone (bracket : (s.peek 1).token = .rightBracket) :
      Grammar.standsAlone s.current.token ≠ true := by
    intro alone
    have some : (s.peek 1).token ≠ .endOfInput := by simp [bracket]
    obtain ⟨later, front⟩ := front_of_peek some
    exact other _ _ later front alone bracket
  unfold parseBracketed
  split
  · next star bracket => exact absurd (star ▸ rfl) (notLone bracket)
  · next name named bracket => exact absurd (named ▸ rfl) (notLone bracket)
  · rfl

/-- Parsing the step behind an opening bracket follows reading it. -/
theorem parseBracketed_follows (mirrors : Mirrors nested s.finish s.depth reader)
    (inside : s.left < bound) (front : s.remaining = tokens) :
    (parseBracketed nested s inside).Follows (readBracketed s.finish reader tokens) := by
  by_cases lone : ∃ first p later,
      tokens = first :: ⟨.rightBracket, p⟩ :: later ∧ Grammar.standsAlone first.token = true
  · obtain ⟨⟨token, p⟩, q, later, rfl, alone⟩ := lone
    have here := current_of_front front
    have behind : s.peek 1 = ⟨.rightBracket, q⟩ := by
      rw [peek_one, front]
      rfl
    cases token with
    | star =>
      simp only [parseBracketed, here, behind]
      exact closed_follows (skip_follows _ front _) rfl _
    | identifier name =>
      simp only [parseBracketed, here, behind]
      exact closed_follows (takeField_follows front (.inl rfl) _) rfl _
    | _ => cases alone
  · have other : ∀ first second later, tokens = first :: second :: later →
        Grammar.standsAlone first.token = true → second.token ≠ .rightBracket :=
      fun first second later same alone bracket =>
        lone ⟨first, second.position, later, by rw [same, ← bracket], alone⟩
    rw [parseBracketed_eq_nested inside (front ▸ other), readBracketed_eq_nested other]
    refine (front ▸ mirrors s inside rfl rfl).andThen fun key t _ _ onward => ?_
    exact onward.finish ▸ closeBracket_follows (.key key) rfl

/-- Parsing a step follows reading it, and no step is parsed where none is read. -/
theorem parseStep_follows (mirrors : Mirrors nested s.finish s.depth reader) (token : Token)
    (inside : token ≠ .endOfInput → s.left < bound) (front : s.remaining = tokens) :
    Option.Rel (fun run reading => run.Follows reading) (parseStep nested token s inside)
      (readStep s.finish reader token tokens) := by
  cases token with
  | dot => exact .some (parseDotted_follows front)
  | dotDot =>
    exact .some ((takeName_follows front).andThen fun name _ _ _ _ =>
      accept_follows (Step.descent name) rfl)
  | leftBracket => exact .some (parseBracketed_follows mirrors _ front)
  | _ => exact .none

/-- Where no step is parsed, the token in front introduces none. -/
theorem opensStep_of_parseStep {token : Token} {inside : token ≠ .endOfInput → s.left < bound}
    (closed : parseStep nested token s inside = none) : Grammar.opensStep token = false := by
  cases token <;> first | rfl | cases closed

/-! ## Paths -/

/-- Parsing all steps behind an object follows reading them. -/
theorem parseSteps_follows (mirrors : Mirrors nested finish depth reader) (object : Expr)
    (inside : s.left < bound + 1) (sameFinish : s.finish = finish) (sameDepth : s.depth = depth) :
    (parseSteps nested object s inside).Follows (readSteps finish reader object s.remaining) := by
  -- every step takes a token, so the induction is on how many are left
  induction left : s.left using Nat.strongRecOn generalizing s object with
  | ind count ih =>
    have moved := onward_advance s
    have here : Mirrors nested s.advance.finish s.advance.depth reader := by
      rwa [moved.finish, moved.depth, sameFinish, sameDepth]
    have step := parseStep_follows here s.current.token (left_advance_lt inside)
      (remaining_advance s)
    rw [moved.finish, sameFinish] at step
    rw [parseSteps]
    split
    · next closed =>
      have stops := opensStep_of_parseStep closed
      rw [current_eq] at stops
      rw [readSteps_eq_accept (stops_of_current stops)]
      exact accept_follows object rfl
    · next run opens =>
      have some := ne_endOfInput_of_parseStep opens
      have shorter : s.advance.left < s.left := left_advance_lt (Nat.lt_succ_self _) some
      rw [front_of_current some, readSteps]
      rw [opens] at step
      split
      · next closed =>
        rw [closed] at step
        cases step
      · next reading found =>
        rw [found] at step
        have follows : run.Follows reading := Option.rel_some_some.1 step
        refine (follows.andThen fun step t further _ onward => ?_).within moved _ _
        have along := moved.trans onward
        exact ih t.left (by omega) (step.apply s.current.position object) _
          (along.finish.trans sameFinish) (along.depth.trans sameDepth) rfl

/-- Parsing behind the first token of a path follows reading that token and what is left. -/
theorem parseStart_follows (mirrors : Mirrors nested s.finish s.depth reader) (first : Located)
    (inside : first.token ≠ .endOfInput → s.left < bound) :
    (parseStart nested first s inside).Follows
      (readPrimary s.finish reader (first :: s.remaining)) := by
  obtain ⟨token, p⟩ := first
  cases token with
  | dotDot =>
    refine Run.Follows.earlier ?_ (Nat.le_succ _)
    exact (takeName_follows rfl).andThen fun name _ _ _ _ => accept_follows _ rfl
  | leftParen =>
    refine Run.Follows.earlier ?_ (Nat.le_succ _)
    refine (mirrors s (inside (by simp)) rfl rfl).andThen fun inner t _ _ onward => ?_
    have noEnd : Token.rightParen ≠ .endOfInput := by simp
    have paren := expect_follows noEnd .rightParen (Eq.refl t.remaining)
    rw [onward.finish] at paren
    exact paren.andThen fun _ _ _ _ _ => accept_follows inner rfl
  | _ => exact ⟨rfl, rfl, .refl s⟩

/-- Parsing the start of a path follows reading it. -/
theorem parsePrimary_follows (mirrors : Mirrors nested s.finish s.depth reader)
    (inside : s.left < bound + 1) :
    (parsePrimary nested s inside).Follows (readPrimary s.finish reader s.remaining) := by
  have moved := onward_take s
  have here : Mirrors nested s.take.finish s.take.depth reader := by
    rwa [moved.finish, moved.depth]
  have start := parseStart_follows here s.current (left_take_lt inside)
  rw [moved.finish, remaining_take] at start
  have same : (readPrimary s.finish reader (s.current :: s.remaining.tail)).result =
        (readPrimary s.finish reader s.remaining).result ∧
      (readPrimary s.finish reader (s.current :: s.remaining.tail)).rest =
        (readPrimary s.finish reader s.remaining).rest := by
    cases front : s.remaining with
    | nil =>
      rw [current_of_none front]
      exact ⟨rfl, rfl⟩
    | cons first later =>
      rw [current_of_front front]
      exact ⟨rfl, rfl⟩
  exact ⟨start.result.trans same.1, start.rest.trans same.2, moved.trans start.onward⟩

/-- Parsing a path follows reading it. -/
theorem parsePath_mirrors (mirrors : Mirrors nested finish depth reader) :
    Mirrors (parsePath nested) finish depth (readPath finish reader) := by
  rintro s inside rfl rfl
  exact (parsePrimary_follows mirrors inside).andThen fun object t _ _ onward =>
    parseSteps_follows mirrors object _ onward.finish onward.depth

/-! ## Combinations and expressions -/

variable {op : BoolOp}

/-- Parsing further operands follows reading them. -/
theorem parseOperands_follows (mirrors : Mirrors operand finish depth reader) (left : Expr)
    (inside : s.left < bound) (sameFinish : s.finish = finish) (sameDepth : s.depth = depth) :
    (parseOperands op operand left s inside).Follows (readOperands op reader left s.remaining) := by
  -- every operator takes a token, so the induction is on how many are left
  induction count : s.left using Nat.strongRecOn generalizing s left with
  | ind count ih =>
    rw [parseOperands]
    split
    · next goesOn =>
      have some : s.current.token ≠ .endOfInput := goesOn ▸ operator_ne_endOfInput op
      have moved := onward_advance s
      have shorter : s.advance.left < s.left := left_advance_lt (Nat.lt_succ_self _) some
      have first := mirrors s.advance (by omega) (moved.finish.trans sameFinish)
        (moved.depth.trans sameDepth)
      rw [remaining_advance] at first
      rw [front_of_current some, readOperands, if_pos goesOn]
      refine (first.andThen fun right t further _ onward => ?_).within moved _ _
      have along := moved.trans onward
      exact ih t.left (by omega) (.boolean s.current.position op left right) _
        (along.finish.trans sameFinish) (along.depth.trans sameDepth) rfl
    · next other =>
      have noOperator : ((Parser.current s.finish s.remaining).token == operator op) = false := by
        simpa [← current_eq] using other
      have stops : Stops (· == operator op) s.remaining := stops_of_current noOperator
      rw [readOperands_eq_accept stops]
      exact accept_follows left rfl

/-- Parsing a combination follows reading it. -/
theorem parseCombination_mirrors (op : BoolOp) (mirrors : Mirrors operand finish depth reader) :
    Mirrors (parseCombination op operand) finish depth (readCombination op reader) := by
  intro s inside sameFinish sameDepth
  exact (mirrors s inside sameFinish sameDepth).andThen fun left t _ _ onward =>
    parseOperands_follows mirrors left _ (onward.finish.trans sameFinish)
      (onward.depth.trans sameDepth)

/-- A run inside of one expression more, with the depth lowered behind it, follows the same
reading. -/
theorem Run.Follows.lowered {run : Run Expr s.raise} {reading : Reading Expr tokens}
    (follows : run.Follows reading) : run.lowered.Follows reading where
  result := follows.result
  rest := follows.rest
  onward :=
    { finish := follows.onward.finish
      depth := congrArg (· - 1) follows.onward.depth
      length := follows.onward.length
      forward := follows.onward.forward
      untouched := follows.onward.untouched }

/-- Parsing an expression at some depth follows reading one with as many levels as are left. -/
theorem parseExpr_follows (levels : Nat) (s : State)
    (limit : s.depth + levels = Expr.nestingLimit) :
    (parseExpr s).Follows (readExpr s.finish levels s.remaining) := by
  induction levels generalizing s with
  | zero =>
    have reached : s.depth ≥ Expr.nestingLimit := Nat.le_of_eq limit.symm
    rw [parseExpr, if_pos reached]
    have stopped : (.error (.tooDeep s.current.position) : Except ParseError Expr) =
        .error (.tooDeep (Parser.current s.finish s.remaining).position) := by rw [current_eq]
    exact ⟨stopped, rfl, .refl s⟩
  | succ levels deeper =>
    have below : ¬ s.depth ≥ Expr.nestingLimit := by omega
    rw [parseExpr, if_neg below]
    have nested : Mirrors (fun t (_ : t.left < s.left) => parseExpr t) s.finish (s.depth + 1)
        (readExpr s.finish levels) := by
      intro t inside sameFinish sameDepth
      rw [← sameFinish]
      exact deeper t (by omega)
    have mirrors := parseCombination_mirrors .or
      (parseCombination_mirrors .and (parsePath_mirrors nested))
    exact (mirrors s.raise _ rfl rfl).lowered

/-! ## Progress -/

/-- Going on leaves no more than what was left before. -/
theorem Reading.length_rest_andThen {α β : Type} (reading : Reading α tokens)
    (next : α → (rest : List Located) → rest.length ≤ tokens.length → Reading β rest) :
    (reading.andThen next).rest.length ≤ reading.rest.length := by
  obtain ⟨result, rest, shrinks⟩ := reading
  cases result with
  | ok a => exact (next a rest shrinks).shrinks
  | error e => exact Nat.le_refl _

/-- The reader takes a token wherever there is one. -/
def Takes (reader : Reader) : Prop :=
  ∀ first later, (reader (first :: later)).rest.length ≤ later.length

/-- The reader of paths takes a token. -/
theorem readPath_takes (finish : Nat) (nested : Reader) : Takes (readPath finish nested) := by
  intro first later
  obtain ⟨reading, taken⟩ : ∃ reading : Reading Expr later,
      readPrimary finish nested (first :: later) = reading.within (Nat.le_succ _) := ⟨_, rfl⟩
  have start : (readPrimary finish nested (first :: later)).rest.length ≤ later.length := by
    rw [taken]
    exact reading.shrinks
  exact Nat.le_trans (Reading.length_rest_andThen _ _) start

/-- The reader of combinations takes a token if the reader of operands does. -/
theorem readCombination_takes {op : BoolOp} (takes : Takes reader) :
    Takes (readCombination op reader) := fun first later =>
  Nat.le_trans (Reading.length_rest_andThen _ _) (takes first later)

/-- The reader of expressions takes a token unless no level is left. -/
theorem readExpr_takes (finish : Nat) {levels : Nat} (some : 0 < levels) :
    Takes (readExpr finish levels) := by
  obtain ⟨fewer, rfl⟩ := Nat.exists_eq_add_one.2 some
  exact readCombination_takes (readCombination_takes (readPath_takes finish _))

namespace State

/-! ## Parsing again -/

/-- Parsing stops where its expression ends. -/
theorem parse_state (s : State) : s.parse.state = s.parseExpr.state := by
  unfold parse
  generalize s.parseExpr = run
  obtain ⟨result, t, shrinks⟩ := run
  cases result with
  | error e => rfl
  | ok e =>
    simp only [Run.andThen, Run.within]
    split <;> rfl

/-- Parsing gives an expression if it goes on to the end. -/
theorem parse_result (s : State) : s.parse.result = s.parseExpr.result.bind fun e =>
    if s.parseExpr.state.current.token = .endOfInput then .ok e
    else .error (.unexpected .endOfInput s.parseExpr.state.current) := by
  unfold parse
  generalize s.parseExpr = run
  obtain ⟨result, t, shrinks⟩ := run
  cases result with
  | error e => rfl
  | ok e =>
    simp only [Run.andThen, Run.within, Except.bind]
    split <;> rfl

/-- Parsing leads to a later state. -/
theorem onward_parse (idle : s.depth = 0) : s.Onward s.parse.state := by
  have limit : s.depth + Expr.nestingLimit = Expr.nestingLimit := by rw [idle, Nat.zero_add]
  rw [parse_state]
  exact (parseExpr_follows _ s limit).onward

/-- Parsing moves on, where tokens are left. -/
theorem cursor_lt_parse (idle : s.depth = 0) (some : s.cursor < s.slots.length) :
    s.cursor < s.parse.state.cursor := by
  have limit : s.depth + Expr.nestingLimit = Expr.nestingLimit := by rw [idle, Nat.zero_add]
  have follows := parseExpr_follows _ s limit
  have fewer : s.parse.state.remaining.length < s.remaining.length := by
    rw [parse_state, follows.rest]
    cases front : s.remaining with
    | nil =>
      have none := congrArg List.length front
      rw [length_remaining, left, List.length_nil] at none
      omega
    | cons first later => exact Nat.lt_succ_of_le (readExpr_takes s.finish (by decide) first later)
  have slots := (onward_parse idle).length
  rw [length_remaining, length_remaining, left, left] at fewer
  omega

/-- Parsers with the same tokens left answer alike, whatever is left in the slots before. -/
theorem parse_result_eq {s t : State} (finish : s.finish = t.finish) (idle : s.depth = 0)
    (idle' : t.depth = 0) (same : s.remaining = t.remaining) : s.parse.result = t.parse.result := by
  have one := parseExpr_follows Expr.nestingLimit s (by rw [idle, Nat.zero_add])
  have other := parseExpr_follows Expr.nestingLimit t (by rw [idle', Nat.zero_add])
  rw [← finish, ← same] at other
  have result : s.parseExpr.result = t.parseExpr.result := one.result.trans other.result.symm
  have current : s.parseExpr.state.current = t.parseExpr.state.current := by
    rw [current_eq, current_eq, one.rest, other.rest, one.onward.finish, other.onward.finish,
      finish]
  rw [parse_result, parse_result, result, current]

/-- What an idle parser makes of the tokens that are left is what the readers make of them. -/
theorem parse_idle {s : State} {tokens : List Located} (idle : s.depth = 0)
    (tokensLeft : s.remaining = tokens) (endless : Grammar.Endless tokens) :
    s.parse.result = (⟨tokens, s.finish⟩ : TokenStream).parse.1 ∧
      s.parse.state.remaining = (⟨tokens, s.finish⟩ : TokenStream).parse.2.tokens := by
  subst tokensLeft
  have follows := parseExpr_follows Expr.nestingLimit s (by rw [idle, Nat.zero_add])
  have left : ∀ found ∈ s.parseExpr.state.remaining, found.token ≠ .endOfInput := by
    rw [follows.onward.remaining_eq]
    exact fun found member => endless found (List.mem_of_mem_drop member)
  rw [parse_state, parse_result, current_eq, follows.onward.finish]
  rw [follows.rest] at left ⊢
  rw [follows.result]
  simp only [TokenStream.parse, readWhole]
  generalize readExpr s.finish Expr.nestingLimit s.remaining = reading at left
  obtain ⟨result, rest, shrinks⟩ := reading
  cases result with
  | error e => exact ⟨rfl, rfl⟩
  | ok e =>
    cases rest with
    | nil => exact ⟨rfl, rfl⟩
    | cons first later => exact ⟨if_neg (left first List.mem_cons_self), rfl⟩

/-- What a used parser keeps to, in front of the tokens that it was given. -/
structure Resumes (s : State) (given : TokenStream) : Prop where
  /-- It reads no expression. -/
  idle : s.depth = 0
  /-- The cursor is at one of the tokens or at the end. -/
  inside : s.cursor ≤ given.tokens.length
  /-- From the cursor on the tokens are those that were given. -/
  untouched : s.remaining = given.tokens.drop s.cursor
  /-- The next answer is that of a new parser of the tokens from the cursor on. -/
  fresh : s.parse.result =
    (ofTokens ⟨given.tokens.drop s.cursor, given.finish⟩).parse.result
  /-- Where none of the tokens stands for the end, that is the answer of the readers on the tokens
  from the cursor on, and what they leave is left. -/
  read : Grammar.Endless given.tokens →
    s.parse.result = (⟨given.tokens.drop s.cursor, given.finish⟩ : TokenStream).parse.1 ∧
      s.parse.state.remaining =
        (⟨given.tokens.drop s.cursor, given.finish⟩ : TokenStream).parse.2.tokens
  /-- The cursor does not go back. -/
  forward : s.cursor ≤ s.parse.state.cursor
  /-- Before the end it moves on. -/
  progress : s.cursor < given.tokens.length → s.cursor < s.parse.state.cursor

/-- However often it was asked before, a parser reads no expression and stands before the tokens
that are left of those it was given. -/
theorem onward_after (idle : s.depth = 0) (count : Nat) : s.Onward (s.after count) := by
  induction count generalizing s with
  | zero => exact .refl s
  | succ count ih =>
    have once := onward_parse idle
    exact once.trans (ih (once.depth.trans idle))

/-- However often it was asked before, and whatever it answered, a parser resumes. -/
theorem resumes_after (given : TokenStream) (count : Nat) :
    ((ofTokens given).after count).Resumes given := by
  have along := onward_after (rfl : (ofTokens given).depth = 0) count
  generalize (ofTokens given).after count = s at along
  have idle : s.depth = 0 := along.depth
  exact {
    idle
    inside := along.length ▸ s.inside
    untouched := along.untouched
    fresh := parse_result_eq along.finish idle rfl along.untouched
    read := fun endless => by
      have answer := parse_idle idle along.untouched
        fun found member => endless found (List.mem_of_mem_drop member)
      rwa [along.finish] at answer
    forward := (onward_parse idle).forward
    progress := fun some => cursor_lt_parse idle (along.length.symm ▸ some) }

end State

end PathQuery.Parser
