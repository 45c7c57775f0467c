import PathQuery.Proofs.Moving
/-!
# Reading is deriving

The reader of expressions accepts what the grammar derives and builds the derived expression. A
reader is sound for a phrase of the grammar when it takes tokens of that phrase, and complete when
it takes all of them wherever the next token does not go on with the phrase. Both laws pass from
the reader of nested expressions to the reader of paths, and from operands to combinations, so
that they hold at every level of nesting.
-/
namespace PathQuery.Parser

open Grammar

/-- Whatever the reader reads is the expression of a phrase. -/
def Sound (reader : Reader) (Phrase : List Located → Expr → Prop) : Prop :=
  ∀ tokens e rest, (reader tokens).Reads e rest → ∃ s, tokens = s ++ rest ∧ Phrase s e

/-- Every phrase is read as its expression, in front of tokens that do not go on with it. -/
def Complete (reader : Reader) (Phrase : List Located → Expr → Prop)
    (continues : Token → Bool) : Prop :=
  ∀ s e rest, Phrase s e → Stops continues rest → (reader (s ++ rest)).Reads e rest

/-- What may go on with an expression is neither closing sign. -/
structure Closable (continues : Token → Bool) : Prop where
  /-- A closing parenthesis stops it. -/
  paren : continues .rightParen = false
  /-- A closing bracket stops it. -/
  bracket : continues .rightBracket = false

variable {finish : Nat} {nested operand : Reader} {Nested Operand : List Located → Expr → Prop}
  {continues : Token → Bool} {tokens rest : List Located}

/-! ## Steps -/

/-- The step behind a point is a name, an index or `*`. -/
theorem stepAt_of_reads_dotted {p : Nat} {step : Step}
    (read : (readDotted finish tokens).Reads step rest) :
    ∃ s, tokens = s ++ rest ∧ StepAt Nested p (⟨.dot, p⟩ :: s) step := by
  unfold readDotted at read
  split at read
  · next name q later =>
    obtain ⟨same, rfl⟩ := read
    obtain rfl := Except.ok.inj same
    exact ⟨_, rfl, .field p (.plain name q)⟩
  · next name q later =>
    obtain ⟨same, rfl⟩ := read
    obtain rfl := Except.ok.inj same
    exact ⟨_, rfl, .field p (.quoted name q)⟩
  · next n q later =>
    obtain ⟨same, rfl⟩ := read
    obtain rfl := Except.ok.inj same
    exact ⟨_, rfl, .index n p q⟩
  · next q later =>
    obtain ⟨same, rfl⟩ := read
    obtain rfl := Except.ok.inj same
    exact ⟨_, rfl, .wildcard p q⟩
  · exact absurd read not_reads_refuse

/-- The step in brackets is `*`, a plain name, or another expression. -/
theorem stepAt_of_reads_bracketed (sound : Sound nested Nested) {p : Nat} {step : Step}
    (read : (readBracketed finish nested tokens).Reads step rest) :
    ∃ s, tokens = s ++ rest ∧ StepAt Nested p (⟨.leftBracket, p⟩ :: s) step := by
  unfold readBracketed at read
  split at read
  · next q r later =>
    obtain ⟨same, rfl⟩ := read
    obtain rfl := Except.ok.inj same
    exact ⟨_, rfl, .starInBrackets p q r⟩
  · next name q r later =>
    obtain ⟨same, rfl⟩ := read
    obtain rfl := Except.ok.inj same
    exact ⟨_, rfl, .nameInBrackets name p q r⟩
  · next noStar noName =>
    obtain ⟨key, _, _, inner, closed⟩ := Reading.reads_andThen.1 read
    obtain ⟨_, _, _, close, accepted⟩ := Reading.reads_andThen.1 closed
    obtain ⟨rfl, rfl⟩ := reads_accept.1 accepted
    obtain ⟨r, rfl⟩ := reads_expect.1 close
    obtain ⟨s, rfl, derived⟩ := sound _ _ _ inner
    refine ⟨s ++ [⟨.rightBracket, r⟩], by simp, .key p r derived ?_⟩
    -- a lone `*` or name would have been taken by the first two cases
    rintro ⟨⟨token, q⟩, rfl, alone⟩
    cases token with
    | star => exact noStar q r _ rfl
    | identifier name => exact noName name q r _ rfl
    | _ => cases alone

/-- A step that is read is one of the grammar. -/
theorem stepAt_of_reads (sound : Sound nested Nested) {token : Token} {p : Nat} {step : Step}
    {reading : Reading Step tokens} (opens : readStep finish nested token tokens = some reading)
    (read : reading.Reads step rest) :
    ∃ s, tokens = s ++ rest ∧ StepAt Nested p (⟨token, p⟩ :: s) step := by
  unfold readStep at opens
  split at opens
  · obtain rfl := Option.some.inj opens
    exact stepAt_of_reads_dotted read
  · obtain rfl := Option.some.inj opens
    obtain ⟨name, _, _, named, accepted⟩ := Reading.reads_andThen.1 read
    obtain ⟨rfl, rfl⟩ := reads_accept.1 accepted
    obtain ⟨s, rfl, found⟩ := nameOrNothing_of_reads named
    exact ⟨s, rfl, .descent p found⟩
  · obtain rfl := Option.some.inj opens
    exact stepAt_of_reads_bracketed sound read
  · cases opens

/-- Every step of the grammar is read, in front of tokens that are no name. -/
theorem reads_step (complete : Complete nested Nested continues) (closable : Closable continues)
    (guarded : ∀ s e, Nested s e → Guarded s) {p : Nat} {s : List Located} {step : Step}
    (found : StepAt Nested p s step) (stops : Stops isName rest) :
    ∃ token later reading, s = ⟨token, p⟩ :: later ∧
      readStep finish nested token (later ++ rest) = some reading ∧ reading.Reads step rest := by
  cases found with
  | field p found => cases found <;> exact ⟨_, _, _, rfl, rfl, rfl, rfl⟩
  | index n p q => exact ⟨_, _, _, rfl, rfl, rfl, rfl⟩
  | wildcard p q => exact ⟨_, _, _, rfl, rfl, rfl, rfl⟩
  | descent p found =>
    exact ⟨_, _, _, rfl, rfl,
      (reads_name found stops).andThen fun _ => reads_accept.2 ⟨rfl, rfl⟩⟩
  | starInBrackets p q r => exact ⟨_, _, _, rfl, rfl, rfl, rfl⟩
  | nameInBrackets name p q r => exact ⟨_, _, _, rfl, rfl, rfl, rfl⟩
  | @key s key p r inner other =>
    refine ⟨_, _, _, rfl, rfl, ?_⟩
    rw [List.append_assoc, List.singleton_append, readBracketed_eq_nested fun _ _ _ same alone =>
      (guarded _ _ inner).not_closed other same alone]
    have read : (nested (s ++ ⟨.rightBracket, r⟩ :: rest)).Reads key (⟨.rightBracket, r⟩ :: rest) :=
      complete _ _ _ inner (stops_cons.2 closable.bracket)
    refine read.andThen fun _ => ?_
    have close : (expect finish .rightBracket .rightBracket (⟨.rightBracket, r⟩ :: rest)).Reads ()
      rest := reads_expect.2 ⟨r, rfl⟩
    exact close.andThen fun _ => reads_accept.2 ⟨rfl, rfl⟩

/-! ## Paths -/

/-- Where no step opens, the object is the whole path. -/
theorem reads_steps_of_none {token : Token} {p : Nat} {object e : Expr}
    (none : readStep finish nested token tokens = none) :
    (readSteps finish nested object (⟨token, p⟩ :: tokens)).Reads e rest ↔
      object = e ∧ ⟨token, p⟩ :: tokens = rest := by
  rw [readSteps]
  simp only [none]
  exact reads_accept

/-- Where a step opens, it is read and applied, and further steps are read behind it. -/
theorem reads_steps_of_some {token : Token} {p : Nat} {object e : Expr}
    {reading : Reading Step tokens} (opens : readStep finish nested token tokens = some reading) :
    (readSteps finish nested object (⟨token, p⟩ :: tokens)).Reads e rest ↔
      ∃ step mid, reading.Reads step mid ∧
        (readSteps finish nested (step.apply p object) mid).Reads e rest := by
  rw [readSteps]
  simp only [opens, Reading.reads_within, Reading.reads_andThen]
  constructor
  · rintro ⟨step, mid, _, first, later⟩
    exact ⟨step, mid, first, later⟩
  · rintro ⟨step, mid, first, later⟩
    exact ⟨step, mid, first.2 ▸ reading.shrinks, first, later⟩

/-- Steps that are read behind a path make it a longer path. -/
theorem path_of_reads_steps (sound : Sound nested Nested) {object e : Expr}
    {front : List Located} (path : Path Nested front object)
    (read : (readSteps finish nested object tokens).Reads e rest) :
    ∃ s, tokens = s ++ rest ∧ Path Nested (front ++ s) e := by
  -- every step takes a token, so the induction is on how many there are
  induction bound : tokens.length using Nat.strongRecOn generalizing tokens front object with
  | ind length ih =>
    match tokens, bound with
    | [], _ =>
      rw [readSteps] at read
      obtain ⟨rfl, rfl⟩ := reads_accept.1 read
      exact ⟨[], rfl, by simpa using path⟩
    | ⟨token, p⟩ :: later, bound =>
      cases opens : readStep finish nested token later with
      | none =>
        obtain ⟨rfl, rfl⟩ := (reads_steps_of_none opens).1 read
        exact ⟨[], rfl, by simpa using path⟩
      | some reading =>
        obtain ⟨step, mid, first, further⟩ := (reads_steps_of_some opens).1 read
        obtain ⟨s, rfl, found⟩ := stepAt_of_reads (p := p) sound opens first
        have shorter : mid.length < length := by
          simp only [List.length_cons, List.length_append] at bound
          omega
        obtain ⟨t, rfl, longer⟩ := ih mid.length shorter (path.step p found) further rfl
        refine ⟨⟨token, p⟩ :: (s ++ t), by simp, ?_⟩
        simpa using longer

/-- What starts a path is read as the start of a path. -/
theorem primary_of_reads (sound : Sound nested Nested) :
    Sound (readPrimary finish nested) (Primary Nested) := by
  intro tokens e rest read
  cases tokens with
  | nil => exact absurd read not_reads_refuse
  | cons first later =>
    obtain ⟨token, p⟩ := first
    unfold readPrimary at read
    rw [Reading.reads_within] at read
    cases token with
    | integer | float | string | boolean | null =>
      obtain ⟨rfl, rfl⟩ := reads_accept.1 read
      exact ⟨_, rfl, .literal p rfl⟩
    | dollar =>
      obtain ⟨rfl, rfl⟩ := reads_accept.1 read
      exact ⟨_, rfl, .root p⟩
    | identifier name =>
      obtain ⟨rfl, rfl⟩ := reads_accept.1 read
      exact ⟨_, rfl, .name name p⟩
    | star =>
      obtain ⟨rfl, rfl⟩ := reads_accept.1 read
      exact ⟨_, rfl, .star p⟩
    | dotDot =>
      obtain ⟨name, _, _, named, accepted⟩ := Reading.reads_andThen.1 read
      obtain ⟨rfl, rfl⟩ := reads_accept.1 accepted
      obtain ⟨s, rfl, found⟩ := nameOrNothing_of_reads named
      exact ⟨_, rfl, .descent p found⟩
    | leftParen =>
      obtain ⟨inner, _, _, read, closed⟩ := Reading.reads_andThen.1 read
      obtain ⟨_, _, _, close, accepted⟩ := Reading.reads_andThen.1 closed
      obtain ⟨rfl, rfl⟩ := reads_accept.1 accepted
      obtain ⟨q, rfl⟩ := reads_expect.1 close
      obtain ⟨s, rfl, derived⟩ := sound _ _ _ read
      exact ⟨⟨.leftParen, p⟩ :: (s ++ [⟨.rightParen, q⟩]), by simp, .group p q derived⟩
    | dot | andAnd | orOr | leftBracket | rightBracket | rightParen | endOfInput => cases read.1

/-- The reader of paths is sound. -/
theorem readPath_sound (sound : Sound nested Nested) :
    Sound (readPath finish nested) (Path Nested) := by
  intro tokens e rest read
  obtain ⟨object, mid, _, start, further⟩ := Reading.reads_andThen.1 read
  obtain ⟨s, rfl, found⟩ := primary_of_reads sound _ _ _ start
  obtain ⟨t, rfl, path⟩ := path_of_reads_steps sound (.primary found) further
  exact ⟨s ++ t, by simp, path⟩

/-- The start of a path is read as it, in front of tokens that are no name. -/
theorem reads_primary (complete : Complete nested Nested continues)
    (closable : Closable continues) :
    Complete (readPrimary finish nested) (Primary Nested) isName := by
  intro s e rest start stops
  cases start with
  | root p => exact ⟨rfl, rfl⟩
  | name name p => exact ⟨rfl, rfl⟩
  | star p => exact ⟨rfl, rfl⟩
  | @literal token value p found => cases token <;> cases found <;> exact ⟨rfl, rfl⟩
  | descent p found =>
    exact (reads_name found stops).andThen fun _ => reads_accept.2 ⟨rfl, rfl⟩
  | @group s e p q inner =>
    have read : (nested (s ++ ⟨.rightParen, q⟩ :: rest)).Reads e (⟨.rightParen, q⟩ :: rest) :=
      complete _ _ _ inner (stops_cons.2 closable.paren)
    have close : (expect finish .rightParen .rightParen (⟨.rightParen, q⟩ :: rest)).Reads ()
      rest := reads_expect.2 ⟨q, rfl⟩
    rw [List.cons_append, List.append_assoc, List.singleton_append]
    exact read.andThen fun _ => close.andThen fun _ => reads_accept.2 ⟨rfl, rfl⟩

/-- What further steps read behind a path is what the reader of paths reads from its start. -/
theorem reads_path_of_reads_steps (complete : Complete nested Nested continues)
    (closable : Closable continues) (guarded : ∀ s e, Nested s e → Guarded s)
    {s : List Located} {object : Expr} (path : Path Nested s object) :
    ∀ {tokens e rest}, Stops isName tokens →
      (readSteps finish nested object tokens).Reads e rest →
      (readPath finish nested (s ++ tokens)).Reads e rest := by
  induction path with
  | primary start =>
    intro tokens e rest stops further
    exact (reads_primary complete closable _ _ _ start stops).andThen fun _ => further
  | step p _ last before =>
    intro tokens e rest stops further
    obtain ⟨token, later, reading, rfl, opens, read⟩ :=
      reads_step complete closable guarded last stops
    have noName : Stops isName (⟨token, p⟩ :: (later ++ tokens)) := by
      obtain ⟨_, _, same, introduces⟩ := last.begins
      obtain ⟨rfl, -⟩ := Located.mk.inj (List.cons.inj same).1
      exact stops_cons.2 (isName_of_opensStep introduces)
    rw [List.append_assoc]
    exact before noName ((reads_steps_of_some opens).2 ⟨_, tokens, read, further⟩)

/-- The reader of paths is complete. -/
theorem readPath_complete (complete : Complete nested Nested continues)
    (closable : Closable continues) (guarded : ∀ s e, Nested s e → Guarded s) :
    Complete (readPath finish nested) (Path Nested) continuesPath := by
  intro s e rest path stops
  refine reads_path_of_reads_steps complete closable guarded path stops.name ?_
  cases rest with
  | nil =>
    rw [readSteps]
    exact reads_accept.2 ⟨rfl, rfl⟩
  | cons first later =>
    have closed : readStep finish nested first.token later = none := by
      have introduces := stops_cons.1 stops.step
      unfold readStep
      split <;> first | rfl | simp_all [opensStep]
    exact (reads_steps_of_none closed).2 ⟨rfl, rfl⟩

/-! ## Combinations -/

/-- Whether a token goes on with a combination of operands. -/
def continuesCombination (op : BoolOp) (continues : Token → Bool) (token : Token) : Bool :=
  token == operator op || continues token

variable {op : BoolOp}

/-- Where the operator does not come, the left operand is the whole combination. -/
theorem readOperands_eq_accept {left : Expr} (stops : Stops (· == operator op) tokens) :
    readOperands op operand left tokens = accept left tokens := by
  cases tokens with
  | nil => rw [readOperands]
  | cons first later =>
    have other : first.token ≠ operator op := by simpa using stops_cons.1 stops
    rw [readOperands, if_neg other]

/-- Where the operator comes, an operand is read behind it, and further operands behind that. -/
theorem reads_operands_of_operator {left e : Expr} {p : Nat} :
    (readOperands op operand left (⟨operator op, p⟩ :: tokens)).Reads e rest ↔
      ∃ right mid, (operand tokens).Reads right mid ∧
        (readOperands op operand (.boolean p op left right) mid).Reads e rest := by
  rw [readOperands, if_pos rfl, Reading.reads_within, Reading.reads_andThen]
  constructor
  · rintro ⟨right, mid, _, first, later⟩
    exact ⟨right, mid, first, later⟩
  · rintro ⟨right, mid, first, later⟩
    exact ⟨right, mid, first.2 ▸ (operand tokens).shrinks, first, later⟩

/-- Operands that are read behind a combination make it a longer one. -/
theorem combination_of_reads_operands (sound : Sound operand Operand) {left e : Expr}
    {front : List Located} (before : Combination op Operand front left)
    (read : (readOperands op operand left tokens).Reads e rest) :
    ∃ s, tokens = s ++ rest ∧ Combination op Operand (front ++ s) e := by
  -- every operator takes a token, so the induction is on how many there are
  induction bound : tokens.length using Nat.strongRecOn generalizing tokens front left with
  | ind length ih =>
    match tokens, bound with
    | [], _ =>
      rw [readOperands_eq_accept (stops_nil _)] at read
      obtain ⟨rfl, rfl⟩ := reads_accept.1 read
      exact ⟨[], rfl, by simpa using before⟩
    | ⟨token, p⟩ :: later, bound =>
      by_cases goesOn : token = operator op
      · subst goesOn
        obtain ⟨right, mid, last, further⟩ := reads_operands_of_operator.1 read
        obtain ⟨s, rfl, found⟩ := sound _ _ _ last
        have shorter : mid.length < length := by
          simp only [List.length_cons, List.length_append] at bound
          omega
        obtain ⟨t, rfl, longer⟩ := ih mid.length shorter (before.combine p found) further rfl
        refine ⟨⟨operator op, p⟩ :: (s ++ t), by simp, ?_⟩
        simpa using longer
      · rw [readOperands_eq_accept (stops_cons.2 (by simpa using goesOn))] at read
        obtain ⟨rfl, rfl⟩ := reads_accept.1 read
        exact ⟨[], rfl, by simpa using before⟩

/-- The reader of combinations is sound. -/
theorem readCombination_sound (sound : Sound operand Operand) :
    Sound (readCombination op operand) (Combination op Operand) := by
  intro tokens e rest read
  obtain ⟨left, mid, _, first, further⟩ := Reading.reads_andThen.1 read
  obtain ⟨s, rfl, found⟩ := sound _ _ _ first
  obtain ⟨t, rfl, combination⟩ := combination_of_reads_operands sound (.operand found) further
  exact ⟨s ++ t, by simp, combination⟩

/-- What further operands read behind a combination is what the reader of combinations reads from
its start. -/
theorem reads_combination_of_reads_operands (complete : Complete operand Operand continues)
    (apart : continues (operator op) = false) {s : List Located} {left : Expr}
    (combination : Combination op Operand s left) :
    ∀ {tokens e rest}, Stops continues tokens →
      (readOperands op operand left tokens).Reads e rest →
      (readCombination op operand (s ++ tokens)).Reads e rest := by
  induction combination with
  | operand only =>
    intro tokens e rest stops further
    exact (complete _ _ _ only stops).andThen fun _ => further
  | combine p _ last before =>
    intro tokens e rest stops further
    rw [List.append_assoc]
    exact before (stops_cons.2 apart)
      (reads_operands_of_operator.2 ⟨_, tokens, complete _ _ _ last stops, further⟩)

/-- The reader of combinations is complete. -/
theorem readCombination_complete (complete : Complete operand Operand continues)
    (apart : continues (operator op) = false) :
    Complete (readCombination op operand) (Combination op Operand)
      (continuesCombination op continues) := by
  intro s e rest combination stops
  have noOperator : Stops (· == operator op) rest :=
    fun first found => (Bool.or_eq_false_iff.1 (stops first found)).1
  have noOperand : Stops continues rest :=
    fun first found => (Bool.or_eq_false_iff.1 (stops first found)).2
  refine reads_combination_of_reads_operands complete apart combination noOperand ?_
  rw [readOperands_eq_accept noOperator]
  exact reads_accept.2 ⟨rfl, rfl⟩

/-! ## Expressions -/

/-- Whether a token goes on with an expression. -/
def continuesExpr : Token → Bool :=
  continuesCombination .or (continuesCombination .and continuesPath)

/-- The closing signs do not go on with an expression. -/
theorem continuesExpr_closable : Closable continuesExpr := ⟨rfl, rfl⟩

/-- The reader of expressions is sound at every level of nesting. -/
theorem readExpr_sound (finish levels : Nat) : Sound (readExpr finish levels) (Derives levels) := by
  induction levels with
  | zero =>
    intro tokens e rest read
    cases read.1
  | succ levels deeper =>
    exact readCombination_sound (readCombination_sound (readPath_sound deeper))

/-- The reader of expressions is complete at every level of nesting. -/
theorem readExpr_complete (finish levels : Nat) :
    Complete (readExpr finish levels) (Derives levels) continuesExpr := by
  induction levels with
  | zero => exact fun _ _ _ derived => derived.elim
  | succ levels deeper =>
    exact readCombination_complete (readCombination_complete (readPath_complete deeper
      continuesExpr_closable fun _ _ => Derives.guarded) rfl) rfl

/-- Tokens are read as a whole expression exactly when they derive it. -/
theorem readWhole_ok_iff (finish : Nat) {levels : Nat} {e : Expr} :
    (readWhole finish levels tokens).result = .ok e ↔ Derives levels tokens e := by
  constructor
  · intro accepted
    obtain ⟨whole, mid, _, read, ends⟩ := Reading.reads_andThen.1 ⟨accepted, rfl⟩
    obtain ⟨s, rfl, derived⟩ := readExpr_sound finish levels _ _ _ read
    cases mid with
    | nil =>
      obtain ⟨rfl, -⟩ := reads_accept.1 ends
      simpa using derived
    | cons first later => exact absurd ends not_reads_refuse
  · intro derived
    have read := readExpr_complete finish levels _ _ _ derived (stops_nil _)
    rw [List.append_nil] at read
    exact (read.andThen fun _ => reads_accept.2 ⟨rfl, rfl⟩).1

end PathQuery.Parser

namespace PathQuery

open Grammar

/-- What tokens derive is place-free. -/
theorem Grammar.Derives.placeFree (levels : Nat) : PlaceFree (Derives levels) := by
  intro s t e derived same
  -- moved to one place the tokens are the same ones, and so is what is read from them
  have alike : t.map (·.moved fun _ => 0) = s.map (·.moved fun _ => 0) := by
    have atOnePlace (u : List Located) : u.map (·.moved fun _ => 0) =
        (u.map Located.token).map (Located.mk · 0) := by
      rw [List.map_map]
      rfl
    rw [atOnePlace, atOnePlace, same]
  have one := (Parser.readWhole_moves (fun _ => 0) 0 levels s).result
  have other := (Parser.readWhole_moves (fun _ => 0) 0 levels t).result
  rw [(Parser.readWhole_ok_iff 0).2 derived] at one
  rw [alike, one] at other
  cases read : (Parser.readWhole 0 levels t).result with
  | error e => cases read ▸ other
  | ok f =>
    have moved : e.moved (fun _ => 0) = f.moved fun _ => 0 := Except.ok.inj (read ▸ other)
    refine ⟨f, (Parser.readWhole_ok_iff 0).1 read, ?_⟩
    rw [← f.unplaced_moved, ← moved, e.unplaced_moved]

/-- Tokens derive one expression, up to its places, however deep expressions may be nested. -/
theorem Grammar.Derives.unplaced_unique {m n : Nat} {s t : List Located} {e f : Expr}
    (first : Derives m s e) (second : Derives n t f)
    (same : t.map Located.token = s.map Located.token) : f.unplaced = e.unplaced := by
  obtain ⟨moved, derived, equal⟩ := Derives.placeFree m first same
  have one := (Parser.readWhole_ok_iff 0).2 (derived.mono (Nat.le_max_left m n))
  have other := (Parser.readWhole_ok_iff 0).2 (second.mono (Nat.le_max_right m n))
  obtain rfl := Except.ok.inj (one.symm.trans other)
  exact equal

/-- Parsing gives an expression exactly when the tokens derive it within the nesting limit, and
tokens derive no second expression that differs in more than its places. -/
theorem TokenStream.parse_ok_iff_derives (s : TokenStream) :
    (∀ e, s.parse.1 = .ok e ↔ Derives Expr.nestingLimit s.tokens e) ∧
    ∀ m n t e f, Derives m s.tokens e → Derives n t f →
      t.map Located.token = s.tokens.map Located.token → f.unplaced = e.unplaced :=
  ⟨fun _ => Parser.readWhole_ok_iff s.finish, fun _ _ _ _ _ first second same =>
    first.unplaced_unique second same⟩

/-- A star in brackets is the children of what stands before, and no computed key. -/
theorem TokenStream.parse_ok_of_star_in_brackets :
    (TokenStream.mk [⟨.dollar, 0⟩, ⟨.leftBracket, 1⟩, ⟨.star, 2⟩, ⟨.rightBracket, 3⟩] 4).parse.1 =
      .ok (.wildcard 1 (.root 0)) ∧
    ∀ n f, Derives n [⟨.dollar, 0⟩, ⟨.leftBracket, 1⟩, ⟨.star, 2⟩, ⟨.rightBracket, 3⟩] f →
      f.unplaced = .wildcard 0 (.root 0) := by
  let s : TokenStream := ⟨[⟨.dollar, 0⟩, ⟨.leftBracket, 1⟩, ⟨.star, 2⟩, ⟨.rightBracket, 3⟩], 4⟩
  have single : Derives 1 s.tokens (.wildcard 1 (.root 0)) :=
    .operand (.operand (.step 1 (.primary (.root 0)) (.starInBrackets 1 2 3)))
  have derived : Derives Expr.nestingLimit s.tokens (.wildcard 1 (.root 0)) :=
    single.mono (by decide)
  obtain ⟨accepts, unique⟩ := s.parse_ok_iff_derives
  refine ⟨(accepts _).2 derived, fun n f other => ?_⟩
  exact unique Expr.nestingLimit n _ _ f derived other rfl

end PathQuery
