import PathQuery.Proofs.Acceptance
/-!
# Prompt readers

What a reader makes of some tokens is decided by the token where it stops: what it took it takes
wherever it sees that token next, and a token that it refuses it refuses whatever follows. It does
not read on into a dead end either, for the tokens it took before it refuses one can still go on to
a phrase. Readers in a row keep this law, and so does every reader of the grammar. Only behind an
opening bracket are two tokens looked at: a lone `*` or name is taken there with the bracket that
closes it, and as an expression its first token would not have been refused.
-/
namespace PathQuery.Parser

open Grammar

variable {α β : Type} {finish : Nat} {tokens later : List Located}

namespace Reading

/-- The reading stopped at a token where another one had to come. -/
def Refuses (r : Reading α tokens) (expected : Expectation) (found : Located) : Prop :=
  r.result = .error (.unexpected expected found)

variable {expected : Expectation} {found : Located}

/-- A reading reads one value and leaves one rest. -/
theorem Reads.unique {r : Reading α tokens} {first second : α} {rest rest' : List Located}
    (read : r.Reads first rest) (again : r.Reads second rest') : first = second ∧ rest = rest' :=
  ⟨Except.ok.inj (read.1.symm.trans again.1), read.2.symm.trans again.2⟩

/-- What is read is not refused. -/
theorem Reads.not_refuses {r : Reading α tokens} {value : α} {rest : List Located}
    (read : r.Reads value rest) : ¬ r.Refuses expected found := by
  intro refused
  cases read.1.symm.trans refused

/-- Of two readings in a row the first is refused, or the second behind what the first took. -/
theorem refuses_andThen {r : Reading α tokens}
    {next : α → (rest : List Located) → rest.length ≤ tokens.length → Reading β rest} :
    (r.andThen next).Refuses expected found ↔
      r.Refuses expected found ∨ ∃ first mid, ∃ shorter : mid.length ≤ tokens.length,
        r.Reads first mid ∧ (next first mid shorter).Refuses expected found := by
  obtain ⟨result, left, shrinks⟩ := r
  cases result with
  | error e => simp [andThen, Refuses, Reads]
  | ok first =>
    constructor
    · intro refused
      exact .inr ⟨first, left, shrinks, ⟨rfl, rfl⟩, refused⟩
    · rintro (refused | ⟨_, _, _, ⟨same, rfl⟩, refused⟩)
      · cases refused
      · obtain rfl := Except.ok.inj same
        exact refused

end Reading

/-! ## Prompt readers -/

/-- A reader, for each offset of the end of the text. -/
abbrev ReaderAt (α : Type) := Nat → (tokens : List Located) → Reading α tokens

/-- The tokens can go on to a phrase. -/
def Viable (Phrase : List Located → α → Prop) (s : List Located) : Prop :=
  ∃ later value, Phrase (s ++ later) value

/-- What a reader makes of some tokens is decided by the token where it stops. -/
structure PromptAt (read : ReaderAt α) (GoesOn : List Located → Prop) (finish : Nat)
    (tokens : List Located) : Prop where
  /-- What is taken is taken wherever the same token comes next. -/
  takes : ∀ value rest, (read finish tokens).Reads value rest → ∃ s, tokens = s ++ rest ∧
    ∀ finish' rest', current finish' rest' = current finish rest →
      (read finish' (s ++ rest')).Reads value rest'
  /-- The tokens before a refused one can go on, and that one is refused whatever follows it. -/
  refuses : ∀ expected found, (read finish tokens).Refuses expected found →
    ∃ s rest, tokens = s ++ rest ∧ current finish rest = found ∧ GoesOn s ∧
      ∀ finish' rest', current finish' rest' = found →
        (read finish' (s ++ rest')).Refuses expected found

/-- A reader is prompt if it is so on all tokens. -/
def Prompt (read : ReaderAt α) (GoesOn : List Located → Prop) : Prop :=
  ∀ finish tokens, PromptAt read GoesOn finish tokens

/-- Behind the same tokens the same token comes next if it did without them. -/
theorem current_append {finish' : Nat} {rest rest' : List Located}
    (same : current finish' rest' = current finish rest) (s : List Located) :
    current finish' (s ++ rest') = current finish (s ++ rest) := by
  cases s with
  | nil => exact same
  | cons first later => rfl

/-- Tokens that show a token other than the end start with it. -/
theorem eq_cons_of_current {first : Located} (inside : first.token ≠ .endOfInput)
    (same : current finish tokens = first) : ∃ later, tokens = first :: later := by
  cases tokens with
  | nil => exact absurd (same ▸ rfl) inside
  | cons other later => exact ⟨later, congrArg (· :: later) same⟩

/-- The current token decides whether tokens stop. -/
theorem stops_of_current {continues : Token → Bool}
    (stops : continues (current finish tokens).token = false) : Stops continues tokens := by
  cases tokens with
  | nil => exact stops_nil _
  | cons first later => exact stops_cons.2 stops

namespace PromptAt

variable {read : ReaderAt α} {GoesOn Further : List Located → Prop}

/-- A reader that takes some tokens whatever follows is prompt on them. -/
theorem of_take {value : α} (front : List Located)
    (taken : ∀ finish later, (read finish (front ++ later)).Reads value later) :
    PromptAt read GoesOn finish (front ++ later) where
  takes := by
    intro other rest found
    obtain ⟨rfl, rfl⟩ := (taken finish later).unique found
    exact ⟨front, rfl, fun finish' rest' _ => taken finish' rest'⟩
  refuses := fun _ _ refused => absurd refused (taken finish later).not_refuses

/-- A reader that takes nothing in front of the current token is prompt there. -/
theorem of_stop (value : α)
    (stopped : ∀ finish' tokens', current finish' tokens' = current finish tokens →
      (read finish' tokens').Reads value tokens') : PromptAt read GoesOn finish tokens where
  takes := by
    intro other rest found
    obtain ⟨rfl, rfl⟩ := (stopped finish tokens rfl).unique found
    exact ⟨[], rfl, stopped⟩
  refuses := fun _ _ refused => absurd refused (stopped finish tokens rfl).not_refuses

/-- A reader that refuses the current token is prompt there if something may come. -/
theorem of_refuse (expected : Expectation) (viable : GoesOn [])
    (refused : ∀ finish' tokens', current finish' tokens' = current finish tokens →
      (read finish' tokens').Refuses expected (current finish tokens)) :
    PromptAt read GoesOn finish tokens where
  takes := fun _ _ found => absurd (refused finish tokens rfl) found.not_refuses
  refuses := by
    intro other found stops
    obtain ⟨rfl, rfl⟩ : expected = other ∧ current finish tokens = found := by
      simpa using (refused finish tokens rfl).symm.trans stops
    exact ⟨[], tokens, rfl, rfl, viable, refused⟩

/-- What can go on may be said in weaker words. -/
theorem imp (prompt : PromptAt read GoesOn finish tokens) (weaker : ∀ s, GoesOn s → Further s) :
    PromptAt read Further finish tokens where
  takes := prompt.takes
  refuses := by
    intro expected found refused
    obtain ⟨s, rest, split, next, viable, always⟩ := prompt.refuses expected found refused
    exact ⟨s, rest, split, next, weaker s viable, always⟩

/-- A reader that takes one token and goes on with a prompt reader is prompt. -/
theorem cons {first : Located} (inner : ReaderAt α)
    (same : ∀ finish later, read finish (first :: later) =
      (inner finish later).within (Nat.le_succ _))
    (prompt : PromptAt inner (fun s => GoesOn (first :: s)) finish later) :
    PromptAt read GoesOn finish (first :: later) where
  takes := by
    intro value rest found
    rw [same] at found
    obtain ⟨s, rfl, always⟩ := prompt.takes value rest found
    refine ⟨first :: s, rfl, fun finish' rest' next => ?_⟩
    rw [List.cons_append, same]
    exact always finish' rest' next
  refuses := by
    intro expected found refused
    rw [same] at refused
    obtain ⟨s, rest, rfl, next, viable, always⟩ := prompt.refuses expected found refused
    refine ⟨first :: s, rest, rfl, next, viable, fun finish' rest' next => ?_⟩
    rw [List.cons_append, same]
    exact always finish' rest' next

/-- Two prompt readers in a row are prompt. -/
theorem andThen {next : Nat → α → (rest : List Located) → Reading β rest}
    (first : PromptAt read GoesOn finish tokens)
    (second : ∀ s value rest, tokens = s ++ rest → (read finish tokens).Reads value rest →
      PromptAt (fun finish => next finish value) (fun t => GoesOn (s ++ t)) finish rest) :
    PromptAt (fun finish tokens => (read finish tokens).andThen fun value rest _ =>
      next finish value rest) GoesOn finish tokens where
  takes := by
    intro value rest found
    obtain ⟨middle, mid, _, front, back⟩ := Reading.reads_andThen.1 found
    obtain ⟨s, split, again⟩ := first.takes middle mid front
    obtain ⟨t, rfl, further⟩ := (second s middle mid split front).takes value rest back
    refine ⟨s ++ t, by rw [split, List.append_assoc], fun finish' rest' same => ?_⟩
    rw [List.append_assoc]
    -- the first reader stops at a token of the second one, or at the same next token
    exact (again finish' (t ++ rest') (current_append same t)).andThen fun _ =>
      further finish' rest' same
  refuses := by
    intro expected found refused
    rcases Reading.refuses_andThen.1 refused with early | ⟨middle, mid, _, front, late⟩
    · obtain ⟨s, rest, split, same, viable, always⟩ := first.refuses expected found early
      exact ⟨s, rest, split, same, viable, fun finish' rest' next =>
        Reading.refuses_andThen.2 (.inl (always finish' rest' next))⟩
    · obtain ⟨s, split, again⟩ := first.takes middle mid front
      obtain ⟨t, rest, rfl, same, viable, always⟩ :=
        (second s middle mid split front).refuses expected found late
      refine ⟨s ++ t, rest, by rw [split, List.append_assoc], same, viable, ?_⟩
      intro finish' rest' next
      have front' := again finish' (t ++ rest') (current_append (next.trans same.symm) t)
      have shorter : (t ++ rest').length ≤ (s ++ (t ++ rest')).length := by simp
      rw [List.append_assoc]
      exact Reading.refuses_andThen.2
        (.inr ⟨middle, t ++ rest', shorter, front', always finish' rest' next⟩)

end PromptAt

/-! ## Readers of single tokens -/

/-- What a sound reader takes in front of the tokens it leaves is a phrase. -/
theorem Sound.phrase {reader : Reader} {Phrase : List Located → Expr → Prop}
    (sound : Sound reader Phrase) {s rest : List Located} {e : Expr}
    (read : (reader (s ++ rest)).Reads e rest) : Phrase s e := by
  obtain ⟨t, same, found⟩ := sound _ _ _ read
  rwa [List.append_cancel_right same]

variable {GoesOn : List Located → Prop}

/-- A reader that accepts is prompt. -/
theorem prompt_accept (value : α) : Prompt (fun _ => accept value) GoesOn :=
  fun _ _ => .of_take [] fun _ _ => ⟨rfl, rfl⟩

/-- A name is taken if one comes. -/
theorem prompt_name : Prompt (fun _ => readName) GoesOn := by
  intro finish tokens
  cases comes : isName (current finish tokens).token with
  | false =>
    refine .of_stop none fun finish' tokens' same => ?_
    have stops : Stops isName tokens' := stops_of_current (same ▸ comes)
    rw [readName_eq_accept stops]
    exact ⟨rfl, rfl⟩
  | true =>
    match tokens, comes with
    | ⟨.identifier name, p⟩ :: later, _ =>
      exact .of_take [⟨.identifier name, p⟩] fun _ _ => ⟨rfl, rfl⟩
    | ⟨.string name, p⟩ :: later, _ =>
      exact .of_take [⟨.string name, p⟩] fun _ _ => ⟨rfl, rfl⟩

/-- Any other token than the expected one is refused. -/
theorem expect_refuses {token : Token} {expected : Expectation}
    (other : (current finish tokens).token ≠ token) :
    (expect finish token expected tokens).Refuses expected (current finish tokens) := by
  cases tokens with
  | nil => rfl
  | cons first later =>
    have different : first.token ≠ token := other
    rw [expect, if_neg different]
    rfl

/-- The reader of an expected token is prompt. -/
theorem prompt_expect {token : Token} {expected : Expectation} (inside : token ≠ .endOfInput)
    (viable : GoesOn []) : Prompt (fun finish => expect finish token expected) GoesOn := by
  intro finish tokens
  by_cases comes : (current finish tokens).token = token
  · cases tokens with
    | nil => exact absurd comes.symm inside
    | cons first later =>
      have taken (finish' : Nat) (later' : List Located) :
          (expect finish' token expected (first :: later')).Reads () later' :=
        reads_expect.2 ⟨first.position, comes ▸ rfl⟩
      exact .of_take [first] taken
  · refine .of_refuse expected viable fun finish' tokens' same => ?_
    rw [← same] at comes ⊢
    exact expect_refuses comes

/-! ## Steps -/

/-- Whether a token may stand behind a point. -/
def followsPoint : Token → Bool
  | .identifier _ | .string _ | .integer _ | .star => true
  | _ => false

/-- Behind a point any other token is refused. -/
theorem readDotted_refuses (other : followsPoint (current finish tokens).token = false) :
    (readDotted finish tokens).Refuses .step (current finish tokens) := by
  unfold readDotted
  split <;> first | rfl | cases other

/-- The reader of the step behind a point is prompt. -/
theorem prompt_dotted (viable : GoesOn []) : Prompt readDotted GoesOn := by
  intro finish tokens
  cases follows : followsPoint (current finish tokens).token with
  | false =>
    refine .of_refuse .step viable fun finish' tokens' same => ?_
    rw [← same] at follows ⊢
    exact readDotted_refuses follows
  | true =>
    match tokens, follows with
    | ⟨.identifier name, p⟩ :: later, _ =>
      exact .of_take [⟨.identifier name, p⟩] fun _ _ => ⟨rfl, rfl⟩
    | ⟨.string name, p⟩ :: later, _ =>
      exact .of_take [⟨.string name, p⟩] fun _ _ => ⟨rfl, rfl⟩
    | ⟨.integer n, p⟩ :: later, _ => exact .of_take [⟨.integer n, p⟩] fun _ _ => ⟨rfl, rfl⟩
    | ⟨.star, p⟩ :: later, _ => exact .of_take [⟨.star, p⟩] fun _ _ => ⟨rfl, rfl⟩

/-- Reads an expression and the bracket behind it. -/
def readKey (finish : Nat) (nested : Reader) (tokens : List Located) : Reading Step tokens :=
  (nested tokens).andThen fun key rest _ =>
    (expect finish .rightBracket .rightBracket rest).andThen fun _ rest _ =>
      accept (.key key) rest

/-- A closing bracket behind the first token makes no step of it: that token is neither `*` nor a
plain name. -/
def Open (tokens : List Located) : Prop :=
  ∀ first second later, tokens = first :: second :: later → standsAlone first.token = true →
    second.token ≠ .rightBracket

variable {levels : Nat}

/-- What is read up to a closing bracket is an expression. -/
theorem key_of_reads {step : Step} {rest : List Located}
    (read : (readKey finish (readExpr finish levels) tokens).Reads step rest) :
    ∃ s r key, tokens = s ++ ⟨.rightBracket, r⟩ :: rest ∧ Derives levels s key := by
  obtain ⟨key, _, _, inner, closed⟩ := Reading.reads_andThen.1 read
  obtain ⟨_, _, _, close, accepted⟩ := Reading.reads_andThen.1 closed
  obtain ⟨-, rfl⟩ := reads_accept.1 accepted
  obtain ⟨r, rfl⟩ := reads_expect.1 close
  obtain ⟨s, rfl, derived⟩ := readExpr_sound finish levels _ _ _ inner
  exact ⟨s, r, key, rfl, derived⟩

/-- Tokens that are refused at once are open: a lone `*` or plain name would be read. -/
theorem open_of_refuses {expected : Expectation} {found : Located}
    (refused : (readKey finish (readExpr finish levels) tokens).Refuses expected found)
    (atOnce : current finish tokens = found) : Open tokens := by
  rintro first second later rfl alone closed
  cases levels with
  | zero => cases refused
  | succ levels =>
    obtain ⟨e, derived⟩ : ∃ e, Derives (levels + 1) [first] e := by
      obtain ⟨token, p⟩ := first
      cases token with
      | star => exact ⟨_, .operand (.operand (.primary (.star p)))⟩
      | identifier name => exact ⟨_, .operand (.operand (.primary (.name name p)))⟩
      | _ => cases alone
    have stops : Stops continuesExpr (second :: later) :=
      stops_cons.2 (closed ▸ continuesExpr_closable.bracket)
    have inner := readExpr_complete finish (levels + 1) [first] e _ derived stops
    have close : (expect finish .rightBracket .rightBracket (second :: later)).Reads () later :=
      reads_expect.2 ⟨second.position, closed ▸ rfl⟩
    have read : (readKey finish (readExpr finish (levels + 1)) (first :: second :: later)).Reads
        (.key e) later :=
      inner.andThen fun _ => close.andThen fun _ => reads_accept.2 ⟨rfl, rfl⟩
    exact read.not_refuses refused

/-- Behind the same tokens brackets stay open when the same token comes next. -/
theorem Open.of_current {finish' : Nat} {s rest rest' : List Located} (taken : s ≠ [])
    (same : current finish' rest' = current finish rest) (free : Open (s ++ rest)) :
    Open (s ++ rest') := by
  intro first second later split alone closed
  match s, taken with
  | [only], _ =>
    obtain ⟨rfl, rfl⟩ := List.cons.inj split
    -- the second token is the next one, so it closed the brackets before
    have next : (current finish rest).token = .rightBracket := same ▸ closed
    cases rest with
    | nil => cases next
    | cons second' later' => exact free _ _ _ rfl alone next
  | a :: b :: more, _ =>
    obtain ⟨rfl, rfl, -⟩ : a = first ∧ b = second ∧ _ := by simpa using split
    exact free _ _ _ rfl alone closed

/-- An expression in brackets can go on to a step. -/
theorem viable_key {Nested : List Located → Expr → Prop} {s : List Located} (p : Nat)
    (viable : Viable Nested s) : Viable (fun s => StepAt Nested p (⟨.leftBracket, p⟩ :: s)) s := by
  obtain ⟨later, e, derived⟩ := viable
  refine ⟨later ++ [⟨.rightBracket, 0⟩], ?_⟩
  rw [← List.append_assoc]
  by_cases lone : Lone (s ++ later)
  · obtain ⟨⟨token, q⟩, only, alone⟩ := lone
    rw [only]
    cases token with
    | star => exact ⟨_, .starInBrackets p q 0⟩
    | identifier name => exact ⟨_, .nameInBrackets name p q 0⟩
    | _ => cases alone
  · exact ⟨_, .key p 0 derived lone⟩

section

variable (deeper : Prompt (fun finish => readExpr finish levels) (Viable (Derives levels)))

include deeper

/-- An expression and the bracket behind it are read promptly. -/
theorem prompt_key (p : Nat) : Prompt (fun finish => readKey finish (readExpr finish levels))
    (Viable fun s => StepAt (Derives levels) p (⟨.leftBracket, p⟩ :: s)) := by
  intro finish tokens
  refine ((deeper finish tokens).imp fun s => viable_key p).andThen ?_
  rintro s key rest rfl inner
  have derived : Derives levels s key := (readExpr_sound finish levels).phrase inner
  have complete : Viable (Derives levels) s := ⟨[], key, by rwa [List.append_nil]⟩
  have closes : Viable (fun s => StepAt (Derives levels) p (⟨.leftBracket, p⟩ :: s)) (s ++ []) := by
    rw [List.append_nil]
    exact viable_key p complete
  exact (prompt_expect (by decide) closes finish rest).andThen
    fun _ _ _ _ _ => prompt_accept _ _ _

/-- In front of open brackets the reader of the step behind them is prompt. -/
theorem promptAt_bracketed_of_open (p : Nat) (free : Open tokens) :
    PromptAt (fun finish => readBracketed finish (readExpr finish levels))
      (Viable fun s => StepAt (Derives levels) p (⟨.leftBracket, p⟩ :: s)) finish tokens := by
  have key := prompt_key deeper p finish tokens
  have same {finish : Nat} {tokens : List Located} (free : Open tokens) :
      readBracketed finish (readExpr finish levels) tokens =
        readKey finish (readExpr finish levels) tokens := readBracketed_eq_nested free
  constructor
  · intro step rest read
    rw [same free] at read
    obtain ⟨s, split, always⟩ := key.takes step rest read
    have taken : s ≠ [] := by
      rintro rfl
      obtain ⟨t, r, _, other, _⟩ := key_of_reads read
      have longer := congrArg List.length (split.symm.trans other)
      simp only [List.nil_append, List.length_append, List.length_cons] at longer
      omega
    refine ⟨s, split, fun finish' rest' next => ?_⟩
    rw [same (Open.of_current taken next (split ▸ free))]
    exact always finish' rest' next
  · intro expected found refused
    rw [same free] at refused
    obtain ⟨s, rest, split, stops, viable, always⟩ := key.refuses expected found refused
    refine ⟨s, rest, split, stops, viable, fun finish' rest' next => ?_⟩
    have again := always finish' rest' next
    -- what is refused here is refused as an expression, so the brackets hold one there, too
    have free' : Open (s ++ rest') := by
      by_cases nothing : s = []
      · subst nothing
        exact open_of_refuses again next
      · exact Open.of_current nothing (next.trans stops.symm) (split ▸ free)
    rwa [same free']

/-- The reader of the step behind an opening bracket is prompt. -/
theorem prompt_bracketed (p : Nat) :
    Prompt (fun finish => readBracketed finish (readExpr finish levels))
      (Viable fun s => StepAt (Derives levels) p (⟨.leftBracket, p⟩ :: s)) := by
  intro finish tokens
  by_cases closed : ∃ first r later, tokens = first :: ⟨.rightBracket, r⟩ :: later ∧
      standsAlone first.token = true
  · obtain ⟨⟨token, q⟩, r, later, rfl, alone⟩ := closed
    cases token with
    | star => exact .of_take [⟨.star, q⟩, ⟨.rightBracket, r⟩] fun _ _ => ⟨rfl, rfl⟩
    | identifier name =>
      exact .of_take [⟨.identifier name, q⟩, ⟨.rightBracket, r⟩] fun _ _ => ⟨rfl, rfl⟩
    | _ => cases alone
  · refine promptAt_bracketed_of_open deeper p ?_
    rintro first ⟨_, r⟩ later split alone rfl
    exact closed ⟨first, r, later, split, alone⟩

end

/-! ## Paths -/

/-- Where the current token introduces no step, an object is the whole path. -/
theorem readSteps_eq_accept {nested : Reader} {object : Expr} (stops : Stops opensStep tokens) :
    readSteps finish nested object tokens = accept object tokens := by
  cases tokens with
  | nil => rw [readSteps]
  | cons first later =>
    obtain ⟨token, p⟩ := first
    have closed := stops_cons.1 stops
    rw [readSteps]
    cases token <;> first | rfl | cases closed

/-- Whether a path may start with a token. -/
def startsPath : Token → Bool
  | .dot | .andAnd | .orOr | .leftBracket | .rightBracket | .rightParen | .endOfInput => false
  | _ => true

/-- A token that starts no path is refused at its start. -/
theorem readPrimary_refuses {nested : Reader}
    (other : startsPath (current finish tokens).token = false) :
    (readPrimary finish nested tokens).Refuses .pathOrLiteral (current finish tokens) := by
  cases tokens with
  | nil => rfl
  | cons first later =>
    obtain ⟨token, p⟩ := first
    cases token <;> first | rfl | cases other

/-- A step that is read promptly makes the reader of steps prompt, if further steps are. -/
theorem promptAt_steps_of_step {front later : List Located} {object : Expr} {token : Token}
    {p : Nat} (path : Path (Derives levels) front object) (step : ReaderAt Step)
    (opens : ∀ finish later,
      readStep finish (readExpr finish levels) token later = some (step finish later))
    (prompt : PromptAt step (Viable fun s => StepAt (Derives levels) p (⟨token, p⟩ :: s))
      finish later)
    (further : ∀ {front rest : List Located} {object : Expr}, rest.length ≤ later.length →
      Path (Derives levels) front object →
      PromptAt (fun finish => readSteps finish (readExpr finish levels) object)
        (fun s => Viable (Path (Derives levels)) (front ++ s)) finish rest) :
    PromptAt (fun finish => readSteps finish (readExpr finish levels) object)
      (fun s => Viable (Path (Derives levels)) (front ++ s)) finish (⟨token, p⟩ :: later) := by
  refine .cons (fun finish later => (step finish later).andThen fun step rest _ =>
    readSteps finish (readExpr finish levels) (step.apply p object) rest) ?_ ?_
  · intro finish later
    rw [readSteps]
    simp only [opens]
  · refine (prompt.imp ?_).andThen ?_
    · rintro s ⟨more, value, found⟩
      exact ⟨more, _, by simpa using path.step p found⟩
    · rintro s value rest rfl read
      obtain ⟨t, same, found⟩ := stepAt_of_reads (p := p) (readExpr_sound finish levels)
        (opens finish (s ++ rest)) read
      obtain rfl := List.append_cancel_right same
      refine (further (by simp) (path.step p found)).imp fun t viable => ?_
      simpa using viable

section

variable (deeper : Prompt (fun finish => readExpr finish levels) (Viable (Derives levels)))

include deeper

/-- The reader of the steps behind a path is prompt. -/
theorem promptAt_steps {front : List Located} {object : Expr}
    (path : Path (Derives levels) front object) :
    PromptAt (fun finish => readSteps finish (readExpr finish levels) object)
      (fun s => Viable (Path (Derives levels)) (front ++ s)) finish tokens := by
  -- every step takes a token, so the induction is on how many there are
  induction bound : tokens.length using Nat.strongRecOn generalizing tokens front object with
  | ind length ih =>
    cases introduces : opensStep (current finish tokens).token with
    | false =>
      refine .of_stop object fun finish' tokens' same => ?_
      rw [readSteps_eq_accept (stops_of_current (same ▸ introduces))]
      exact ⟨rfl, rfl⟩
    | true =>
      match tokens, introduces, bound with
      | ⟨.dot, p⟩ :: later, _, bound =>
        refine promptAt_steps_of_step path readDotted (fun _ _ => rfl) ?_ fun shorter path =>
          ih _ (bound ▸ Nat.lt_succ_of_le shorter) path rfl
        exact prompt_dotted ⟨[⟨.star, 0⟩], _, .wildcard p 0⟩ finish later
      | ⟨.dotDot, p⟩ :: later, _, bound =>
        refine promptAt_steps_of_step path (fun _ tokens => (readName tokens).andThen
          fun name rest _ => accept (.descent name) rest) (fun _ _ => rfl) ?_ fun shorter path =>
            ih _ (bound ▸ Nat.lt_succ_of_le shorter) path rfl
        exact (prompt_name finish later).andThen fun _ _ _ _ _ => prompt_accept _ _ _
      | ⟨.leftBracket, p⟩ :: later, _, bound =>
        refine promptAt_steps_of_step path (fun finish => readBracketed finish
          (readExpr finish levels)) (fun _ _ => rfl) ?_ fun shorter path =>
            ih _ (bound ▸ Nat.lt_succ_of_le shorter) path rfl
        exact prompt_bracketed deeper p finish later

/-- The reader of the start of a path is prompt. -/
theorem prompt_primary : Prompt (fun finish => readPrimary finish (readExpr finish levels))
    (Viable (Primary (Derives levels))) := by
  intro finish tokens
  cases starts : startsPath (current finish tokens).token with
  | false =>
    refine .of_refuse .pathOrLiteral ⟨_, _, .root 0⟩ fun finish' tokens' same => ?_
    rw [← same] at starts ⊢
    exact readPrimary_refuses starts
  | true =>
    match tokens, starts with
    | ⟨.dotDot, p⟩ :: later, _ =>
      refine .cons (fun _ tokens => (readName tokens).andThen fun name rest _ =>
        accept (.descent p (.root p) name) rest) (fun _ _ => rfl) ?_
      exact (prompt_name finish later).andThen fun _ _ _ _ _ => prompt_accept _ _ _
    | ⟨.leftParen, p⟩ :: later, _ =>
      refine .cons (fun finish tokens => (readExpr finish levels tokens).andThen fun inner rest _ =>
        (expect finish .rightParen .rightParen rest).andThen fun _ rest _ => accept inner rest)
        (fun _ _ => rfl) ?_
      refine ((deeper finish later).imp ?_).andThen ?_
      · rintro s ⟨more, e, derived⟩
        exact ⟨more ++ [⟨.rightParen, 0⟩], e, by simpa using Primary.group p 0 derived⟩
      · rintro s e rest rfl inner
        have derived : Derives levels s e := (readExpr_sound finish levels).phrase inner
        have closes : Viable (Primary (Derives levels)) (⟨.leftParen, p⟩ :: (s ++ [])) :=
          ⟨[⟨.rightParen, 0⟩], e, by simpa using Primary.group p 0 derived⟩
        exact (prompt_expect (by decide) closes finish rest).andThen
          fun _ _ _ _ _ => prompt_accept _ _ _
    | ⟨.integer _, p⟩ :: later, _ | ⟨.float _, p⟩ :: later, _ | ⟨.string _, p⟩ :: later, _
    | ⟨.boolean _, p⟩ :: later, _ | ⟨.null, p⟩ :: later, _ | ⟨.dollar, p⟩ :: later, _
    | ⟨.identifier _, p⟩ :: later, _ | ⟨.star, p⟩ :: later, _ =>
      exact .of_take [⟨_, p⟩] fun _ _ => ⟨rfl, rfl⟩

/-- The reader of paths is prompt. -/
theorem prompt_path : Prompt (fun finish => readPath finish (readExpr finish levels))
    (Viable (Path (Derives levels))) := by
  intro finish tokens
  refine ((prompt_primary deeper finish tokens).imp ?_).andThen ?_
  · rintro s ⟨later, e, start⟩
    exact ⟨later, e, .primary start⟩
  · rintro s object rest rfl read
    have start : Primary (Derives levels) s object :=
      (primary_of_reads (readExpr_sound finish levels)).phrase read
    exact promptAt_steps deeper (.primary start)

end

/-! ## Combinations -/

section

variable {op : BoolOp} {operand : ReaderAt Expr} {Operand : List Located → Expr → Prop}
  (sound : ∀ finish, Sound (operand finish) Operand) (prompt : Prompt operand (Viable Operand))

include sound prompt

/-- The reader of the operands behind a combination is prompt. -/
theorem promptAt_operands {front : List Located} {left : Expr}
    (before : Combination op Operand front left) :
    PromptAt (fun finish => readOperands op (operand finish) left)
      (fun s => Viable (Combination op Operand) (front ++ s)) finish tokens := by
  -- every operator takes a token, so the induction is on how many there are
  induction bound : tokens.length using Nat.strongRecOn generalizing tokens front left with
  | ind length ih =>
    by_cases goesOn : (current finish tokens).token = operator op
    · match tokens, goesOn, bound with
      | [], goesOn, _ => cases op <;> cases goesOn
      | ⟨token, p⟩ :: later, goesOn, bound =>
        obtain rfl : token = operator op := goesOn
        refine .cons (fun finish tokens => (operand finish tokens).andThen fun right rest _ =>
          readOperands op (operand finish) (.boolean p op left right) rest) ?_ ?_
        · intro finish later
          rw [readOperands, if_pos rfl]
        · refine ((prompt finish later).imp ?_).andThen ?_
          · rintro s ⟨more, right, last⟩
            exact ⟨more, _, by simpa using before.combine p last⟩
          · rintro s right rest rfl read
            have last : Operand s right := (sound finish).phrase read
            have fewer : rest.length < length := by
              simp only [List.length_cons, List.length_append] at bound
              omega
            refine (ih rest.length fewer (before.combine p last) rfl).imp fun t viable => ?_
            simpa using viable
    · refine .of_stop left fun finish' tokens' same => ?_
      have other : ((current finish' tokens').token == operator op) = false := by
        rw [same]
        simpa using goesOn
      have stops : Stops (· == operator op) tokens' := stops_of_current other
      rw [readOperands_eq_accept stops]
      exact ⟨rfl, rfl⟩

/-- The reader of combinations is prompt. -/
theorem prompt_combination : Prompt (fun finish => readCombination op (operand finish))
    (Viable (Combination op Operand)) := by
  intro finish tokens
  refine ((prompt finish tokens).imp ?_).andThen ?_
  · rintro s ⟨later, e, only⟩
    exact ⟨later, e, .operand only⟩
  · rintro s left rest rfl read
    have only : Operand s left := (sound finish).phrase read
    exact promptAt_operands sound prompt (.operand only)

end

/-! ## Expressions -/

/-- The reader of expressions is prompt at every level of nesting. -/
theorem prompt_expr (levels : Nat) :
    Prompt (fun finish => readExpr finish levels) (Viable (Derives levels)) := by
  induction levels with
  | zero =>
    refine fun finish tokens => ⟨fun _ _ read => ?_, fun _ _ refused => ?_⟩
    · cases read.1
    · cases refused
  | succ levels deeper =>
    have paths (finish : Nat) :
        Sound (readPath finish (readExpr finish levels)) (Path (Derives levels)) :=
      readPath_sound (readExpr_sound finish levels)
    exact prompt_combination (fun finish => readCombination_sound (paths finish))
      (prompt_combination paths (prompt_path deeper))

end PathQuery.Parser
