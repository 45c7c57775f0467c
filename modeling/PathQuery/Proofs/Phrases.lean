import PathQuery.Proofs.Grammar
import PathQuery.Proofs.FloatText
import PathQuery.Expr.Normal
/-!
# Texts that say phrases

A text says a phrase of the grammar when it spells tokens that make it up. Texts of parts put in a
row say the whole, as the productions of the grammar have it. Nothing is said of places here: every
token is taken to stand at the start of the text.
-/
namespace PathQuery.Grammar

open Token

/-- Tokens that all stand at the start of the text. -/
def atStart (tokens : List Token) : List Located := tokens.map fun token => ⟨token, 0⟩

/-- Tokens do not change with their places. -/
theorem map_token_atStart (tokens : List Token) : (atStart tokens).map Located.token = tokens := by
  simp [atStart, Function.comp_def]

/-- The text spells tokens that make up the phrase, unless what follows goes on with it. -/
def Says {α : Type} (Phrase : List Located → α → Prop) (text : List Char) (goesOn : Char → Bool)
    (a : α) : Prop :=
  ∃ tokens, Spells text tokens goesOn ∧ Phrase (atStart tokens) a

section

variable {α : Type} {Phrase Wider : List Located → α → Prop} {text : List Char}
  {goesOn fewer : Char → Bool} {a : α}

/-- A text says the same when more characters are kept from following it. -/
theorem Says.mono (said : Says Phrase text fewer a)
    (more : ∀ c, goesOn c = false → fewer c = false) : Says Phrase text goesOn a := by
  obtain ⟨tokens, spells, phrase⟩ := said
  exact ⟨tokens, spells.mono more, phrase⟩

/-- A text that says a phrase says every phrase that has the same tokens. -/
theorem Says.widen (said : Says Phrase text goesOn a)
    (wider : ∀ s, Phrase s a → Wider s a) : Says Wider text goesOn a := by
  obtain ⟨tokens, spells, phrase⟩ := said
  exact ⟨tokens, spells, wider _ phrase⟩

end

/-! ## Parts of a path -/

variable {Nested Operand : List Located → Expr → Prop} {text later : List Char}
  {goesOn fewer : Char → Bool} {e f : Expr}

/-- A `$` says the document. -/
theorem says_root : Says (Primary Nested) ['$'] nothing (.root 0) :=
  ⟨[.dollar], spells_single rfl rfl, .root 0⟩

/-- The text of a token of a constant says the constant. -/
theorem Says.constant {token : Token} {value : Node} (spells : Spells text [token] goesOn)
    (found : constant? token = some value) :
    Says (Primary Nested) text goesOn (.literal 0 value) :=
  ⟨[token], spells, .literal 0 found⟩

/-- An expression in parentheses starts a path, and is no lone `*` or name. -/
theorem Says.group (inner : Says Nested text fewer e) (closes : fewer ')' = false) :
    Says (fun s e => Primary Nested s e ∧ ¬ Lone s) ('(' :: (text ++ [')'])) nothing e := by
  obtain ⟨tokens, spells, derived⟩ := inner
  have opened : Spells ['('] [.leftParen] nothing := spells_single rfl rfl
  have closed : Spells [')'] [.rightParen] nothing := spells_single rfl rfl
  have content := spells.append closed fun _ => ends_cons.2 closes
  refine ⟨_, opened.append_closed content, ?_, ?_⟩
  · have group := Primary.group 0 0 derived
    simpa [atStart] using group
  · rintro ⟨first, same, alone⟩
    obtain ⟨rfl, -⟩ := List.cons.inj same
    cases alone

/-- A step behind a path is a path. -/
theorem Says.step {step : Step} (object : Says (Path Nested) text fewer e)
    (last : Says (StepAt Nested 0) later goesOn step)
    (apart : ∀ rest, Ends fewer (later ++ rest)) :
    Says (Path Nested) (text ++ later) goesOn (step.apply 0 e) := by
  obtain ⟨tokens, spells, path⟩ := object
  obtain ⟨further, spellsOn, found⟩ := last
  refine ⟨_, spells.append spellsOn apart, ?_⟩
  have longer := Path.step 0 path found
  simpa [atStart] using longer

/-- A combinator between an operand and another one combines them. -/
theorem Says.combine {op : BoolOp} (left : Says (Combination op Operand) text fewer e)
    (right : Says Operand later goesOn f) (ends : fewer ' ' = false)
    (operands : ∀ s f, Operand s f → Guarded s) :
    Says (Combination op Operand) (text ++ ' ' :: (op.sign.toList ++ [' ']) ++ later) goesOn
      (.boolean 0 op e f) := by
  obtain ⟨tokens, spells, combination⟩ := left
  obtain ⟨further, spellsOn, operand⟩ := right
  obtain ⟨first, others, same⟩ : ∃ first others, further = first :: others :=
    List.exists_cons_of_ne_nil fun empty => (operands _ _ operand).1 (by simp [empty, atStart])
  subst same
  have sign : Spells (' ' :: op.sign.toList) [Parser.operator op] nothing :=
    (spells_operator op).blank rfl
  have behind := sign.append_closed (spellsOn.blank (c := ' ') rfl)
  have whole := spells.append behind fun _ => ends_cons.2 ends
  have derived := Combination.combine 0 combination operand
  refine ⟨tokens ++ Parser.operator op :: first :: others, ?_, ?_⟩
  · simpa using whole
  · simpa [atStart] using derived

/-! ## Steps -/

/-- A point and a plain name say a step to a field. -/
theorem says_field {name : String} (plain : isPlainName name = true) :
    Says (StepAt Nested 0) ('.' :: name.toList) continuesName (.field name) :=
  ⟨_, spells_dotName plain, .field 0 (.plain name 0)⟩

/-- A point and an integer say a step to an index. -/
theorem says_index (n : Int64) :
    Says (StepAt Nested 0) ('.' :: Decimal.integerText n.toInt) continuesName (.index n) := by
  refine ⟨_, (spells_dotInteger n).mono fun c ends => ?_, .index n 0 0⟩
  exact continuesNumber_eq_false ends nofun

/-- A point and a star say a step to the children. -/
theorem says_wildcard : Says (StepAt Nested 0) ['.', '*'] nothing .wildcard :=
  ⟨_, spells_dotStar, .wildcard 0 0⟩

/-- Two points and the name behind them say a descent. -/
theorem says_descent (name : Option String) :
    Says (StepAt Nested 0) ('.' :: '.' :: Expr.descentName name) continuesName
      (.descent name) := by
  cases name with
  | none => exact ⟨_, spells_dotDot.mono fun _ _ => rfl, .descent 0 .nothing⟩
  | some name =>
    by_cases plain : isPlainName name = true
    · have named := spells_dotDot.append_closed (spells_name plain)
      refine ⟨[.dotDot, .identifier name], ?_, .descent 0 (.name (.plain name 0))⟩
      simpa [Expr.descentName, plain] using named
    · have quoted := spells_dotDot.append_closed (spells_quoted name.toList)
      rw [String.ofList_toList] at quoted
      refine ⟨[.dotDot, .string name], ?_, .descent 0 (.name (.quoted name 0))⟩
      simpa [Expr.descentName, plain] using quoted.mono fun _ _ => rfl

/-- An expression in brackets that is no lone `*` or name says a step to a computed key. -/
theorem Says.key (inner : Says (fun s key => Nested s key ∧ ¬ Lone s) text fewer e)
    (closes : fewer ']' = false) :
    Says (StepAt Nested 0) ('[' :: (text ++ [']'])) nothing (.key e) := by
  obtain ⟨tokens, spells, derived, other⟩ := inner
  have opened : Spells ['['] [.leftBracket] nothing := spells_single rfl rfl
  have closed : Spells [']'] [.rightBracket] nothing := spells_single rfl rfl
  have content := spells.append closed fun _ => ends_cons.2 closes
  refine ⟨_, opened.append_closed content, ?_⟩
  have key := StepAt.key 0 0 derived other
  simpa [atStart] using key

end PathQuery.Grammar
