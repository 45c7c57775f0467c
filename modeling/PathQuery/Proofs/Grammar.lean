import PathQuery.Expr.Parser
import PathQuery.Proofs.Placement
/-!
# The grammar of path expressions

Which tokens make up which expression, said without a parser:

* `expr` is `and` with `||` between them, `and` is `path` with `&&` between them, both grouped to
  the left;
* `path` is `primary` with steps behind it;
* `primary` is `$`, a name, `*`, `..` with or without a name, a literal, or `( expr )`;
* a step is `.` and a name, an index or `*`; `..` with or without a name; `[*]`, `[name]`, or
  `[ expr ]` where the brackets hold neither a lone `*` nor a lone plain name.

The parts of a path are stated over what an expression nested in them derives. `Derives` closes
that loop level by level, so that it bounds how deep expressions are nested. Each expression that
is built carries the offset of the token that introduced it.
-/
namespace PathQuery.Grammar

/-! ## Productions -/

/-- Tokens that make up a name: a plain one or a quoted one. -/
inductive Name : List Located → String → Prop where
  /-- A plain name. -/
  | plain (name : String) (position : Nat) : Name [⟨.identifier name, position⟩] name
  /-- A quoted name. -/
  | quoted (name : String) (position : Nat) : Name [⟨.string name, position⟩] name

/-- Tokens that make up a name or nothing. -/
inductive NameOrNothing : List Located → Option String → Prop where
  /-- Nothing. -/
  | nothing : NameOrNothing [] none
  /-- A name. -/
  | name {s : List Located} {name : String} (found : Name s name) : NameOrNothing s (some name)

/-- The constant of a literal token. -/
def constant? : Token → Option Node
  | .integer n => some (.integer n)
  | .float x => some (.float x)
  | .string text => some (.string text)
  | .boolean b => some (.boolean b)
  | .null => some .null
  | _ => none

/-- Whether a token is a name, plain or quoted. -/
def isName : Token → Bool
  | .identifier _ | .string _ => true
  | _ => false

/-- Whether a token introduces a step. -/
def opensStep : Token → Bool
  | .dot | .dotDot | .leftBracket => true
  | _ => false

/-- A token that introduces a step is no name. -/
theorem isName_of_opensStep {token : Token} (opens : opensStep token = true) :
    isName token = false := by
  cases token <;> first | rfl | cases opens

/-- Whether a token means something else in brackets when it stands there alone: `*` and a plain
name do. -/
def standsAlone : Token → Bool
  | .star | .identifier _ => true
  | _ => false

/-- The tokens are a lone `*` or a lone plain name. -/
def Lone (s : List Located) : Prop :=
  ∃ first : Located, s = [first] ∧ standsAlone first.token = true

section

variable (Nested : List Located → Expr → Prop)

/-- Tokens that a path may start with, and the expression of that start. -/
inductive Primary : List Located → Expr → Prop where
  /-- The document. -/
  | root (p : Nat) : Primary [⟨.dollar, p⟩] (.root p)
  /-- A field of the document. -/
  | name (name : String) (p : Nat) : Primary [⟨.identifier name, p⟩] (.named p (.root p) name)
  /-- The children of the document. -/
  | star (p : Nat) : Primary [⟨.star, p⟩] (.wildcard p (.root p))
  /-- A descent from the document. -/
  | descent {s : List Located} {name : Option String} (p : Nat) (found : NameOrNothing s name) :
    Primary (⟨.dotDot, p⟩ :: s) (.descent p (.root p) name)
  /-- A constant. -/
  | literal {token : Token} {value : Node} (p : Nat) (found : constant? token = some value) :
    Primary [⟨token, p⟩] (.literal p value)
  /-- An expression in parentheses. -/
  | group {s : List Located} {e : Expr} (p q : Nat) (inner : Nested s e) :
    Primary (⟨.leftParen, p⟩ :: (s ++ [⟨.rightParen, q⟩])) e

/-- Tokens that make up a step, and the offset of the first of them. -/
inductive StepAt : Nat → List Located → Step → Prop where
  /-- A point and a name. -/
  | field {s : List Located} {name : String} (p : Nat) (found : Name s name) :
    StepAt p (⟨.dot, p⟩ :: s) (.field name)
  /-- A point and an index. -/
  | index (n : Int64) (p q : Nat) : StepAt p [⟨.dot, p⟩, ⟨.integer n, q⟩] (.index n)
  /-- A point and `*`. -/
  | wildcard (p q : Nat) : StepAt p [⟨.dot, p⟩, ⟨.star, q⟩] .wildcard
  /-- A descent. -/
  | descent {s : List Located} {name : Option String} (p : Nat) (found : NameOrNothing s name) :
    StepAt p (⟨.dotDot, p⟩ :: s) (.descent name)
  /-- A `*` in brackets. -/
  | starInBrackets (p q r : Nat) :
    StepAt p [⟨.leftBracket, p⟩, ⟨.star, q⟩, ⟨.rightBracket, r⟩] .wildcard
  /-- A plain name in brackets. -/
  | nameInBrackets (name : String) (p q r : Nat) :
    StepAt p [⟨.leftBracket, p⟩, ⟨.identifier name, q⟩, ⟨.rightBracket, r⟩] (.field name)
  /-- Any other expression in brackets. -/
  | key {s : List Located} {key : Expr} (p r : Nat) (inner : Nested s key) (other : ¬ Lone s) :
    StepAt p (⟨.leftBracket, p⟩ :: (s ++ [⟨.rightBracket, r⟩])) (.key key)

/-- Tokens that make up a path: a primary with any number of steps behind it. -/
inductive Path : List Located → Expr → Prop where
  /-- The start of a path. -/
  | primary {s : List Located} {e : Expr} (start : Primary Nested s e) : Path s e
  /-- A path with one step more. -/
  | step {s t : List Located} {object : Expr} {step : Step} (p : Nat) (path : Path s object)
    (last : StepAt Nested p t step) : Path (s ++ t) (step.apply p object)

end

/-- Tokens that make up operands with a combinator between them, grouped to the left. -/
inductive Combination (op : BoolOp) (Operand : List Located → Expr → Prop) :
    List Located → Expr → Prop where
  /-- A lone operand. -/
  | operand {s : List Located} {e : Expr} (only : Operand s e) : Combination op Operand s e
  /-- A combination with one operand more. -/
  | combine {s t : List Located} {left right : Expr} (p : Nat)
    (before : Combination op Operand s left) (last : Operand t right) :
    Combination op Operand (s ++ ⟨Parser.operator op, p⟩ :: t) (.boolean p op left right)

/-- The tokens derive the expression with at most the given number of expressions nested in each
other, the whole one included. -/
def Derives : Nat → List Located → Expr → Prop
  | 0 => fun _ _ => False
  | levels + 1 => Combination .or (Combination .and (Path (Derives levels)))

/-! ## Deeper nesting -/

variable {Nested Wider : List Located → Expr → Prop}

/-- What derives with some nested expressions derives with more of them. -/
theorem Path.widen (wider : ∀ s e, Nested s e → Wider s e) {s : List Located} {e : Expr}
    (path : Path Nested s e) : Path Wider s e := by
  induction path with
  | primary start =>
    refine .primary ?_
    cases start with
    | group p q inner => exact .group p q (wider _ _ inner)
    | root p => exact .root p
    | name name p => exact .name name p
    | star p => exact .star p
    | descent p found => exact .descent p found
    | literal p found => exact .literal p found
  | step p _ last before =>
    refine .step p before ?_
    cases last with
    | key p r inner other => exact .key p r (wider _ _ inner) other
    | field p found => exact .field p found
    | index n p q => exact .index n p q
    | wildcard p q => exact .wildcard p q
    | descent p found => exact .descent p found
    | starInBrackets p q r => exact .starInBrackets p q r
    | nameInBrackets name p q r => exact .nameInBrackets name p q r

/-- What derives with some operands derives with more of them. -/
theorem Combination.widen {op : BoolOp} (wider : ∀ s e, Nested s e → Wider s e)
    {s : List Located} {e : Expr} (combination : Combination op Nested s e) :
    Combination op Wider s e := by
  induction combination with
  | operand only => exact .operand (wider _ _ only)
  | combine p _ last before => exact .combine p before (wider _ _ last)

/-- One level more derives all that was derived before. -/
theorem Derives.succ {levels : Nat} : ∀ {s : List Located} {e : Expr},
    Derives levels s e → Derives (levels + 1) s e := by
  induction levels with
  | zero => exact fun derived => derived.elim
  | succ levels deeper =>
    intro s e derived
    have paths : ∀ s e, Path (Derives levels) s e → Path (Derives (levels + 1)) s e :=
      fun _ _ path => path.widen fun _ _ inner => deeper inner
    exact Combination.widen (fun _ _ conjunction => conjunction.widen paths) derived

/-- More levels derive all that fewer do. -/
theorem Derives.mono {few many : Nat} (more : few ≤ many) {s : List Located} {e : Expr}
    (derived : Derives few s e) : Derives many s e := by
  induction more with
  | refl => exact derived
  | step _ later => exact later.succ

/-! ## How phrases begin

In brackets a lone `*` or name is told from an expression by the token behind it. That is no
guess: an expression never goes on with a closing bracket behind its first token.
-/

/-- There is a token, and if the first means something else alone, no closing bracket is next. -/
def Guarded (s : List Located) : Prop :=
  s ≠ [] ∧ ∀ first second later, s = first :: second :: later →
    standsAlone first.token = true → second.token ≠ .rightBracket

/-- Guarded tokens stay guarded when others than a closing bracket go on behind them. -/
theorem Guarded.append {s t : List Located} {next : Located} (front : Guarded s)
    (goesOn : next.token ≠ .rightBracket) : Guarded (s ++ next :: t) := by
  refine ⟨by simp, ?_⟩
  intro first second later same alone
  match s, front with
  | [], front => exact absurd rfl front.1
  | [_], _ =>
    obtain ⟨-, rfl, -⟩ : _ ∧ next = second ∧ t = later := by simpa using same
    exact goesOn
  | a :: b :: more, front =>
    obtain ⟨rfl, rfl, -⟩ : a = first ∧ b = second ∧ _ := by simpa using same
    exact front.2 a b more rfl alone

/-- What derives an expression other than a lone `*` or name does not read as one of these in
brackets. -/
theorem Guarded.not_closed {s rest : List Located} (guarded : Guarded s) (other : ¬ Lone s)
    {r : Nat} {first second : Located} {later : List Located}
    (same : s ++ ⟨.rightBracket, r⟩ :: rest = first :: second :: later)
    (alone : standsAlone first.token = true) : second.token ≠ .rightBracket := by
  match s, guarded, other with
  | [], guarded, _ => exact absurd rfl guarded.1
  | [only], _, other =>
    obtain ⟨rfl, -⟩ := List.cons.inj same
    exact absurd ⟨only, rfl, alone⟩ other
  | a :: b :: more, guarded, _ =>
    obtain ⟨rfl, rfl, -⟩ : a = first ∧ b = second ∧ _ := by simpa using same
    exact guarded.2 a b more rfl alone

/-- The start of a path is guarded. -/
theorem Primary.guarded {s : List Located} {e : Expr} (start : Primary Nested s e) :
    Guarded s := by
  cases start with
  | root | name | star | literal => exact ⟨by simp, by simp⟩
  | descent p found | group p q inner =>
    refine ⟨by simp, ?_⟩
    intro first second later same alone
    obtain ⟨rfl, -⟩ := List.cons.inj same
    cases alone

/-- A step begins with a token that introduces steps. -/
theorem StepAt.begins {p : Nat} {s : List Located} {step : Step} (found : StepAt Nested p s step) :
    ∃ token later, s = ⟨token, p⟩ :: later ∧ opensStep token = true := by
  cases found <;> exact ⟨_, _, rfl, rfl⟩

/-- A path is guarded. -/
theorem Path.guarded {s : List Located} {e : Expr} (path : Path Nested s e) : Guarded s := by
  induction path with
  | primary start => exact start.guarded
  | step p _ last before =>
    obtain ⟨token, later, rfl, opens⟩ := last.begins
    refine before.append ?_
    rintro rfl
    cases opens

/-- A combination of guarded operands is guarded. -/
theorem Combination.guarded {op : BoolOp} (operands : ∀ s e, Nested s e → Guarded s)
    {s : List Located} {e : Expr} (combination : Combination op Nested s e) : Guarded s := by
  induction combination with
  | operand only => exact operands _ _ only
  | combine p _ _ before => exact before.append (by cases op <;> simp [Parser.operator])

/-- What derives an expression is guarded. -/
theorem Derives.guarded {levels : Nat} {s : List Located} {e : Expr}
    (derived : Derives levels s e) : Guarded s := by
  cases levels with
  | zero => exact derived.elim
  | succ levels =>
    exact Combination.guarded (fun _ _ => Combination.guarded fun _ _ => Path.guarded) derived

/-! ## Other places

What tokens derive depends on their places only in the places of the expression.
-/

/-- Tokens at other places derive an expression that is equal up to its places. -/
def PlaceFree (Phrase : List Located → Expr → Prop) : Prop :=
  ∀ {s t : List Located} {e : Expr}, Phrase s e → t.map Located.token = s.map Located.token →
    ∃ f, Phrase t f ∧ f.unplaced = e.unplaced

end PathQuery.Grammar
