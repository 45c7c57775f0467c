import PathQuery.Proofs.Shape
/-!
# Short circuits

A tree of combinators over expressions that are not vector-typed is evaluated from left to right.
An operand that decides a combination, or that fails, keeps everything on its right in that
combination from being reached. The result is the truth value that the tree has as a Boolean
formula, or the error of the last leaf that was reached. The leaves that are not reached do not
matter: any expression can stand in their place.
-/
namespace PathQuery

/-! ## Formulas -/

/-- One of the two operands of a combinator. -/
inductive Side where
  /-- The first operand. -/
  | left
  /-- The second operand. -/
  | right
deriving DecidableEq

/-- A tree of combinators with expressions as its leaves. A leaf is told from the others by the
path to it, the operands to take from the root on. -/
inductive Formula where
  /-- An expression, of any kind. -/
  | leaf (operand : Expr)
  /-- Two trees combined. -/
  | node (position : Nat) (op : BoolOp) (left right : Formula)

namespace Formula

/-- The expression that a tree is. -/
def expr : Formula → Expr
  | leaf operand => operand
  | node position op left right => .boolean position op left.expr right.expr

/-- The leaf at the end of a path, if there is one. -/
def leaf? : Formula → List Side → Option Expr
  | leaf operand, [] => some operand
  | node _ _ left _, .left :: path => left.leaf? path
  | node _ _ _ right, .right :: path => right.leaf? path
  | _, _ => none

/-- The tree with another expression for each leaf. -/
def replace (new : List Side → Expr → Expr) : Formula → Formula
  | leaf operand => leaf (new [] operand)
  | node position op left right =>
    node position op (left.replace fun path => new (.left :: path))
      (right.replace fun path => new (.right :: path))

/-- The value of a tree as a Boolean formula, from the truth values of all its leaves. -/
def value (truth : List Side → Bool) : Formula → Bool
  | leaf _ => truth []
  | node _ .and left right =>
    left.value (fun path => truth (.left :: path)) && right.value fun path => truth (.right :: path)
  | node _ .or left right =>
    left.value (fun path => truth (.left :: path)) || right.value fun path => truth (.right :: path)

/-- One path leads to a leaf on the left of the other. -/
inductive Before : List Side → List Side → Prop where
  /-- They part at a combinator. -/
  | parted (first second : List Side) : Before (.left :: first) (.right :: second)
  /-- They part later. -/
  | later (side : Side) {first second : List Side} (before : Before first second) :
    Before (side :: first) (side :: second)

/-- The paths to the leaves that are reached, in order, and the answer that comes of them: a truth
value, or an error. -/
inductive Runs (document : Node) : Formula → List (List Side) → Except EvalError Bool → Prop where
  /-- A leaf answers with its truth value. -/
  | leaf (operand : Expr) : Runs document (leaf operand) [[]] (operand.evalAsBoolean document)
  /-- An error on the left is the answer. -/
  | failed {position : Nat} {op : BoolOp} {left right : Formula} {reached : List (List Side)}
    {e : EvalError} (first : Runs document left reached (.error e)) :
    Runs document (node position op left right) (reached.map (.left :: ·)) (.error e)
  /-- A truth value on the left that decides is the answer. -/
  | decided {position : Nat} {op : BoolOp} {left right : Formula} {reached : List (List Side)}
    (first : Runs document left reached (.ok op.decisive)) :
    Runs document (node position op left right) (reached.map (.left :: ·)) (.ok op.decisive)
  /-- Otherwise the right operand is reached, and its answer is the answer. -/
  | passed {position : Nat} {op : BoolOp} {left right : Formula} {reached more : List (List Side)}
    {answer : Except EvalError Bool} (first : Runs document left reached (.ok !op.decisive))
    (second : Runs document right more answer) :
    Runs document (node position op left right)
      (reached.map (.left :: ·) ++ more.map (.right :: ·)) answer

variable {document : Node} {t : Formula} {reached : List (List Side)}
  {answer : Except EvalError Bool}

/-- Every tree has an answer. -/
theorem exists_runs (document : Node) (t : Formula) :
    ∃ reached answer, t.Runs document reached answer := by
  induction t with
  | leaf operand => exact ⟨_, _, .leaf operand⟩
  | node position op left right ofLeft ofRight =>
    obtain ⟨reached, answer, first⟩ := ofLeft
    obtain ⟨more, behind, second⟩ := ofRight
    cases answer with
    | error e => exact ⟨_, _, .failed first⟩
    | ok b =>
      by_cases decides : b = op.decisive
      · subst decides
        exact ⟨_, _, .decided first⟩
      · obtain rfl := Bool.eq_not_of_ne decides
        exact ⟨_, _, .passed first second⟩

/-- A tree reaches the same leaves every time, and has one answer. -/
theorem Runs.unique {reached' : List (List Side)} {answer' : Except EvalError Bool}
    (runs : t.Runs document reached answer) (again : t.Runs document reached' answer') :
    reached = reached' ∧ answer = answer' := by
  induction runs generalizing reached' answer' with
  | leaf =>
    cases again
    exact ⟨rfl, rfl⟩
  | failed _ ih =>
    cases again with
    | failed first =>
      obtain ⟨rfl, same⟩ := ih first
      exact ⟨rfl, same⟩
    | decided first | passed first => cases (ih first).2
  | @decided _ op _ _ _ _ ih =>
    cases again with
    | failed first => cases (ih first).2
    | decided first =>
      obtain ⟨rfl, -⟩ := ih first
      exact ⟨rfl, rfl⟩
    | passed first => cases op <;> cases (ih first).2
  | @passed _ op _ _ _ _ _ _ _ ofLeft ofRight =>
    cases again with
    | failed first => cases (ofLeft first).2
    | decided first => cases op <;> cases (ofLeft first).2
    | passed first second =>
      obtain ⟨rfl, -⟩ := ofLeft first
      obtain ⟨rfl, rfl⟩ := ofRight second
      exact ⟨rfl, rfl⟩

/-- Leaves are reached from left to right, each of them once. -/
theorem Runs.ordered (runs : t.Runs document reached answer) : reached.Pairwise Before := by
  induction runs with
  | leaf => exact List.pairwise_singleton _ _
  | failed _ ih => exact List.pairwise_map.2 (ih.imp (.later .left))
  | decided _ ih => exact List.pairwise_map.2 (ih.imp (.later .left))
  | passed _ _ ofLeft ofRight =>
    refine List.pairwise_append.2 ⟨List.pairwise_map.2 (ofLeft.imp (.later .left)),
      List.pairwise_map.2 (ofRight.imp (.later .right)), ?_⟩
    intro path onLeft path' onRight
    obtain ⟨first, -, rfl⟩ := List.mem_map.1 onLeft
    obtain ⟨second, -, rfl⟩ := List.mem_map.1 onRight
    exact .parted first second

/-- With an answer that is a truth value every leaf that was reached has one. -/
theorem Runs.succeeded (runs : t.Runs document reached answer) {b : Bool} (same : answer = .ok b) :
    ∀ path ∈ reached, ∃ leaf c, t.leaf? path = some leaf ∧
      leaf.evalAsBoolean document = .ok c := by
  induction runs generalizing b with
  | leaf operand =>
    intro path member
    obtain rfl := List.mem_singleton.1 member
    exact ⟨operand, b, rfl, same⟩
  | failed => cases same
  | decided _ ih =>
    intro path member
    obtain ⟨first, inside, rfl⟩ := List.mem_map.1 member
    exact ih rfl first inside
  | passed _ _ ofLeft ofRight =>
    intro path member
    rcases List.mem_append.1 member with onLeft | onRight
    · obtain ⟨first, inside, rfl⟩ := List.mem_map.1 onLeft
      exact ofLeft rfl first inside
    · obtain ⟨second, inside, rfl⟩ := List.mem_map.1 onRight
      exact ofRight same second inside

/-- An error is that of the leaf that was reached last, and the leaves before it have truth
values. -/
theorem Runs.stopped (runs : t.Runs document reached answer) {e : EvalError}
    (same : answer = .error e) : ∃ before last leaf, reached = before ++ [last] ∧
      t.leaf? last = some leaf ∧ leaf.eval document = .error e ∧
      ∀ path ∈ before, ∃ leaf c, t.leaf? path = some leaf ∧
        leaf.evalAsBoolean document = .ok c := by
  induction runs with
  | leaf operand => exact ⟨[], [], operand, rfl, rfl, error_of_map same, nofun⟩
  | failed _ ih =>
    obtain ⟨before, last, leaf, rfl, found, failed, earlier⟩ := ih same
    refine ⟨before.map (.left :: ·), .left :: last, leaf, List.map_append, found, failed, ?_⟩
    intro path member
    obtain ⟨first, inside, rfl⟩ := List.mem_map.1 member
    exact earlier first inside
  | decided => cases same
  | @passed position op left right reached more answer first _ _ ofRight =>
    obtain ⟨before, last, leaf, rfl, found, failed, earlier⟩ := ofRight same
    refine ⟨reached.map (.left :: ·) ++ before.map (.right :: ·), .right :: last, leaf, ?_, found,
      failed, ?_⟩
    · rw [List.map_append, List.append_assoc]
      rfl
    · intro path member
      rcases List.mem_append.1 member with onLeft | onRight
      · obtain ⟨path, inside, rfl⟩ := List.mem_map.1 onLeft
        exact first.succeeded rfl path inside
      · obtain ⟨path, inside, rfl⟩ := List.mem_map.1 onRight
        exact earlier path inside

/-- A truth value is that of the Boolean formula, whatever the leaves count for that were not
reached. -/
theorem Runs.value (runs : t.Runs document reached answer) {b : Bool} (same : answer = .ok b)
    (truth : List Side → Bool) (agrees : ∀ path ∈ reached, ∀ leaf, t.leaf? path = some leaf →
      leaf.evalAsBoolean document = .ok (truth path)) : t.value truth = b := by
  induction runs generalizing b truth with
  | leaf operand =>
    have own := agrees [] List.mem_cons_self operand rfl
    exact Except.ok.inj (own.symm.trans same)
  | failed => cases same
  | @decided position op left right reached _ ih =>
    obtain rfl := Except.ok.inj same
    have ofLeft := ih rfl (fun path => truth (.left :: path)) fun path inside =>
      agrees (.left :: path) (List.mem_map_of_mem inside)
    cases op <;> simp only [Formula.value, ofLeft, BoolOp.decisive, Bool.false_and, Bool.true_or]
  | @passed position op left right reached more answer _ _ onLeft onRight =>
    have ofLeft := onLeft rfl (fun path => truth (.left :: path)) fun path inside =>
      agrees (.left :: path) (List.mem_append_left _ (List.mem_map_of_mem inside))
    have ofRight := onRight same (fun path => truth (.right :: path)) fun path inside =>
      agrees (.right :: path) (List.mem_append_right _ (List.mem_map_of_mem inside))
    cases op <;> simp only [Formula.value, ofLeft, ofRight, BoolOp.decisive, Bool.not_false,
      Bool.not_true, Bool.true_and, Bool.false_or]

/-- Other expressions in place of leaves that were not reached change neither the leaves that are
reached nor the answer. -/
theorem Runs.replace (runs : t.Runs document reached answer) {new : List Side → Expr → Expr}
    (kept : ∀ path ∈ reached, ∀ leaf, t.leaf? path = some leaf → new path leaf = leaf) :
    (t.replace new).Runs document reached answer := by
  induction runs generalizing new with
  | leaf operand =>
    have same := kept [] List.mem_cons_self operand rfl
    rw [Formula.replace, same]
    exact .leaf operand
  | failed _ ih =>
    exact .failed (ih fun path inside => kept (.left :: path) (List.mem_map_of_mem inside))
  | decided _ ih =>
    exact .decided (ih fun path inside => kept (.left :: path) (List.mem_map_of_mem inside))
  | passed _ _ ofLeft ofRight =>
    exact .passed
      (ofLeft fun path inside =>
        kept (.left :: path) (List.mem_append_left _ (List.mem_map_of_mem inside)))
      (ofRight fun path inside =>
        kept (.right :: path) (List.mem_append_right _ (List.mem_map_of_mem inside)))

/-- The leaves of a tree with other leaves are those put in their places. -/
theorem leaf?_replace (new : List Side → Expr → Expr) (t : Formula) (path : List Side) :
    (t.replace new).leaf? path = (t.leaf? path).map (new path) := by
  induction t generalizing new path with
  | leaf operand => cases path <;> rfl
  | node position op left right ofLeft ofRight =>
    rcases path with - | ⟨side, path⟩
    · rfl
    · cases side with
      | left => exact ofLeft (fun path => new (.left :: path)) path
      | right => exact ofRight (fun path => new (.right :: path)) path

end Formula

/-! ## Single operands -/

/-- A left operand that does not decide leaves the result to the right one. -/
theorem BoolOp.apply_undecided {op : BoolOp} {left : Bool} (right : Bool)
    (undecided : left ≠ op.decisive) : op.apply left right = right := by
  cases op <;> cases left <;> first | rfl | exact absurd rfl undecided

namespace Expr

variable {document : Node} {e left right : Expr} {position : Nat} {op : BoolOp}
  {answer : Except EvalError Bool} {error : EvalError} {b : Bool}

/-- The result of an expression is one node with a truth value, or an error. -/
inductive Answers (document : Node) (e : Expr) : Except EvalError Bool → Prop where
  /-- There is a node. -/
  | node {node : Node} (evaluated : e.eval document = .ok (.single node)) :
    Answers document e (.ok node.isTrue)
  /-- There is an error. -/
  | error {error : EvalError} (failed : e.eval document = .error error) :
    Answers document e (.error error)

/-- An expression that is not vector-typed answers with its truth value. -/
theorem answers_of_scalar (scalar : e.isVector = false) :
    e.Answers document (e.evalAsBoolean document) := by
  unfold evalAsBoolean
  cases evaluated : e.eval document with
  | error error => exact .error evaluated
  | ok value =>
    cases shaped_of_eval evaluated with
    | single node => exact .node evaluated
    | truth b => exact .node evaluated
    | vector nodes vector => cases scalar.symm.trans vector

/-- The answer of an expression is its truth value. -/
theorem Answers.evalAsBoolean (answers : e.Answers document answer) :
    e.evalAsBoolean document = answer := by
  unfold Expr.evalAsBoolean
  cases answers with
  | node evaluated => rw [evaluated]; rfl
  | error failed => rw [failed]; rfl

/-- An expression that evaluates to a truth value answers with it. -/
theorem answers_of_truth
    (evaluated : e.eval document = answer.map fun b => .single (.boolean b)) :
    e.Answers document answer := by
  cases answer with
  | error error => exact .error evaluated
  | ok b => exact @Answers.node document e (.boolean b) evaluated

/-- An error of the left operand is an error of the combination. -/
theorem eval_boolean_failed (ofLeft : left.Answers document (.error error)) :
    (boolean position op left right).eval document = .error error := by
  cases ofLeft with
  | error failed => simp only [eval, failed]

/-- A left operand that decides is the result of the combination. -/
theorem eval_boolean_decided (ofLeft : left.Answers document (.ok op.decisive)) :
    (boolean position op left right).eval document = .ok (.single (.boolean op.decisive)) := by
  generalize same : Except.ok op.decisive = answer at ofLeft
  cases ofLeft with
  | error => cases same
  | @node node evaluated =>
    have decides : node.isTrue = op.decisive := (Except.ok.inj same).symm
    simp only [eval, evaluated, Value.scalar?, Option.map_some, decides, if_pos]

/-- Behind a left operand that does not decide the result is the truth value of the right one. -/
theorem eval_boolean_passed (ofLeft : left.Answers document (.ok !op.decisive))
    (ofRight : right.Answers document answer) :
    (boolean position op left right).eval document =
      answer.map fun b => .single (.boolean b) := by
  generalize same : Except.ok (!op.decisive) = first at ofLeft
  cases ofLeft with
  | error => cases same
  | @node node evaluated =>
    have undecided : node.isTrue ≠ op.decisive := by
      rw [← Except.ok.inj same]
      cases op <;> decide
    simp only [eval, evaluated, Value.scalar?, Option.map_some, Option.some.injEq,
      if_neg undecided]
    cases ofRight with
    | error failed => simp only [failed, Except.map]
    | @node other found =>
      have combined : Broadcast.onPairs position (.single node) (.single other)
          (fun a b => .ok (.single (.boolean (op.apply a.isTrue b.isTrue)))) =
          .ok (.single (.boolean (op.apply node.isTrue other.isTrue))) := rfl
      simp only [found, combined, BoolOp.apply_undecided other.isTrue undecided, Except.map]

end Expr

/-! ## Evaluation of formulas -/

namespace Formula

variable {document : Node} {t : Formula} {reached : List (List Side)}
  {answer : Except EvalError Bool}

/-- Where no leaf that is reached is vector-typed, the answer of a tree is what its expression
answers; and a combination evaluates to that truth value. -/
theorem Runs.eval (runs : t.Runs document reached answer)
    (scalar : ∀ path ∈ reached, ∀ leaf, t.leaf? path = some leaf → leaf.isVector = false) :
    t.expr.Answers document answer ∧
      ∀ position op left right, t = node position op left right →
        t.expr.eval document = answer.map fun b => .single (.boolean b) := by
  have combination : ∀ {t : Formula} {answer : Except EvalError Bool},
      t.expr.eval document = answer.map (fun b => .single (.boolean b)) →
      t.expr.Answers document answer ∧
        ∀ position op left right, t = node position op left right →
          t.expr.eval document = answer.map fun b => .single (.boolean b) :=
    fun evaluated => ⟨Expr.answers_of_truth evaluated, fun _ _ _ _ _ => evaluated⟩
  induction runs with
  | leaf operand =>
    exact ⟨Expr.answers_of_scalar (scalar [] List.mem_cons_self operand rfl), nofun⟩
  | failed _ ih =>
    have onLeft := ih fun path inside => scalar (.left :: path) (List.mem_map_of_mem inside)
    exact combination (Expr.eval_boolean_failed onLeft.1)
  | decided _ ih =>
    have onLeft := ih fun path inside => scalar (.left :: path) (List.mem_map_of_mem inside)
    exact combination (Expr.eval_boolean_decided onLeft.1)
  | passed _ _ ofLeft ofRight =>
    have onLeft := ofLeft fun path inside =>
      scalar (.left :: path) (List.mem_append_left _ (List.mem_map_of_mem inside))
    have onRight := ofRight fun path inside =>
      scalar (.right :: path) (List.mem_append_right _ (List.mem_map_of_mem inside))
    exact combination (Expr.eval_boolean_passed onLeft.1 onRight.1)

/-- A tree is evaluated by short circuits: some of its leaves are reached, and nothing but them
counts. -/
structure ShortCircuits (document : Node) (t : Formula) (reached : List (List Side))
    (answer : Except EvalError Bool) : Prop where
  /-- These leaves are reached and this is their answer. -/
  runs : t.Runs document reached answer
  /-- They are reached from left to right, each of them once. -/
  ordered : reached.Pairwise Before
  /-- A combination evaluates to the answer, as a truth value. -/
  combination : ∀ position op left right, t = node position op left right →
    t.expr.eval document = answer.map fun b => .single (.boolean b)
  /-- The answer is the truth of the tree, also where it is a leaf. -/
  truth : t.expr.evalAsBoolean document = answer
  /-- A truth value comes with truth values of all leaves that were reached, and is the one of the
  Boolean formula, whatever the others count for. -/
  value : ∀ b, answer = .ok b →
    (∀ path ∈ reached, ∃ leaf c, t.leaf? path = some leaf ∧
      leaf.evalAsBoolean document = .ok c) ∧
    ∀ truth : List Side → Bool,
      (∀ path ∈ reached, ∀ leaf, t.leaf? path = some leaf →
        leaf.evalAsBoolean document = .ok (truth path)) → t.value truth = b
  /-- An error is that of the leaf reached last, and the first one: no leaf before it fails. -/
  failure : ∀ e, answer = .error e → ∃ before last leaf, reached = before ++ [last] ∧
    t.leaf? last = some leaf ∧ leaf.eval document = .error e ∧
    ∀ path ∈ before, ∃ leaf c, t.leaf? path = some leaf ∧ leaf.evalAsBoolean document = .ok c
  /-- Any expressions in place of the leaves that were not reached leave the result as it is. -/
  irrelevant : ∀ new : List Side → Expr → Expr,
    (∀ path ∈ reached, ∀ leaf, t.leaf? path = some leaf → new path leaf = leaf) →
    (t.replace new).expr.eval document = t.expr.eval document

/-- Trees with the same leaves where they are reached evaluate to the same. -/
theorem Runs.eval_replace (runs : t.Runs document reached answer)
    (scalar : ∀ path ∈ reached, ∀ leaf, t.leaf? path = some leaf → leaf.isVector = false)
    {new : List Side → Expr → Expr}
    (kept : ∀ path ∈ reached, ∀ leaf, t.leaf? path = some leaf → new path leaf = leaf) :
    (t.replace new).expr.eval document = t.expr.eval document := by
  have scalar' : ∀ path ∈ reached, ∀ leaf, (t.replace new).leaf? path = some leaf →
      leaf.isVector = false := by
    intro path member leaf found
    rw [leaf?_replace] at found
    obtain ⟨old, there, rfl⟩ := Option.map_eq_some_iff.1 found
    rw [kept path member old there]
    exact scalar path member old there
  cases t with
  | leaf operand =>
    cases runs with
    | leaf => exact congrArg (Expr.eval document) (kept [] List.mem_cons_self operand rfl)
  | node position op left right =>
    have before := (runs.eval scalar).2 position op left right rfl
    have after := ((runs.replace kept).eval scalar').2 position op _ _ rfl
    exact after.trans before.symm

/-- A tree of combinators of which no leaf is vector-typed is evaluated by short circuits, whatever
its shape and the document. -/
theorem exists_shortCircuits (document : Node) (t : Formula)
    (scalar : ∀ path leaf, t.leaf? path = some leaf → leaf.isVector = false) :
    ∃ reached answer, t.ShortCircuits document reached answer := by
  obtain ⟨reached, answer, runs⟩ := exists_runs document t
  have inOrder : ∀ path ∈ reached, ∀ leaf, t.leaf? path = some leaf → leaf.isVector = false :=
    fun path _ => scalar path
  obtain ⟨answers, combination⟩ := runs.eval inOrder
  exact ⟨reached, answer,
    { runs := runs
      ordered := runs.ordered
      combination := combination
      truth := answers.evalAsBoolean
      value := fun b same => ⟨runs.succeeded same, runs.value same⟩
      failure := fun e => runs.stopped
      irrelevant := fun new => runs.eval_replace inOrder }⟩

/-- Of four leaves the second is not reached and the last fails; nothing changes with a wildcard in
place of the second, which would fail as well. -/
theorem exists_shortCircuits_mixed :
    let name (position : Nat) : Expr := .named position (.root (position - 1)) "a"
    let t : Formula :=
      node 8 .or (node 3 .and (leaf (.literal 0 (.boolean false))) (leaf (name 6)))
        (node 14 .and (leaf (.literal 11 (.integer 0))) (leaf (name 17)))
    let reached : List (List Side) := [[.left, .left], [.right, .left], [.right, .right]]
    let failed : EvalError := .runtime 17 (.nameOnOther .null)
    t.ShortCircuits .null reached (.error failed) ∧ t.expr.eval .null = .error failed ∧
      (t.replace fun path leaf => if path = [.left, .right] then .wildcard 6 (.root 5) else leaf
        ).expr.eval .null = .error failed := by
  intro name t reached failed
  have constant : (leaf (.literal 0 (.boolean false))).Runs .null [[]] (.ok BoolOp.and.decisive) :=
    .leaf _
  have number : (leaf (.literal 11 (.integer 0))).Runs .null [[]] (.ok !BoolOp.and.decisive) :=
    .leaf _
  have nameless : (leaf (name 17)).Runs .null [[]] (.error failed) := .leaf _
  have first : (node 3 .and (leaf (.literal 0 (.boolean false))) (leaf (name 6))).Runs .null
      [[.left]] (.ok !BoolOp.or.decisive) := .decided constant
  have runs : t.Runs .null reached (.error failed) := .passed first (.passed number nameless)
  have scalar : ∀ path leaf, t.leaf? path = some leaf → leaf.isVector = false := by
    intro path leaf found
    match path, found with
    | [.left, .left], rfl | [.left, .right], rfl => rfl
    | [.right, .left], rfl | [.right, .right], rfl => rfl
  obtain ⟨_, _, circuits⟩ := exists_shortCircuits .null t scalar
  obtain ⟨rfl, rfl⟩ := circuits.runs.unique runs
  have evaluated : t.expr.eval .null = .error failed := circuits.combination 8 .or _ _ rfl
  refine ⟨circuits, evaluated, (circuits.irrelevant _ fun path member leaf _ => ?_).trans evaluated⟩
  refine if_neg ?_
  rintro rfl
  exact absurd member (by decide)

end Formula

end PathQuery
