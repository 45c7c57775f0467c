import PathQuery.Proofs.Chains
/-!
# The shape of results

The vector type of an expression is known without a document, and it tells the shape of every
result. One expression alone is an exception: a combination that is vector-typed may be decided by
a single left operand and is a truth value then. No step can take that exception further, since a
truth value is no container: the step fails, or it is a descent and gives a vector again.
-/
namespace PathQuery

/-! ## Broadcasting -/

namespace Broadcast

variable {position : Nat} {values : List Value} {compute : List Node → Except EvalError Value}

/-- Without a vector the operator is computed once. -/
theorem apply_of_scalars (scalars : ∀ value ∈ values, value.isVector = false) :
    apply position values compute = compute (values.map first) := by
  have none : lengths values = [] := by
    refine List.filterMap_eq_nil_iff.2 fun value member => ?_
    have scalar := scalars value member
    cases value with
    | vector => cases scalar
    | absent | single => rfl
  simp only [apply, none]

/-- With a vector the result is a vector. -/
theorem vector_of_apply {value result : Value} (member : value ∈ values)
    (vector : value.isVector = true) (computed : apply position values compute = .ok result) :
    ∃ nodes, result = .vector nodes := by
  have some : lengths values ≠ [] := by
    intro none
    have dropped := List.filterMap_eq_nil_iff.1 none value member
    cases value with
    | vector => cases dropped
    | absent | single => cases vector
  unfold apply at computed
  split at computed
  · next none => exact absurd none some
  · split at computed
    · cases computed
    · obtain ⟨nodes, -, made⟩ := exists_of_map_ok computed
      exact ⟨nodes, made.symm⟩

end Broadcast

/-! ## Shapes -/

/-- Whether the expression combines two expressions. -/
def Expr.isCombination : Expr → Bool
  | .boolean .. => true
  | _ => false

/-- The value has the shape that the vector type of the expression tells. -/
inductive Expr.Shaped (e : Expr) : Value → Prop where
  /-- One node, of an expression that is not vector-typed. -/
  | single (node : Node) (scalar : e.isVector = false) : Shaped e (.single node)
  /-- A vector, of an expression that is vector-typed. -/
  | vector (nodes : List Node) (vector : e.isVector = true) : Shaped e (.vector nodes)
  /-- A truth value, of a combination. -/
  | truth (b : Bool) (combination : e.isCombination = true) : Shaped e (.single (.boolean b))

namespace Step

variable {document : Node} {position : Nat} {step : Step} {object : Expr} {value result : Value}

/-- Whether the step gives a vector even for a single node. -/
def isVector : Step → Bool
  | .wildcard | .descent _ => true
  | .key _ | .field _ | .index _ => false

/-- Behind a step an expression is vector-typed if it was before or the step makes it so. -/
theorem isVector_apply (object : Expr) :
    (step.apply position object).isVector = (step.isVector || object.isVector) := by
  cases step <;> rfl

/-- On a single node a step gives one node or a vector, as the kind of the step tells. -/
theorem onValue_single {node : Node}
    (computed : step.onValue document position (.single node) = .ok result) :
    (step.isVector = false ∧ ∃ found, result = .single found) ∨
      step.isVector = true ∧ ∃ nodes, result = .vector nodes := by
  cases step with
  | key k =>
    simp only [onValue] at computed
    split at computed
    · cases computed
    · obtain ⟨found, -, rfl⟩ := Broadcast.exists_of_map_ok computed
      exact .inl ⟨rfl, found, rfl⟩
  | field | index =>
    obtain ⟨found, -, rfl⟩ := Broadcast.exists_of_map_ok computed
    exact .inl ⟨rfl, found, rfl⟩
  | wildcard =>
    obtain ⟨nodes, -, rfl⟩ := Broadcast.exists_of_map_ok computed
    exact .inr ⟨rfl, nodes, rfl⟩
  | descent => exact .inr ⟨rfl, _, (Except.ok.inj computed).symm⟩

/-- A step keeps the shape of a result that of its expression. -/
theorem shaped_onValue (shaped : object.Shaped value)
    (computed : step.onValue document position value = .ok result) :
    (step.apply position object).Shaped result := by
  have single : ∀ node, object.isVector = false →
      step.onValue document position (.single node) = .ok result →
      (step.apply position object).Shaped result := by
    intro node scalar computed
    rcases onValue_single computed with ⟨kind, found, rfl⟩ | ⟨kind, nodes, rfl⟩
    · exact .single found (by rw [isVector_apply, kind, scalar, Bool.or_false])
    · exact .vector nodes (by rw [isVector_apply, kind, Bool.true_or])
  cases shaped with
  | single node scalar => exact single node scalar computed
  | vector nodes vector =>
    rw [onValue_vector] at computed
    obtain ⟨all, -, rfl⟩ := Broadcast.exists_of_map_ok computed
    exact .vector all (by rw [isVector_apply, vector, Bool.or_true])
  | truth b combination =>
    -- a truth value is a scalar: what a step still makes of it is a vector of nothing
    by_cases vector : object.isVector = true
    · obtain rfl := onValue_scalar rfl computed
      exact .vector [] (by rw [isVector_apply, vector, Bool.or_true])
    · exact single _ (Bool.eq_false_iff.2 vector) computed

end Step

namespace Expr

variable {document : Node} {e object left right : Expr} {position : Nat} {op : BoolOp}
  {value first second result : Value}

/-- The result of a shaped operand is a vector only where the operand is vector-typed. -/
theorem Shaped.isVector (shaped : e.Shaped value) (vector : value.isVector = true) :
    e.isVector = true := by
  cases shaped with
  | vector _ typed => exact typed
  | single | truth => cases vector

/-- Two operands of some shapes are combined to a result of the shape of their combination. -/
theorem shaped_onPairs {compute : Node → Node → Bool} (shapedLeft : left.Shaped first)
    (shapedRight : right.Shaped second)
    (computed : Broadcast.onPairs position first second
      (fun a b => .ok (.single (.boolean (compute a b)))) = .ok result) :
    (Expr.boolean position op left right).Shaped result := by
  unfold Broadcast.onPairs at computed
  by_cases vector : first.isVector = true ∨ second.isVector = true
  · obtain ⟨nodes, rfl⟩ : ∃ nodes, result = .vector nodes := by
      rcases vector with vector | vector
      · exact Broadcast.vector_of_apply List.mem_cons_self vector computed
      · exact Broadcast.vector_of_apply (List.mem_cons_of_mem _ List.mem_cons_self) vector computed
    refine .vector nodes (Bool.or_eq_true_iff.2 ?_)
    exact vector.imp shapedLeft.isVector shapedRight.isVector
  · obtain ⟨scalarFirst, scalarSecond⟩ := not_or.1 vector
    have scalars : ∀ value ∈ [first, second], value.isVector = false := by
      intro value member
      rcases List.mem_cons.1 member with rfl | member
      · exact Bool.eq_false_iff.2 scalarFirst
      · exact List.mem_singleton.1 member ▸ Bool.eq_false_iff.2 scalarSecond
    rw [Broadcast.apply_of_scalars scalars] at computed
    obtain rfl := Except.ok.inj computed
    exact .truth _ rfl

/-- A step behind an expression has shaped results if the expression has. -/
theorem shaped_apply (step : Step)
    (shaped : ∀ {value}, object.eval document = .ok value → object.Shaped value)
    (evaluated : (step.apply position object).eval document = .ok result) :
    (step.apply position object).Shaped result := by
  rw [Step.eval_apply] at evaluated
  cases before : object.eval document with
  | error e =>
    rw [before] at evaluated
    cases evaluated
  | ok value =>
    rw [before] at evaluated
    exact Step.shaped_onValue (shaped before) evaluated

/-- Every result has the shape that the vector type tells. -/
theorem shaped_of_eval (evaluated : e.eval document = .ok result) : e.Shaped result := by
  induction e generalizing result with
  | root p =>
    obtain rfl := Except.ok.inj evaluated
    exact .single _ rfl
  | literal p node =>
    obtain rfl := Except.ok.inj evaluated
    exact .single _ rfl
  | field p object key shaped _ => exact shaped_apply (.key key) shaped evaluated
  | index p object n shaped => exact shaped_apply (.index n) shaped evaluated
  | wildcard p object shaped => exact shaped_apply .wildcard shaped evaluated
  | descent p object name shaped => exact shaped_apply (.descent name) shaped evaluated
  | boolean p op left right shapedLeft shapedRight =>
    simp only [eval] at evaluated
    split at evaluated
    · cases evaluated
    · next first evaluatedLeft =>
      split at evaluated
      · obtain rfl := Except.ok.inj evaluated
        exact .truth _ rfl
      · split at evaluated
        · cases evaluated
        · next second evaluatedRight =>
          exact shaped_onPairs (shapedLeft evaluatedLeft) (shapedRight evaluatedRight) evaluated

/-- An expression never has an absent result. It has one node if it is not vector-typed. If it is,
it has a vector, or it is a combination and has a truth value. -/
theorem shape_of_eval (evaluated : e.eval document = .ok value) :
    value ≠ .absent ∧
    (e.isVector = false → ∃ node, value = .single node) ∧
    (e.isVector = true → (∃ nodes, value = .vector nodes) ∨
      e.isCombination = true ∧ ∃ b, value = .single (.boolean b)) := by
  cases shaped_of_eval evaluated with
  | single node scalar =>
    exact ⟨nofun, fun _ => ⟨node, rfl⟩, fun vector => absurd vector (by simp [scalar])⟩
  | vector nodes vector =>
    exact ⟨nofun, fun scalar => absurd vector (by simp [scalar]), fun _ => .inl ⟨nodes, rfl⟩⟩
  | truth b combination =>
    exact ⟨nofun, fun _ => ⟨_, rfl⟩, fun _ => .inr ⟨combination, b, rfl⟩⟩

/-- The children of an object in a document are a vector, one of them is a single node, and a
vector-typed combination that its left operand decides is a truth value. -/
theorem shape_of_eval_decided :
    let document : Node := .object [("a", .object [("b", .integer 1), ("c", .null)])]
    let object : Expr := named 2 (.root 0) "a"
    let children : Expr := .wildcard 4 object
    let child : Expr := named 4 object "b"
    let decided : Expr := .boolean 6 .and (.literal 0 (.boolean false)) children
    (children.eval document = .ok (.vector [.integer 1, .null]) ∧ children.isVector = true ∧
      Value.vector [.integer 1, .null] ≠ .absent ∧
      ((∃ nodes, Value.vector [.integer 1, .null] = .vector nodes) ∨
        children.isCombination = true ∧
          ∃ b, Value.vector [.integer 1, .null] = .single (.boolean b))) ∧
    (child.eval document = .ok (.single (.integer 1)) ∧ child.isVector = false ∧
      Value.single (.integer 1) ≠ .absent ∧ ∃ node, Value.single (.integer 1) = .single node) ∧
    decided.eval document = .ok (.single (.boolean false)) ∧ decided.isVector = true ∧
    ((∃ nodes, Value.single (.boolean false) = .vector nodes) ∨
      decided.isCombination = true ∧
        ∃ b, Value.single (.boolean false) = .single (.boolean b)) := by
  intro document object children child decided
  have many : children.eval document = .ok (.vector [.integer 1, .null]) := rfl
  have one : child.eval document = .ok (.single (.integer 1)) := rfl
  have truth : decided.eval document = .ok (.single (.boolean false)) := rfl
  obtain ⟨present, -, vector⟩ := shape_of_eval many
  obtain ⟨presentOne, single, -⟩ := shape_of_eval one
  obtain ⟨-, -, combination⟩ := shape_of_eval truth
  exact ⟨⟨many, rfl, present, vector rfl⟩, ⟨one, rfl, presentOne, single rfl⟩, truth, rfl,
    combination rfl⟩

end Expr

end PathQuery
