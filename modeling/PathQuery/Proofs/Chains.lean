import PathQuery.Eval
/-!
# Chains of steps

What steps make of a value, apart from the expression they stand in. A step on a vector is the step
on every node of it, with the results put together; so it does not matter whether a chain of steps
is applied to a vector as a whole or to its nodes one by one.
-/
namespace PathQuery

/-- What is made of a result makes no error of its own. -/
theorem error_of_map {α β : Type} {make : α → β} {computed : Except EvalError α} {e : EvalError}
    (failed : computed.map make = .error e) : computed = .error e := by
  cases computed with
  | error e => exact congrArg Except.error (Except.error.inj failed)
  | ok a => cases failed

namespace Broadcast

/-- A result that is made of something that was computed has it. -/
theorem exists_of_map_ok {α : Type} {computed : Except EvalError α} {make : α → Value}
    {result : Value} (mapped : computed.map make = .ok result) :
    ∃ found, computed = .ok found ∧ make found = result := by
  cases computed with
  | error e => cases mapped
  | ok found => exact ⟨found, rfl, Except.ok.inj mapped⟩

variable {α : Type} {compute : α → Except EvalError Value}

/-- Rows that are all computed contribute the nodes of their results in order. -/
theorem collect_of_map {rows : List α} {results : List Value}
    (computed : rows.map compute = results.map .ok) :
    collect compute rows = .ok (results.flatMap Value.nodes) := by
  induction rows generalizing results with
  | nil =>
    obtain rfl := List.map_eq_nil_iff.1 computed.symm
    rfl
  | cons row later ih =>
    obtain ⟨result, others, rfl, same, rest⟩ := List.map_eq_cons_iff.1 computed.symm
    simp only [collect, ← same, ih rest.symm, List.flatMap_cons]

/-- Behind rows that are collected the others are collected as they are alone. -/
theorem collect_append_of_front {front back : List α} {a : List Node}
    (first : collect compute front = .ok a) :
    collect compute (front ++ back) = (collect compute back).map (a ++ ·) := by
  induction front generalizing a with
  | nil =>
    obtain rfl := Except.ok.inj first
    cases collected : collect compute back <;> exact collected
  | cons row later ih =>
    simp only [collect] at first
    split at first
    · cases first
    · next value computed =>
      split at first
      · cases first
      · next nodes collected =>
        obtain rfl := Except.ok.inj first
        simp only [List.cons_append, collect, computed, ih collected]
        cases collect compute back with
        | error e => rfl
        | ok b => simp only [Except.map, List.append_assoc]

/-- Rows can be collected in two parts. -/
theorem collect_append {front back : List α} {a b : List Node}
    (first : collect compute front = .ok a) (second : collect compute back = .ok b) :
    collect compute (front ++ back) = .ok (a ++ b) := by
  rw [collect_append_of_front first, second]
  rfl

end Broadcast

namespace Select

/-! ## Scalars

Nothing can be looked up in a node that is no container, and a descent finds nothing there.
-/

variable (position : Nat) {object : Node}

/-- No key can be looked up in a scalar. -/
theorem byKey_scalar (key : Node) (scalar : object.isContainer = false) :
    ∃ e, byKey position key object = .error e := by
  obtain ⟨noArray, noObject⟩ := Bool.or_eq_false_iff.1 scalar
  unfold byKey
  split
  · simp [noObject]
  · simp [noArray]
  · exact ⟨_, rfl⟩

/-- No index can be looked up in a scalar. -/
theorem byIndex_scalar (index : Int) (scalar : object.isContainer = false) :
    ∃ e, byIndex position index object = .error e := by
  obtain ⟨noArray, -⟩ := Bool.or_eq_false_iff.1 scalar
  exact ⟨_, if_neg (by simp [noArray])⟩

/-- A scalar has no children to select. -/
theorem children_scalar (scalar : object.isContainer = false) :
    ∃ e, children position object = .error e := by
  cases object with
  | array | object => cases scalar
  | null | boolean | integer | float | string | missing => exact ⟨_, rfl⟩

/-- A descent finds nothing in a scalar. -/
theorem descend_scalar (name : Option String) (scalar : object.isContainer = false) :
    descend name object = [] := by
  cases object with
  | array | object => cases scalar
  | null | boolean | integer | float | string | missing => simp only [descend]

end Select

/-! ## Steps on values -/

namespace Step

variable {document : Node} {position : Nat} {step : Step}

/-- The result of a step on a value. A computed key is evaluated against the document, unless there
is no node to apply it to. -/
def onValue (document : Node) (position : Nat) (step : Step) (value : Value) :
    Except EvalError Value :=
  match step with
  | .key k =>
    match value with
    | .vector [] => .ok (.vector [])
    | value =>
      match k.eval document with
      | .error e => .error e
      | .ok found =>
        Broadcast.onEach position value fun node =>
          (Select.byKey position found.toNode node).map .single
  | .field name =>
    Broadcast.onEach position value fun node =>
      (Select.byKey position (.string name) node).map .single
  | .index n =>
    Broadcast.onEach position value fun node =>
      (Select.byIndex position n.toInt node).map .single
  | .wildcard =>
    Broadcast.onEach position value fun node => (Select.children position node).map .vector
  | .descent name =>
    Broadcast.onEach position value fun node => .ok (.vector (Select.descend name node))

/-- A step applied to an expression is the step on the result of the expression. -/
theorem eval_apply (object : Expr) : (step.apply position object).eval document =
    (object.eval document).bind (step.onValue document position) := by
  cases evaluated : object.eval document with
  | error e => cases step <;> simp only [apply, Expr.named, Expr.eval, evaluated, Except.bind]
  | ok value =>
    cases step with
    | key k =>
      simp only [apply, Expr.eval, evaluated, Except.bind, onValue]
      cases value with
      | absent | single => rfl
      | vector nodes => cases nodes <;> rfl
    | field name =>
      simp only [apply, Expr.named, Expr.eval, evaluated, Except.bind, onValue]
      cases value with
      | absent | single => rfl
      | vector nodes => cases nodes <;> rfl
    | index | wildcard | descent => simp only [apply, Expr.eval, evaluated, Except.bind, onValue]

/-- A step on a vector is the step on every node of it. -/
theorem onValue_vector (nodes : List Node) : step.onValue document position (.vector nodes) =
    (Broadcast.collect (fun node => step.onValue document position (.single node)) nodes).map
      .vector := by
  cases step with
  | key k =>
    cases nodes with
    | nil => rfl
    | cons node later =>
      cases evaluated : k.eval document with
      | error e => simp only [onValue, evaluated, Broadcast.collect, Except.map]
      | ok found =>
        simp only [onValue, evaluated, Broadcast.onEach_vector, Broadcast.onEach_single]
  | field | index | wildcard | descent =>
    simp only [onValue, Broadcast.onEach_vector, Broadcast.onEach_single]

/-- A step on a scalar, if it gives anything, gives an empty vector. -/
theorem onValue_scalar {node : Node} {result : Value} (scalar : node.isContainer = false)
    (computed : step.onValue document position (.single node) = .ok result) :
    result = .vector [] := by
  cases step with
  | key k =>
    simp only [onValue, Broadcast.onEach_single] at computed
    split at computed
    · cases computed
    · next found _ =>
      obtain ⟨e, failed⟩ := Select.byKey_scalar position found.toNode scalar
      rw [failed] at computed
      cases computed
  | field name =>
    obtain ⟨e, failed⟩ := Select.byKey_scalar position (.string name) scalar
    simp only [onValue, Broadcast.onEach_single, failed] at computed
    cases computed
  | index n =>
    obtain ⟨e, failed⟩ := Select.byIndex_scalar position n.toInt scalar
    simp only [onValue, Broadcast.onEach_single, failed] at computed
    cases computed
  | wildcard =>
    obtain ⟨e, failed⟩ := Select.children_scalar position scalar
    simp only [onValue, Broadcast.onEach_single, failed] at computed
    cases computed
  | descent name =>
    simp only [onValue, Broadcast.onEach_single, Select.descend_scalar name scalar] at computed
    exact (Except.ok.inj computed).symm

/-- A step on no result is the step on null. -/
theorem onValue_absent :
    step.onValue document position .absent = step.onValue document position (.single .null) := by
  cases step <;> rfl

/-! ## Nodes one by one -/

/-- If a step on a value gives a result, the step on every node that the value contributes gives all
the nodes that the result contributes. -/
theorem collect_nodes {value result : Value}
    (computed : step.onValue document position value = .ok result) :
    Broadcast.collect (fun node => step.onValue document position (.single node)) value.nodes =
      .ok result.nodes := by
  have alone : ∀ node, node.isContainer = false →
      step.onValue document position (.single node) = .ok result → result.nodes = [] := by
    intro node scalar computed
    obtain rfl := onValue_scalar scalar computed
    rfl
  fun_cases Value.nodes value with
  | case1 =>
    rw [onValue_absent] at computed
    exact congrArg Except.ok (alone .null rfl computed).symm
  | case2 => exact congrArg Except.ok (alone .missing rfl computed).symm
  | case3 node present => simp only [Broadcast.collect, computed, List.append_nil]
  | case4 nodes =>
    rw [onValue_vector] at computed
    obtain ⟨all, collected, rfl⟩ := Broadcast.exists_of_map_ok computed
    exact collected

/-- If a step on each of some values gives a result, the step on the vector of their nodes gives the
vector of the nodes of the results. -/
theorem onValue_flatMap {values results : List Value}
    (computed : values.map (step.onValue document position) = results.map .ok) :
    step.onValue document position (.vector (values.flatMap Value.nodes)) =
      .ok (.vector (results.flatMap Value.nodes)) := by
  have collected : Broadcast.collect (fun node => step.onValue document position (.single node))
      (values.flatMap Value.nodes) = .ok (results.flatMap Value.nodes) := by
    induction values generalizing results with
    | nil =>
      obtain rfl := List.map_eq_nil_iff.1 computed.symm
      rfl
    | cons value later ih =>
      obtain ⟨result, others, rfl, first, rest⟩ := List.map_eq_cons_iff.1 computed.symm
      simp only [List.flatMap_cons]
      exact Broadcast.collect_append (collect_nodes first.symm) (ih rest.symm)
  rw [onValue_vector, collected]
  rfl

end Step

/-! ## Chains -/

/-- The result of steps one after the other, each introduced at its offset. -/
def Step.run (document : Node) : List (Nat × Step) → Value → Except EvalError Value
  | [], value => .ok value
  | (position, step) :: later, value =>
    (step.onValue document position value).bind (run document later)

/-- The expression with steps behind it, each introduced at its offset. -/
def Expr.extend (object : Expr) (chain : List (Nat × Step)) : Expr :=
  chain.foldl (fun object link => link.2.apply link.1 object) object

variable {document : Node} {chain : List (Nat × Step)}

/-- A chain of steps behind an expression is the chain on the result of the expression. -/
theorem Expr.eval_extend (object : Expr) : (object.extend chain).eval document =
    (object.eval document).bind (Step.run document chain) := by
  induction chain generalizing object with
  | nil =>
    simp only [extend, List.foldl_nil]
    cases object.eval document <;> rfl
  | cons link later ih =>
    have longer : object.extend (link :: later) = (link.2.apply link.1 object).extend later := rfl
    rw [longer, ih, Step.eval_apply]
    cases object.eval document <;> rfl

namespace Step

/-- Where a chain gives results, its first step gives values on which the other steps do. -/
theorem exists_middle {position : Nat} {step : Step} {values results : List Value}
    (computed : values.map (run document ((position, step) :: chain)) = results.map .ok) :
    ∃ middle : List Value, values.map (step.onValue document position) = middle.map .ok ∧
      middle.map (run document chain) = results.map .ok := by
  induction values generalizing results with
  | nil =>
    obtain rfl := List.map_eq_nil_iff.1 computed.symm
    exact ⟨[], rfl, rfl⟩
  | cons value later ih =>
    obtain ⟨result, others, rfl, first, rest⟩ := List.map_eq_cons_iff.1 computed.symm
    obtain ⟨middle, steps, goesOn⟩ := ih rest.symm
    simp only [run] at first
    cases stepped : step.onValue document position value with
    | error e =>
      rw [stepped] at first
      cases first
    | ok mid =>
      rw [stepped] at first
      exact ⟨mid :: middle, by simp only [List.map_cons, stepped, steps],
        by simp only [List.map_cons, goesOn, first, Except.bind]⟩

/-- If a chain on each of some values gives a result, the chain on the vector of their nodes gives
the vector of the nodes of the results. -/
theorem run_flatMap {values results : List Value}
    (computed : values.map (run document chain) = results.map .ok) :
    run document chain (.vector (values.flatMap Value.nodes)) =
      .ok (.vector (results.flatMap Value.nodes)) := by
  -- every step gives other values to go on with, so the induction is about all of them
  induction chain generalizing values with
  | nil =>
    have same : values = results := List.map_inj_right (fun _ _ => Except.ok.inj) |>.1 computed
    rw [same]
    rfl
  | cons link later ih =>
    obtain ⟨middle, steps, goesOn⟩ := exists_middle computed
    simp only [run, onValue_flatMap steps, Except.bind]
    exact ih goesOn

end Step

/-- Steps on a vector are the steps on its elements one by one: if every element gives a result, the
vector gives the nodes of all these results, in the order of the elements. -/
theorem Expr.eval_extend_vector {object : Expr} {elements : List Node} {results : List Value}
    (nonempty : chain ≠ []) (position : Nat)
    (evaluated : object.eval document = .ok (.vector elements))
    (rows : elements.map (fun x => ((literal position x).extend chain).eval document) =
      results.map .ok) :
    (object.extend chain).eval document = .ok (.vector (results.flatMap Value.nodes)) := by
  obtain ⟨⟨first, step⟩, later, rfl⟩ := List.exists_cons_of_ne_nil nonempty
  have single : (elements.map Value.single).map (Step.run document ((first, step) :: later)) =
      results.map .ok := by
    rw [List.map_map, ← rows]
    exact List.map_congr_left fun x _ => ((literal position x).eval_extend).symm
  -- a missing element is a row here, while a missing result is none: the first step stands apart
  obtain ⟨middle, steps, goesOn⟩ := Step.exists_middle single
  rw [List.map_map] at steps
  rw [eval_extend, evaluated]
  have collected : Broadcast.collect (fun node => step.onValue document first (.single node))
      elements = .ok (middle.flatMap Value.nodes) := Broadcast.collect_of_map steps
  have stepped : step.onValue document first (.vector elements) =
      .ok (.vector (middle.flatMap Value.nodes)) := by
    rw [Step.onValue_vector, collected]
    rfl
  simp only [Except.bind, Step.run, stepped]
  exact Step.run_flatMap goesOn

/-- A name, looked up in three objects of which one does not hold it, and a descent behind it. -/
theorem Expr.eval_extend_vector_of_children :
    ((Expr.wildcard 1 (.root 0)).extend [(2, .field "b"), (3, .descent none)]).eval
        (.object [("x", .object [("b", .array [.integer 7])]), ("y", .object [("c", .null)]),
          ("z", .object [("b", .array [.integer 8, .integer 9])])]) =
      .ok (.vector [.array [.integer 7], .array [.integer 8, .integer 9]]) := by
  let elements : List Node := [.object [("b", .array [.integer 7])], .object [("c", .null)],
    .object [("b", .array [.integer 8, .integer 9])]]
  let document : Node :=
    .object [("x", elements[0]), ("y", elements[1]), ("z", elements[2])]
  let chain : List (Nat × Step) := [(2, .field "b"), (3, .descent none)]
  let results : List Value := [.vector [.array [.integer 7]], .vector [],
    .vector [.array [.integer 8, .integer 9]]]
  have evaluated : (Expr.wildcard 1 (.root 0)).eval document = .ok (.vector elements) := rfl
  have rows : elements.map (fun x => ((literal 0 x).extend chain).eval document) =
      results.map .ok := rfl
  exact eval_extend_vector (by decide) 0 evaluated rows

end PathQuery
