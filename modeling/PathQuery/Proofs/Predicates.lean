import PathQuery.Proofs.Shape
/-!
# Expressions as predicates

As a predicate an expression counts for the truth of its result as one node. Two results are false,
a missing node and the truth value false; whatever else is selected makes the predicate true. A
vector is an array as one node, and every array is true: an expression that gives a vector is true
wherever it can be evaluated, also where the vector is empty and nothing at all is selected.
-/
namespace PathQuery

/-- There are two ways not to be true. -/
theorem Node.isTrue_eq_false_iff {node : Node} :
    node.isTrue = false ↔ node = .missing ∨ node = .boolean false := by
  cases node with
  | boolean b => cases b <;> simp [isTrue]
  | _ => simp [isTrue]

/-- A result is true as one node if it selects nodes other than the truth value false alone, or if
it is an empty vector. -/
theorem Value.isTrue_toNode_iff {value : Value} (present : value ≠ .absent) :
    value.toNode.isTrue = true ↔
      (value.nodes ≠ [] ∧ value ≠ .single (.boolean false)) ∨ value = .vector [] := by
  cases value with
  | absent => exact absurd rfl present
  | vector nodes =>
    -- an array is true, whatever it holds
    by_cases empty : nodes = []
    · subst empty
      exact ⟨fun _ => .inr rfl, fun _ => rfl⟩
    · exact ⟨fun _ => .inl ⟨empty, nofun⟩, fun _ => rfl⟩
  | single node =>
    rw [← Bool.not_eq_false, toNode, Node.isTrue_eq_false_iff, not_or]
    cases node <;> simp [nodes]

namespace Expr

variable {document : Node} {e : Expr} {value : Value} {b : Bool}

/-- The answer of a predicate is the truth of the result, and there is one where there is a
result. -/
theorem evalAsBoolean_eq_ok_iff : e.evalAsBoolean document = .ok b ↔
    ∃ value, e.eval document = .ok value ∧ value.toNode.isTrue = b := by
  unfold evalAsBoolean
  cases e.eval document with
  | error error => exact ⟨nofun, nofun⟩
  | ok value =>
    refine ⟨fun answered => ⟨value, rfl, Except.ok.inj answered⟩, ?_⟩
    rintro ⟨_, same, truth⟩
    obtain rfl := Except.ok.inj same
    exact congrArg Except.ok truth

/-- A predicate is false if its result is a missing node or the truth value false, and never if its
result is a vector. -/
theorem evalAsBoolean_eq_false_iff : e.evalAsBoolean document = .ok false ↔
    e.eval document = .ok (.single .missing) ∨
      e.eval document = .ok (.single (.boolean false)) := by
  rw [evalAsBoolean_eq_ok_iff]
  constructor
  · rintro ⟨value, evaluated, truth⟩
    rw [evaluated]
    rcases Node.isTrue_eq_false_iff.1 truth with same | same
    all_goals cases value with
    | absent | vector => cases same
    | single node =>
      obtain rfl : node = _ := same
      simp
  · rintro (evaluated | evaluated)
    all_goals exact ⟨_, evaluated, rfl⟩

/-- A vector-typed expression that is no combination is true wherever it can be evaluated. -/
theorem evalAsBoolean_of_vector (vector : e.isVector = true) (plain : e.isCombination = false)
    (evaluated : e.eval document = .ok value) : e.evalAsBoolean document = .ok true := by
  refine evalAsBoolean_eq_ok_iff.2 ⟨value, evaluated, ?_⟩
  cases shaped_of_eval evaluated with
  | single node scalar => cases scalar.symm.trans vector
  | truth b combination => cases combination.symm.trans plain
  | vector => rfl

/-- A predicate is true if its result selects nodes other than the truth value false alone, or if
the expression is vector-typed and its result is an empty vector. -/
theorem evalAsBoolean_eq_true_iff (document : Node) (e : Expr) :
    e.evalAsBoolean document = .ok true ↔ ∃ value, e.eval document = .ok value ∧
      ((value.nodes ≠ [] ∧ value ≠ .single (.boolean false)) ∨
        (e.isVector = true ∧ value = .vector [])) := by
  have typed : ∀ value, e.eval document = .ok value → value = .vector [] → e.isVector = true := by
    rintro _ evaluated rfl
    exact (shaped_of_eval evaluated).isVector rfl
  have present : ∀ value, e.eval document = .ok value → value ≠ .absent := by
    rintro _ evaluated rfl
    cases shaped_of_eval evaluated
  rw [evalAsBoolean_eq_ok_iff]
  refine exists_congr fun value => and_congr_right fun evaluated => ?_
  rw [Value.isTrue_toNode_iff (present value evaluated)]
  exact or_congr Iff.rfl ⟨fun empty => ⟨typed value evaluated empty, empty⟩, And.right⟩

/-- A descent to a name that does not occur selects nothing, and yet it is true. -/
theorem evalAsBoolean_of_nothing_selected :
    let e : Expr := .descent 0 (.root 0) (some "x")
    e.eval (.object []) = .ok (.vector []) ∧ (Value.vector []).nodes = [] ∧
      e.evalAsBoolean (.object []) = .ok true ∧
      ¬ ∀ (e : Expr) (document : Node), e.evalAsBoolean document = .ok true →
        ∃ value, e.eval document = .ok value ∧ value.nodes ≠ [] := by
  intro e
  have evaluated : e.eval (.object []) = .ok (.vector []) := rfl
  have truth : e.evalAsBoolean (.object []) = .ok true := rfl
  refine ⟨evaluated, rfl, truth, fun law => ?_⟩
  obtain ⟨value, found, some⟩ := law e (.object []) truth
  obtain rfl := Except.ok.inj (evaluated.symm.trans found)
  exact some rfl

end Expr

end PathQuery
