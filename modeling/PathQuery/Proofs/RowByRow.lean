import PathQuery.Proofs.Chains
/-!
# One step, row by row

A step on a vector is the same step on each of its elements alone. The elements are taken in order:
their results are put together, and the first element on which the step fails gives the error. That
a computed key is evaluated once for all rows, and not at all without a row, makes no difference.
-/
namespace PathQuery

namespace Broadcast

section

variable {α : Type} {compute : α → Except EvalError Value} {rows : List α}
  {outcome : Except EvalError Value}

/-- The outcome of rows that are computed one by one, each on its own. -/
inductive RowByRow (compute : α → Except EvalError Value) (rows : List α) :
    Except EvalError Value → Prop where
  /-- Every row has a result, and their nodes make a vector. -/
  | all {results : List Value} (computed : rows.map compute = results.map .ok) :
    RowByRow compute rows (.ok (.vector (results.flatMap Value.nodes)))
  /-- A row fails behind rows that all have a result. -/
  | stopped {before after : List α} {failing : α} {results : List Value} {e : EvalError}
    (split : rows = before ++ failing :: after) (computed : before.map compute = results.map .ok)
    (failed : compute failing = .error e) : RowByRow compute rows (.error e)

/-- The first row that fails ends the collection, whatever stands behind it. -/
theorem collect_stopped {before after : List α} {failing : α} {results : List Value}
    {e : EvalError} (computed : before.map compute = results.map .ok)
    (failed : compute failing = .error e) :
    collect compute (before ++ failing :: after) = .error e := by
  have stopped : collect compute (failing :: after) = .error e := by
    simp only [collect, failed]
  rw [collect_append_of_front (collect_of_map computed), stopped]
  rfl

/-- Rows computed one by one have an outcome. -/
theorem exists_rowByRow (compute : α → Except EvalError Value) (rows : List α) :
    ∃ outcome, RowByRow compute rows outcome := by
  have none : [].map compute = ([] : List Value).map .ok := rfl
  induction rows with
  | nil => exact ⟨_, .all none⟩
  | cons row later ih =>
    cases first : compute row with
    | error e => exact ⟨_, .stopped (List.nil_append _).symm none first⟩
    | ok value =>
      have goesOn : ∀ {front : List α} {results : List Value},
          front.map compute = results.map .ok →
          (row :: front).map compute = (value :: results).map .ok := by
        intro front results computed
        rw [List.map_cons, List.map_cons, first, computed]
      obtain ⟨_, others⟩ := ih
      cases others with
      | all computed => exact ⟨_, .all (goesOn computed)⟩
      | stopped split computed failed =>
        exact ⟨_, .stopped (congrArg (row :: ·) split) (goesOn computed) failed⟩

/-- Collecting rows into a vector has the outcome of computing them one by one, and no other. -/
theorem rowByRow_iff : RowByRow compute rows outcome ↔
    (collect compute rows).map .vector = outcome := by
  have sound : ∀ {outcome}, RowByRow compute rows outcome →
      (collect compute rows).map .vector = outcome := by
    intro outcome found
    cases found with
    | all computed =>
      rw [collect_of_map computed]
      rfl
    | stopped split computed failed =>
      rw [split, collect_stopped computed failed]
      rfl
  refine ⟨sound, ?_⟩
  rintro rfl
  obtain ⟨_, found⟩ := exists_rowByRow compute rows
  exact sound found ▸ found

end

end Broadcast

namespace Expr

open Broadcast (RowByRow)

variable {document : Node} {object : Expr} {elements : List Node}

/-- On a single node a step of any kind is the step behind that node as a constant. -/
theorem eval_apply_literal (position offset : Nat) (step : Step) (node : Node) :
    (step.apply position (literal offset node)).eval document =
      step.onValue document position (.single node) :=
  Step.eval_apply _

/-- Behind an expression with a vector a step has the outcome of the step behind each element as a
constant, row by row: all results in order, or the error of the first element that fails. An empty
vector gives an empty one, even where the key of the step cannot be evaluated. -/
theorem eval_apply_iff_rowByRow (evaluated : object.eval document = .ok (.vector elements))
    (position offset : Nat) (step : Step) :
    (∀ outcome, (step.apply position object).eval document = outcome ↔
      RowByRow (fun x => (step.apply position (literal offset x)).eval document) elements outcome) ∧
    (elements = [] → (step.apply position object).eval document = .ok (.vector [])) := by
  have rowwise : (step.apply position object).eval document =
      (Broadcast.collect (fun x => (step.apply position (literal offset x)).eval document)
        elements).map .vector := by
    simp only [Step.eval_apply object, evaluated, Except.bind, Step.onValue_vector,
      eval_apply_literal]
  refine ⟨fun outcome => ?_, ?_⟩
  · rw [rowwise, Broadcast.rowByRow_iff]
  · rintro rfl
    exact rowwise

/-- A name looked up in three rows fails on the second one, which is no object; behind no row a key
that would fail is not evaluated. -/
theorem eval_apply_iff_rowByRow_stopped :
    let rows : Expr := .wildcard 1 (.root 0)
    let document : Node := .object [("a", .object [("b", .null)]), ("c", .boolean true),
      ("d", .array [])]
    let failing : Step := .key (.wildcard 5 (.literal 4 .null))
    rows.eval document = .ok (.vector [.object [("b", .null)], .boolean true, .array []]) ∧
      RowByRow (fun x => ((Step.field "b").apply 2 (literal 0 x)).eval document)
        [.object [("b", .null)], .boolean true, .array []]
        (.error (.runtime 2 (.nameOnOther .boolean))) ∧
      (failing.apply 2 rows).eval (.object []) = .ok (.vector []) ∧
      (failing.apply 2 (literal 0 .null)).eval (.object []) =
        .error (.runtime 5 (.wildcardOnOther .null)) := by
  intro rows document failing
  have evaluated : rows.eval document =
      .ok (.vector [.object [("b", .null)], .boolean true, .array []]) := by rfl
  have none : rows.eval (.object []) = .ok (.vector []) := by rfl
  exact ⟨evaluated, ((eval_apply_iff_rowByRow evaluated 2 0 (.field "b")).1 _).1 rfl,
    (eval_apply_iff_rowByRow none 2 0 failing).2 rfl, by rfl⟩

end Expr

end PathQuery
