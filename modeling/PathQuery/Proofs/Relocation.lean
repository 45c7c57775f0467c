import PathQuery.Proofs.Placement
import PathQuery.Proofs.Chains
/-!
# Evaluation at other places

Offsets are only ever copied into errors: which operand is evaluated, which row fails first and
which error wins never depends on them. So an expression whose offsets are forgotten gives the same
results, and the same errors with their offsets forgotten. Expressions that are equal up to their
places therefore mean the same, converted to a plain value or not.
-/
namespace PathQuery

/-- The error with its offset forgotten. What it says of the fault is kept. -/
def EvalError.unplaced : EvalError → EvalError
  | .runtime _ fault => .runtime 0 fault
  | .typeMismatch _ expected actual label => .typeMismatch 0 expected actual label
  | .nullValue _ => .nullValue 0

/-- An error without its offset still says the same. -/
theorem EvalError.detail_unplaced (e : EvalError) : e.unplaced.detail = e.detail := by
  cases e <;> rfl

variable {α β : Type}

/-- What is made of a result does not depend on the offset of an error. -/
theorem mapError_map (u : EvalError → EvalError) (make : α → β) (r : Except EvalError α) :
    (r.map make).mapError u = (r.mapError u).map make := by
  cases r <;> rfl

/-- A result that is no error stays as it is. -/
theorem mapError_ok (u : EvalError → EvalError) (a : α) :
    (Except.ok a : Except EvalError α).mapError u = .ok a := rfl

/-- What is computed from a result comes to the same when offsets are forgotten on the way. -/
theorem mapError_bind (u : EvalError → EvalError) (next : α → Except EvalError β)
    (r : Except EvalError α) :
    (r.bind next).mapError u = (r.mapError u).bind fun a => (next a).mapError u := by
  cases r <;> rfl

/-! ## Broadcasting -/

namespace Broadcast

variable {position : Nat}

/-- Rows whose errors lose their offsets are collected to the same nodes or the same error without
its offset. -/
theorem collect_mapError (u : EvalError → EvalError) (compute : α → Except EvalError Value)
    (rows : List α) :
    collect (fun row => (compute row).mapError u) rows = (collect compute rows).mapError u := by
  induction rows with
  | nil => rfl
  | cons row later ih =>
    simp only [collect, ih]
    cases compute row with
    | error e => rfl
    | ok value => cases collect compute later <;> rfl

/-- An operator without offsets is broadcast to the same result or the same error without its
offset. -/
theorem apply_unplaced (values : List Value) (compute : List Node → Except EvalError Value) :
    apply 0 values (fun row => (compute row).mapError .unplaced) =
      (apply position values compute).mapError .unplaced := by
  unfold apply
  split
  · rfl
  · next length others _ =>
    split
    · rfl
    · rw [collect_mapError, mapError_map]

/-- An operator on one node is broadcast alike without offsets. -/
theorem onEach_unplaced (value : Value) (compute : Node → Except EvalError Value) :
    onEach 0 value (fun node => (compute node).mapError .unplaced) =
      (onEach position value compute).mapError .unplaced :=
  apply_unplaced [value] fun row => compute (row.headD .missing)

/-- An operator on two nodes is broadcast alike without offsets. -/
theorem onPairs_unplaced (left right : Value) (compute : Node → Node → Except EvalError Value) :
    onPairs 0 left right (fun a b => (compute a b).mapError .unplaced) =
      (onPairs position left right compute).mapError .unplaced :=
  apply_unplaced [left, right] fun row => compute (row.getD 0 .missing) (row.getD 1 .missing)

end Broadcast

/-! ## Lookups and conversions -/

namespace Select

variable (position : Nat)

/-- A key is looked up alike at every place. -/
theorem byKey_unplaced (key object : Node) :
    byKey 0 key object = (byKey position key object).mapError .unplaced := by
  unfold byKey
  split
  · split <;> rfl
  · split
    · dsimp only
      split
      · rfl
      · split <;> rfl
    · rfl
  · rfl

/-- An index is looked up alike at every place. -/
theorem byIndex_unplaced (index : Int) (object : Node) :
    byIndex 0 index object = (byIndex position index object).mapError .unplaced := by
  unfold byIndex
  split <;> rfl

/-- Children are selected alike at every place. -/
theorem children_unplaced (object : Node) :
    children 0 object = (children position object).mapError .unplaced := by
  cases object <;> rfl

end Select

namespace Coercion

variable (c : Coercion α) (position : Nat) (label : String) (node : Node)

/-- A node that may be null is converted alike at every place. -/
theorem nullable_unplaced :
    c.nullable 0 label node = (c.nullable position label node).mapError .unplaced := by
  unfold nullable
  split
  · rfl
  · split <;> rfl

/-- A node is converted strictly alike at every place. -/
theorem strict_unplaced :
    c.strict 0 label node = (c.strict position label node).mapError .unplaced := by
  unfold strict
  rw [nullable_unplaced c position]
  cases c.nullable position label node with
  | error e => rfl
  | ok value? => cases value? <;> rfl

end Coercion

/-! ## Steps and expressions -/

/-- A step without its offset, and without those in its key, makes of a value what it makes of it
with them, up to the offset of an error. -/
theorem Step.onValue_unplaced {document : Node} (position : Nat) (step : Step) (value : Value)
    (key : ∀ k, step = .key k →
      k.unplaced.eval document = (k.eval document).mapError .unplaced) :
    step.unplaced.onValue document 0 value =
      (step.onValue document position value).mapError .unplaced := by
  have selected : ∀ name node, (Select.byKey 0 name node).map Value.single =
      ((Select.byKey position name node).map Value.single).mapError .unplaced := by
    intro name node
    rw [Select.byKey_unplaced position, mapError_map]
  cases step with
  | key k =>
    simp only [unplaced, onValue, key k rfl]
    split
    · rfl
    · cases k.eval document with
      | error e => rfl
      | ok found =>
        simp only [mapError_ok, selected]
        exact Broadcast.onEach_unplaced value _
  | field name =>
    simp only [unplaced, onValue, selected]
    exact Broadcast.onEach_unplaced value _
  | index n =>
    simp only [unplaced, onValue, Select.byIndex_unplaced position, ← mapError_map]
    exact Broadcast.onEach_unplaced value _
  | wildcard =>
    simp only [unplaced, onValue, Select.children_unplaced position, ← mapError_map]
    exact Broadcast.onEach_unplaced value _
  | descent name =>
    exact Broadcast.onEach_unplaced value fun node => .ok (.vector (Select.descend name node))

namespace Expr

variable {document : Node} {e f object left right : Expr}

/-- A step behind an expression gives the same without offsets if the expression and the key do. -/
theorem eval_apply_unplaced (position : Nat) (step : Step)
    (before : object.unplaced.eval document = (object.eval document).mapError .unplaced)
    (key : ∀ k, step = .key k →
      k.unplaced.eval document = (k.eval document).mapError .unplaced) :
    (step.apply position object).unplaced.eval document =
      ((step.apply position object).eval document).mapError .unplaced := by
  rw [Step.unplaced_apply, Step.eval_apply, Step.eval_apply, before, mapError_bind]
  congr 1
  exact funext fun value => Step.onValue_unplaced position step value key

/-- An expression without its offsets gives the same result, or the same error without its
offset. -/
theorem eval_unplaced (e : Expr) :
    e.unplaced.eval document = (e.eval document).mapError .unplaced := by
  induction e with
  | root | literal => rfl
  | field p object key before keyToo =>
    exact eval_apply_unplaced p (.key key) before fun k same => Step.key.inj same ▸ keyToo
  | index p object n before => exact eval_apply_unplaced p (.index n) before nofun
  | wildcard p object before => exact eval_apply_unplaced p .wildcard before nofun
  | descent p object name before => exact eval_apply_unplaced p (.descent name) before nofun
  | boolean p op left right first second =>
    simp only [unplaced, eval, first]
    cases left.eval document with
    | error e => rfl
    | ok a =>
      simp only [mapError_ok]
      -- the value of the left operand alone decides whether the right one is evaluated
      split
      · rfl
      · rw [second]
        cases right.eval document with
        | error e => rfl
        | ok b =>
          exact Broadcast.onPairs_unplaced a b fun x y =>
            .ok (.single (.boolean (op.apply x.isTrue y.isTrue)))

/-- An expression without its offsets stands at the start of the text. -/
theorem position_unplaced (e : Expr) : e.unplaced.position = 0 := by
  cases e <;> rfl

/-- An expression without its offsets is as true. -/
theorem evalAsBoolean_unplaced (e : Expr) :
    e.unplaced.evalAsBoolean document = (e.evalAsBoolean document).mapError .unplaced := by
  unfold evalAsBoolean
  rw [eval_unplaced, mapError_map]

/-- An expression without its offsets is converted to the same value, or fails with the same error
without its offset. -/
theorem evalAs_unplaced (e : Expr) (c : Coercion α) (label : String) :
    e.unplaced.evalAs c label document = (e.evalAs c label document).mapError .unplaced := by
  unfold evalAs
  rw [eval_unplaced, position_unplaced]
  cases e.eval document with
  | error error => rfl
  | ok value => exact c.strict_unplaced e.position label value.toNode

/-- Expressions that are equal up to their places give one value on every document, or errors that
differ at most in their places; and so they do as a truth value, and converted to a number or a text
under any label. -/
theorem eval_of_unplaced_eq (same : e.unplaced = f.unplaced) (document : Node) :
    (e.eval document).mapError .unplaced = (f.eval document).mapError EvalError.unplaced ∧
    (e.evalAsBoolean document).mapError .unplaced =
      (f.evalAsBoolean document).mapError EvalError.unplaced ∧
    ∀ {α : Type} (c : Coercion α) (label : String),
      (e.evalAs c label document).mapError .unplaced =
        (f.evalAs c label document).mapError EvalError.unplaced := by
  refine ⟨?_, ?_, fun c label => ?_⟩
  · rw [← eval_unplaced, same, eval_unplaced]
  · rw [← evalAsBoolean_unplaced, same, evalAsBoolean_unplaced]
  · rw [← evalAs_unplaced, same, evalAs_unplaced]

/-- The trees of `a[0]` and of its normal form `$.a[0]`, where `a` is a number: each says the same
of its own step, and so it does when a whole number is asked for. -/
theorem eval_of_unplaced_eq_computed :
    let e := field 1 (named 0 (.root 0) "a") (.literal 2 (.integer 0))
    let f := field 3 (named 1 (.root 0) "a") (.literal 4 (.integer 0))
    let document : Node := .object [("a", .integer 7)]
    e.unplaced = f.unplaced ∧
    e.eval document = .error (.runtime 1 (.keyOnOther .number)) ∧
    f.eval document = .error (.runtime 3 (.keyOnOther .number)) ∧
    (e.eval document).mapError .unplaced = (f.eval document).mapError EvalError.unplaced ∧
    (e.evalAs .long "the limit" document).mapError .unplaced =
      (f.evalAs .long "the limit" document).mapError EvalError.unplaced := by
  intro e f document
  have same : e.unplaced = f.unplaced := rfl
  obtain ⟨results, -, converted⟩ := eval_of_unplaced_eq same document
  exact ⟨same, rfl, rfl, results, converted .long "the limit"⟩

end Expr

end PathQuery
