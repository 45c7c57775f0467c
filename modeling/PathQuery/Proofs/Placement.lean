import PathQuery.Expr.Normal
/-!
# Expressions up to their places

An expression carries offsets into the text it came from. Nothing but errors looks at them: the
vector type and the normal form of an expression are those of the expression without its places.
Two expressions are equal up to their places when they are the same without them.
-/
namespace PathQuery.Expr

/-- The expression with every offset forgotten. -/
def unplaced : Expr → Expr
  | .root _ => .root 0
  | .literal _ value => .literal 0 value
  | .field _ object key => .field 0 object.unplaced key.unplaced
  | .index _ object n => .index 0 object.unplaced n
  | .wildcard _ object => .wildcard 0 object.unplaced
  | .descent _ object name => .descent 0 object.unplaced name
  | .boolean _ op left right => .boolean 0 op left.unplaced right.unplaced

/-- Places can be forgotten only once. -/
theorem unplaced_unplaced (e : Expr) : e.unplaced.unplaced = e.unplaced := by
  induction e with
  | root | literal => rfl
  | field _ _ _ object key => simp only [unplaced, object, key]
  | index _ _ _ object | wildcard _ _ object | descent _ _ _ object => simp only [unplaced, object]
  | boolean _ _ _ _ left right => simp only [unplaced, left, right]

/-- The vector type does not depend on places. -/
theorem isVector_unplaced (e : Expr) : e.unplaced.isVector = e.isVector := by
  induction e with
  | root | literal | wildcard | descent => rfl
  | field _ _ _ object _ => exact object
  | index _ _ _ object => exact object
  | boolean _ _ _ _ left right => simp only [unplaced, isVector, left, right]

/-- Where an object needs parentheses does not depend on places. -/
theorem groupedAsObject_unplaced (e : Expr) : e.unplaced.groupedAsObject = e.groupedAsObject := by
  cases e with
  | literal _ value => cases value <;> rfl
  | _ => rfl

/-- Where a left operand needs parentheses does not depend on places. -/
theorem groupedOnLeft_unplaced (op : BoolOp) (e : Expr) :
    e.unplaced.groupedOnLeft op = e.groupedOnLeft op := by
  cases e <;> rfl

/-- Where a right operand needs parentheses does not depend on places. -/
theorem groupedOnRight_unplaced (op : BoolOp) (e : Expr) :
    e.unplaced.groupedOnRight op = e.groupedOnRight op := by
  cases e <;> rfl

/-- The short form of a key does not depend on places. -/
theorem shortKey?_unplaced (e : Expr) : e.unplaced.shortKey? = e.shortKey? := by
  cases e with
  | literal _ value => cases value <;> rfl
  | _ => rfl

/-- The normal form does not depend on places. -/
theorem write_unplaced (e : Expr) : e.unplaced.write = e.write := by
  induction e with
  | root | literal => rfl
  | field _ _ _ object key =>
    simp only [unplaced, write, groupedAsObject_unplaced, shortKey?_unplaced, object, key]
  | index _ _ _ object | wildcard _ _ object | descent _ _ _ object =>
    simp only [unplaced, write, groupedAsObject_unplaced, object]
  | boolean _ _ _ _ left right =>
    simp only [unplaced, write, groupedOnLeft_unplaced, groupedOnRight_unplaced, left, right]

/-- Expressions that are equal up to their places have one vector type. -/
theorem isVector_of_unplaced_eq {e f : Expr} (same : e.unplaced = f.unplaced) :
    e.isVector = f.isVector := by
  rw [← isVector_unplaced, same, isVector_unplaced]

/-- Expressions that are equal up to their places have one normal form. -/
theorem normal_of_unplaced_eq {e f : Expr} (same : e.unplaced = f.unplaced) :
    e.normal = f.normal := by
  simp only [normal, ← write_unplaced e, same, write_unplaced f]

end PathQuery.Expr

namespace PathQuery.Step

/-- The step with every offset in its key forgotten. -/
def unplaced : Step → Step
  | .key k => .key k.unplaced
  | step => step

/-- Applying a step and forgetting places can be done in either order. -/
theorem unplaced_apply (p : Nat) (object : Expr) (step : Step) :
    (step.apply p object).unplaced = step.unplaced.apply 0 object.unplaced := by
  cases step <;> rfl

end PathQuery.Step
