import PathQuery.Eval
/-!
# Expressions on a part of a document

An expression can be put in place of the document in another one: then paths, computed keys and
operands start from what that expression selects. Where it selects a single node, this comes to the
same as evaluating the other expression on that node. A computed key is evaluated against the
document and not against the row, so it moves with the rest; and how an operand was obtained never
matters, but only its value.
-/
namespace PathQuery.Expr

/-- The expression with another one in place of the document, in objects, in computed keys and in
operands. Every other part keeps its offset. -/
def rebase : Expr → Expr → Expr
  | .root _, base => base
  | .literal p value, _ => .literal p value
  | .field p object key, base => .field p (object.rebase base) (key.rebase base)
  | .index p object n, base => .index p (object.rebase base) n
  | .wildcard p object, base => .wildcard p (object.rebase base)
  | .descent p object name, base => .descent p (object.rebase base) name
  | .boolean p op left right, base => .boolean p op (left.rebase base) (right.rebase base)

variable {base : Expr} {document inner : Node}

/-- Where an expression selects a single node, another one with it in place of the document gives
the result that it gives on that node, or fails with the same error at the same place. -/
theorem eval_rebase (e : Expr) (selected : base.eval document = .ok (.single inner)) :
    (e.rebase base).eval document = e.eval inner := by
  induction e with
  | root p => exact selected
  | literal p value => rfl
  | field p object key ofObject ofKey => simp only [rebase, eval, ofObject, ofKey]
  | index p object n ofObject => simp only [rebase, eval, ofObject]
  | wildcard p object ofObject => simp only [rebase, eval, ofObject]
  | descent p object name ofObject => simp only [rebase, eval, ofObject]
  | boolean p op left right ofLeft ofRight => simp only [rebase, eval, ofLeft, ofRight]

/-- A combination on a part of a document: its computed key is looked up in that part, and its right
operand fails there at its own place. -/
theorem eval_rebase_failing :
    let base := named 1 (.root 0) "a"
    let key := named 3 (.root 2) "k"
    let e := boolean 7 .and (field 1 (.root 0) key) (named 12 (named 10 (.root 9) "x") "b")
    let inner : Node := .object [("k", .string "x"), ("x", .array [.integer 1])]
    let document : Node := .object [("a", inner), ("k", .integer 0)]
    base.eval document = .ok (.single inner) ∧
      (e.rebase base).eval document = e.eval inner ∧
      e.eval inner = .error (.runtime 12 (.nameOnOther .array)) := by
  intro base key e inner document
  have selected : base.eval document = .ok (.single inner) := by rfl
  exact ⟨selected, eval_rebase e selected, by rfl⟩

end PathQuery.Expr
