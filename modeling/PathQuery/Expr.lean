import PathQuery.Document.Node
/-!
# Path expressions

A path expression starts from the document or a constant and applies steps to it: fields and
elements by name, index or computed key, wildcards and descents. Two expressions can be combined
by `&&` and `||`. Every expression carries the offset of the token that introduced it, so that an
error can point back into the text.

An expression is vector-typed when it contains a wildcard or a descent where its objects and
operands come from. That depends on the expression alone, never on a document.
-/
namespace PathQuery

/-- The two combinators. -/
inductive BoolOp where
  /-- Both sides hold. -/
  | and
  /-- One of the sides holds. -/
  | or
deriving DecidableEq, Repr

namespace BoolOp

/-- The sign of a combinator. -/
def sign : BoolOp → String
  | .and => "&&"
  | .or => "||"

/-- The left operand that decides the result on its own. -/
def decisive : BoolOp → Bool
  | .and => false
  | .or => true

/-- The result of a combinator on two truth values. -/
def apply : BoolOp → Bool → Bool → Bool
  | .and, a, b => a && b
  | .or, a, b => a || b

/-- A decisive left operand is the result, whatever stands on the right. -/
theorem apply_decisive (op : BoolOp) (right : Bool) : op.apply op.decisive right = op.decisive := by
  cases op <;> cases right <;> rfl

end BoolOp

/-- A path expression. Every expression starts with its offset in the text. -/
inductive Expr where
  /-- The document. -/
  | root (position : Nat)
  /-- A constant. -/
  | literal (position : Nat) (value : Node)
  /-- The field or element of an object or array under a computed key. -/
  | field (position : Nat) (object key : Expr)
  /-- The element of an array at a constant index, missing when out of range. -/
  | index (position : Nat) (object : Expr) (index : Int64)
  /-- The children of an object, or of the containers in an array. -/
  | wildcard (position : Nat) (object : Expr)
  /-- Every container inside, or every value under a name in one of them. -/
  | descent (position : Nat) (object : Expr) (name : Option String)
  /-- Two expressions combined. -/
  | boolean (position : Nat) (op : BoolOp) (left right : Expr)
deriving Inhabited

namespace Expr

/-- The offset of the token that introduced an expression. -/
def position : Expr → Nat
  | .root p | .literal p _ | .field p _ _ | .index p _ _ | .wildcard p _ | .descent p _ _
  | .boolean p _ _ _ => p

/-- The field of an object under a constant name. -/
def named (position : Nat) (object : Expr) (name : String) : Expr :=
  .field position object (.literal position (.string name))

/-- Whether an expression is vector-typed. A computed key does not count. -/
def isVector : Expr → Bool
  | .root _ | .literal _ _ => false
  | .field _ object _ | .index _ object _ => object.isVector
  | .wildcard _ _ | .descent _ _ _ => true
  | .boolean _ _ left right => left.isVector || right.isVector

end Expr

/-- One step of a path, apart from the object it applies to. -/
inductive Step where
  /-- The field or element under a computed key. -/
  | key (key : Expr)
  /-- The field under a name. -/
  | field (name : String)
  /-- The element at an index. -/
  | index (index : Int64)
  /-- The children. -/
  | wildcard
  /-- The containers inside, or the values under a name in them. -/
  | descent (name : Option String)

/-- The expression of a step that was introduced at an offset and applies to an object. -/
def Step.apply (position : Nat) (object : Expr) : Step → Expr
  | .key k => .field position object k
  | .field name => .named position object name
  | .index n => .index position object n
  | .wildcard => .wildcard position object
  | .descent name => .descent position object name

end PathQuery
