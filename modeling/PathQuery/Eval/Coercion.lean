import PathQuery.Document.Node
import PathQuery.Eval.Error
import PathQuery.Decimal.Binary
import PathQuery.Decimal.Nearest
/-!
# Conversions

A node is converted to a plain value in one of three strengths. The lenient conversion has no
answer for a node of the wrong kind. The nullable one is an error there, and has no answer for
null. The strict one is an error for null too. Truth is the exception: every node is true or false.

An integer wraps to 32 bits. A floating-point number loses its fraction and is moved to the nearer
bound when it does not fit.
-/
namespace PathQuery

/-- A number, with integers kept apart from floating-point numbers. -/
inductive Number where
  /-- A whole number of 64 bits. -/
  | integer (value : Int64)
  /-- A floating-point number. -/
  | float (value : Float)
deriving DecidableEq

namespace Node

/-- Whether a node satisfies a predicate: a truth value says so itself, what is missing does not,
and everything else does, null included. -/
def isTrue : Node → Bool
  | .boolean b => b
  | .missing => false
  | _ => true

/-- The number of a node. -/
def number? : Node → Option Number
  | .integer n => some (.integer n)
  | .float x => some (.float x)
  | _ => none

/-- The number of a node in 32 bits. -/
def int? : Node → Option Int32
  | .integer n => some n.toInt32
  | .float x =>
    some (Int32.ofInt ((Binary.ofFloat x).clamp Int32.minValue.toInt Int32.maxValue.toInt))
  | _ => none

/-- The number of a node in 64 bits. -/
def long? : Node → Option Int64
  | .integer n => some n
  | .float x =>
    some (Int64.ofInt ((Binary.ofFloat x).clamp Int64.minValue.toInt Int64.maxValue.toInt))
  | _ => none

/-- The number of a node as a floating-point number, for an integer the nearest one. -/
def double? : Node → Option Float
  | .integer n => some (Decimal.nearest ⟨n.toInt < 0, n.toInt.natAbs, 0⟩)
  | .float x => some x
  | _ => none

/-- The text of a node. -/
def string? : Node → Option String
  | .string text => some text
  | _ => none

end Node

/-- A conversion of nodes to plain values. -/
structure Coercion (α : Type) where
  /-- The kind of node that it converts. -/
  expected : Kind
  /-- The value of a node, if it has that kind. -/
  lenient? : Node → Option α

namespace Coercion

/-- To a number. -/
def number : Coercion Number := ⟨.number, Node.number?⟩

/-- To an integer of 32 bits. -/
def int : Coercion Int32 := ⟨.number, Node.int?⟩

/-- To an integer of 64 bits. -/
def long : Coercion Int64 := ⟨.number, Node.long?⟩

/-- To a floating-point number. -/
def double : Coercion Float := ⟨.number, Node.double?⟩

/-- To a text. -/
def string : Coercion String := ⟨.string, Node.string?⟩

variable {α : Type}

/-- The value of a node, none for null, an error for any other node of the wrong kind. The offset
and the label tell what needs the value. -/
def nullable (c : Coercion α) (position : Nat) (label : String) (node : Node) :
    Except EvalError (Option α) :=
  if node.isNull then .ok none
  else
    match c.lenient? node with
    | some value => .ok (some value)
    | none => .error (.typeMismatch position c.expected node label)

/-- The value of a node, an error for null and for any node of the wrong kind. -/
def strict (c : Coercion α) (position : Nat) (label : String) (node : Node) :
    Except EvalError α :=
  match c.nullable position label node with
  | .ok (some value) => .ok value
  | .ok none => .error (.nullValue position)
  | .error e => .error e

end Coercion

end PathQuery
