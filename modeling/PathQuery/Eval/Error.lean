import PathQuery.Document.Node
/-!
# Errors of evaluation

Evaluation fails when a step is applied to a node of the wrong kind, when an index is out of
range, or when vectors of different lengths meet under one operator. A conversion fails when a
result has the wrong kind or is null. Every error carries the offset of the expression at fault.
-/
namespace PathQuery

/-- Why a step or an operator cannot be computed. -/
inductive RuntimeFault where
  /-- A name was applied to something else than an object. -/
  | nameOnOther (found : Kind)
  /-- A computed number was applied to something else than an array. -/
  | keyOnOther (found : Kind)
  /-- An index was applied to something else than an array. -/
  | indexOnOther (found : Kind)
  /-- A wildcard was applied to a scalar. -/
  | wildcardOnOther (found : Kind)
  /-- A computed index lies beyond the last element. -/
  | beyondLast (index last : Int)
  /-- A computed index counts back beyond the first element. -/
  | beforeFirst (index first : Int)
  /-- Vectors of different lengths meet. -/
  | incompatibleSizes (first other : Nat)
deriving DecidableEq, Repr

/-- What a message says of a fault. -/
def RuntimeFault.detail : RuntimeFault → String
  | .nameOnOther found => "field selector must apply on an object, not a " ++ found.name
  | .keyOnOther found => "field selector must apply on an array, not a " ++ found.name
  | .indexOnOther found => "index selector must apply on an array, not a " ++ found.name
  | .wildcardOnOther found => "wildcard cannot be applied to " ++ found.name
  | .beyondLast index last => "index out of bound " ++ toString index ++ " > " ++ toString last
  | .beforeFirst index first => "index out of bound " ++ toString index ++ " < " ++ toString first
  | .incompatibleSizes first other =>
    "dot product of incompatible sizes: " ++ toString first ++ " vs " ++ toString other

/-- Why evaluation or a conversion failed. -/
inductive EvalError where
  /-- A step or an operator cannot be computed. -/
  | runtime (position : Nat) (fault : RuntimeFault)
  /-- A node is not of the kind that something needs; the label names what needs it. -/
  | typeMismatch (position : Nat) (expected : Kind) (actual : Node) (label : String)
  /-- A value is needed and there is null. -/
  | nullValue (position : Nat)

namespace EvalError

/-- The offset an error points at. -/
def position : EvalError → Nat
  | .runtime position _ => position
  | .typeMismatch position _ _ _ => position
  | .nullValue position => position

/-- What an error says, apart from its place. -/
def detail : EvalError → String
  | .runtime _ fault => fault.detail
  | .typeMismatch _ expected actual label =>
    "expected " ++ expected.name ++ " for " ++ label ++ " but found " ++ actual.kind.name
  | .nullValue _ => "null value"

/-- The text of an error. -/
def message (e : EvalError) : String :=
  e.detail ++ " at position " ++ toString e.position

end EvalError

end PathQuery
