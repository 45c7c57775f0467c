import PathQuery.Document.Render
/-!
# Results

A path expression gives one node, or a vector of nodes when it contains a wildcard or a descent.
The nodes of a result are what it contributes to a vector that is being collected: a missing
single node contributes nothing, and a vector contributes its nodes one by one, so that vectors
never nest.
-/
namespace PathQuery

/-- The result of an expression. -/
inductive Value where
  /-- No result at all, which stands for null. -/
  | absent
  /-- One node, which may be missing. -/
  | single (node : Node)
  /-- Any number of nodes in order. -/
  | vector (nodes : List Node)
deriving Inhabited

namespace Value

/-- The nodes that a result contributes to a vector. -/
def nodes : Value → List Node
  | .absent => []
  | .single .missing => []
  | .single node => [node]
  | .vector nodes => nodes

/-- Collected nodes with the contribution of one result more. -/
def addTo (v : Value) (collected : List Node) : List Node := collected ++ v.nodes

/-- The result as one node: a vector becomes an array. -/
def toNode : Value → Node
  | .absent => .null
  | .single node => node
  | .vector nodes => .array nodes

/-- The node that a result stands for, unless it is a vector. -/
def scalar? : Value → Option Node
  | .absent => some .null
  | .single node => some node
  | .vector _ => none

/-- Whether the result is a vector. -/
def isVector : Value → Bool
  | .vector _ => true
  | _ => false

/-- The text of a result. -/
def text (v : Value) : String := v.toNode.compact

end Value

end PathQuery
