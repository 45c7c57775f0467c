import PathQuery.Expr
import PathQuery.Value.Broadcast
import PathQuery.Eval.Coercion
/-!
# Evaluation

The result of an expression on a document. Steps apply to one node and are broadcast over a vector
of them; their errors point at the step. A computed key is evaluated once, against the document and
not against the row, and not at all when there is no row. A combinator whose left operand is a
single node that decides does not evaluate the right one.
-/
namespace PathQuery

/-- The index that a number as a computed key stands for. -/
def Node.keyIndex? (key : Node) : Option Int := key.int?.map Int32.toInt

namespace Select

/-- The value under a key: a name in an object, which is missing when the object does not hold it,
or an index in an array, which has to be in range. A negative index counts from the end. -/
def byKey (position : Nat) (key object : Node) : Except EvalError Node :=
  match key.string?, key.keyIndex? with
  | some name, _ =>
    if object.isObject then .ok (object.member name)
    else .error (.runtime position (.nameOnOther object.kind))
  | none, some index =>
    if object.isArray then
      let size : Int := object.size
      if size ≤ index then .error (.runtime position (.beyondLast index (size - 1)))
      else if index < -size then .error (.runtime position (.beforeFirst index (-size)))
      else .ok (object.element (if index < 0 then size + index else index))
    else .error (.runtime position (.keyOnOther object.kind))
  | none, none => .error (.typeMismatch position .number key "the index of the array")

/-- The element at an index, which is missing when the index is out of range. A negative index
counts from the end. -/
def byIndex (position : Nat) (index : Int) (object : Node) : Except EvalError Node :=
  if object.isArray then
    .ok (object.element (if index < 0 then object.size + index else index))
  else .error (.runtime position (.indexOnOther object.kind))

/-- The values of an object, or the children of all elements of an array. -/
def children (position : Nat) (object : Node) : Except EvalError (List Node) :=
  match object with
  | .array elements => .ok (elements.flatMap Node.children)
  | .object members => .ok (Members.values members)
  | other => .error (.runtime position (.wildcardOnOther other.kind))

/-- What a container contributes to a descent: itself, or its value under the name. -/
def contribution (name : Option String) (container : Node) : List Node :=
  match name with
  | none => [container]
  | some name => (container.member? name).toList

mutual

/-- The contributions of all containers in a node, a container before everything inside it. -/
def descend (name : Option String) : Node → List Node
  | .array elements => contribution name (.array elements) ++ descendElements name elements
  | .object members => contribution name (.object members) ++ descendMembers name members
  | _ => []

/-- The contributions of all containers in some elements. -/
def descendElements (name : Option String) : List Node → List Node
  | [] => []
  | element :: rest => descend name element ++ descendElements name rest

/-- The contributions of all containers in the values of some members. -/
def descendMembers (name : Option String) : List (String × Node) → List Node
  | [] => []
  | (_, value) :: rest => descend name value ++ descendMembers name rest

end

end Select

namespace Expr

/-- The result of an expression on a document. -/
def eval (document : Node) : Expr → Except EvalError Value
  | .root _ => .ok (.single document)
  | .literal _ value => .ok (.single value)
  | .field position object key =>
    match object.eval document with
    | .error e => .error e
    | .ok (.vector []) => .ok (.vector [])
    | .ok value =>
      match key.eval document with
      | .error e => .error e
      | .ok key =>
        Broadcast.onEach position value fun node =>
          (Select.byKey position key.toNode node).map .single
  | .index position object n =>
    match object.eval document with
    | .error e => .error e
    | .ok value =>
      Broadcast.onEach position value fun node =>
        (Select.byIndex position n.toInt node).map .single
  | .wildcard position object =>
    match object.eval document with
    | .error e => .error e
    | .ok value =>
      Broadcast.onEach position value fun node => (Select.children position node).map .vector
  | .descent position object name =>
    match object.eval document with
    | .error e => .error e
    | .ok value =>
      Broadcast.onEach position value fun node => .ok (.vector (Select.descend name node))
  | .boolean position op left right =>
    match left.eval document with
    | .error e => .error e
    | .ok first =>
      if first.scalar?.map Node.isTrue = some op.decisive then
        .ok (.single (.boolean op.decisive))
      else
        match right.eval document with
        | .error e => .error e
        | .ok second =>
          Broadcast.onPairs position first second fun a b =>
            .ok (.single (.boolean (op.apply a.isTrue b.isTrue)))

/-- The truth of the result. -/
def evalAsBoolean (e : Expr) (document : Node) : Except EvalError Bool :=
  (e.eval document).map fun value => value.toNode.isTrue

/-- The result converted, strictly; a vector counts as an array. -/
def evalAs {α : Type} (e : Expr) (c : Coercion α) (label : String) (document : Node) :
    Except EvalError α :=
  match e.eval document with
  | .ok value => c.strict e.position label value.toNode
  | .error e => .error e

end Expr

end PathQuery
