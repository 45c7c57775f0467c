import PathQuery.Document.Node
/-!
# Exchange of documents

Outside of queries a document is a tree of JSON values, which has no missing nodes, and whose
numbers are in the hands of a library. This library is known by its conversions: it has a number for
every integer of 64 bits and for the floating-point numbers that JSON can say, and tells of a number
whether it is such an integer, and which floating-point number it is otherwise.
-/
namespace PathQuery

/-- A JSON value with numbers of some type. -/
inductive JsonValue (N : Type) where
  /-- The null value. -/
  | null
  /-- A truth value. -/
  | boolean (value : Bool)
  /-- A number. -/
  | number (value : N)
  /-- A text. -/
  | string (text : String)
  /-- Elements in order. -/
  | array (elements : List (JsonValue N))
  /-- Members in the order of their keys. -/
  | object (members : List (String × JsonValue N))

/-- The conversions of a library for the numbers of JSON values. -/
structure JsonNumbers (N : Type) where
  /-- The number of an integer. -/
  ofInteger : Int64 → N
  /-- The number of a floating-point number, if JSON can say it. -/
  ofFloat? : Float → Option N
  /-- The integer that a number is, if it is one of 64 bits. -/
  integer? : N → Option Int64
  /-- The floating-point number that a number is, if it is one. -/
  float? : N → Option Float

variable {N : Type} (numbers : JsonNumbers N)

namespace Node

mutual

/-- The JSON value of a node: what JSON cannot say is null. -/
def toJson : Node → JsonValue N
  | .null | .missing => .null
  | .boolean b => .boolean b
  | .integer n => .number (numbers.ofInteger n)
  | .float x =>
    match numbers.ofFloat? x with
    | some value => .number value
    | none => .null
  | .string text => .string text
  | .array elements => .array (toJsonElements elements)
  | .object members => .object (Members.ofEntries (toJsonMembers members))

/-- The JSON values of elements. -/
def toJsonElements : List Node → List (JsonValue N)
  | [] => []
  | element :: rest => toJson element :: toJsonElements rest

/-- The JSON values of members. -/
def toJsonMembers : List (String × Node) → List (String × JsonValue N)
  | [] => []
  | (key, value) :: rest => (key, toJson value) :: toJsonMembers rest

end

end Node

namespace JsonValue

mutual

/-- The node of a JSON value. A number that is no integer of 64 bits is a floating-point number, and
not a number where the library has none for it. -/
def toNode : JsonValue N → Node
  | .null => .null
  | .boolean b => .boolean b
  | .number value =>
    match numbers.integer? value with
    | some n => .integer n
    | none => .float ((numbers.float? value).getD (Float.ofBits 0x7ff8000000000000))
  | .string text => .string text
  | .array elements => .array (toNodeElements elements)
  | .object members => Node.ofEntries (toNodeMembers members)

/-- The nodes of elements. -/
def toNodeElements : List (JsonValue N) → List Node
  | [] => []
  | element :: rest => toNode element :: toNodeElements rest

/-- The nodes of members. -/
def toNodeMembers : List (String × JsonValue N) → List (String × Node)
  | [] => []
  | (key, value) :: rest => (key, toNode value) :: toNodeMembers rest

end

end JsonValue

/-- A node after it was a JSON value. -/
def Node.exchange (n : Node) : Node := (n.toJson numbers).toNode numbers

end PathQuery
