import PathQuery.Document.Members
/-!
# Documents

A document is a tree of JSON values, with integers kept apart from floating-point numbers. One
value more, `missing`, is not JSON: it is the answer of a lookup that found nothing, and differs
from a null that stands in the document. Lookups never fail; what is not there is missing.
-/
namespace PathQuery

/-- A value of a document, or the answer of a lookup that found nothing. -/
inductive Node where
  /-- The null value. -/
  | null
  /-- A truth value. -/
  | boolean (value : Bool)
  /-- A whole number of 64 bits. -/
  | integer (value : Int64)
  /-- A floating-point number. -/
  | float (value : Float)
  /-- A text. -/
  | string (text : String)
  /-- Elements in order. -/
  | array (elements : List Node)
  /-- Members in the order of their keys. -/
  | object (members : List (String × Node))
  /-- Nothing was found. -/
  | missing
deriving Inhabited

/-- The kind of a node, as messages name it. -/
inductive Kind where
  /-- Null. -/
  | null
  /-- A truth value. -/
  | boolean
  /-- An integer or a floating-point number. -/
  | number
  /-- A text. -/
  | string
  /-- An array. -/
  | array
  /-- An object. -/
  | object
  /-- Nothing found. -/
  | missing
deriving DecidableEq, Repr

/-- The name of a kind in messages. -/
def Kind.name : Kind → String
  | .null => "null"
  | .boolean => "boolean"
  | .number => "number"
  | .string => "string"
  | .array => "array"
  | .object => "object"
  | .missing => "missing"

namespace Node

/-- The object with the given entries; of entries with one key the last one counts. -/
def ofEntries (entries : List (String × Node)) : Node := .object (Members.ofEntries entries)

/-- The kind of a node. -/
def kind : Node → Kind
  | .null => .null
  | .boolean _ => .boolean
  | .integer _ | .float _ => .number
  | .string _ => .string
  | .array _ => .array
  | .object _ => .object
  | .missing => .missing

/-- Whether the node is null. -/
def isNull (n : Node) : Bool := n.kind == .null

/-- Whether nothing was found. -/
def isMissing (n : Node) : Bool := n.kind == .missing

/-- Whether the node is an integer or a floating-point number. -/
def isNumber (n : Node) : Bool := n.kind == .number

/-- Whether the node is a text. -/
def isTextual (n : Node) : Bool := n.kind == .string

/-- Whether the node is an array. -/
def isArray (n : Node) : Bool := n.kind == .array

/-- Whether the node is an object. -/
def isObject (n : Node) : Bool := n.kind == .object

/-- Whether the node is an array or an object. -/
def isContainer (n : Node) : Bool := n.isArray || n.isObject

/-- Array elements, or object values in the order of their keys; a scalar has none. -/
def children : Node → List Node
  | .array elements => elements
  | .object members => Members.values members
  | _ => []

/-- The number of elements or members. -/
def size (n : Node) : Nat := n.children.length

/-- The value under a key of an object, if it holds one. -/
def member? (key : String) : Node → Option Node
  | .object members => Members.find? key members
  | _ => none

/-- Whether the node is an object that holds the key. -/
def hasKey (key : String) (n : Node) : Bool := (n.member? key).isSome

/-- The value under a key, or missing. -/
def member (key : String) (n : Node) : Node := (n.member? key).getD .missing

/-- The element at an index from zero, or missing. -/
def element (index : Int) : Node → Node
  | .array elements => if index < 0 then .missing else elements.getD index.toNat .missing
  | _ => .missing

/- Equality compares floating-point numbers as numbers: not-a-number differs from itself, and the
two zeros are equal. An integer never equals a floating-point number. -/
mutual

/-- Whether two nodes are equal. -/
def same : Node → Node → Bool
  | .null, .null => true
  | .boolean a, .boolean b => a == b
  | .integer a, .integer b => a == b
  | .float a, .float b => a == b
  | .string a, .string b => a == b
  | .array as, .array bs => sameElements as bs
  | .object as, .object bs => sameMembers as bs
  | .missing, .missing => true
  | _, _ => false

/-- Whether two lists of nodes are equal, one by one. -/
def sameElements : List Node → List Node → Bool
  | [], [] => true
  | a :: as, b :: bs => same a b && sameElements as bs
  | _, _ => false

/-- Whether two lists of members are equal, one by one. -/
def sameMembers : List (String × Node) → List (String × Node) → Bool
  | [], [] => true
  | (k, a) :: as, (l, b) :: bs => k == l && same a b && sameMembers as bs
  | _, _ => false

end

instance : BEq Node := ⟨same⟩

end Node

end PathQuery
