import PathQuery.Document.Node
import PathQuery.Document.Quoted
import PathQuery.Decimal.Shortest
/-!
# Documents as text

A document is written as JSON text in one of two layouts: compact, without any blank, or indented,
with one element or member on a line. Missing nodes and floating-point numbers that are not finite
have no JSON form and are written as null. A whole number below ten to the sixteenth that is
floating-point keeps one decimal; all other floating-point numbers have their shortest digits,
without an exponent.
-/
namespace PathQuery

/-- How the parts of a container are set apart. -/
inductive Layout where
  /-- Nothing stands between the parts. -/
  | compact
  /-- Each part stands on a line of its own, indented by two spaces for each level. -/
  | indented
deriving DecidableEq, Repr

namespace Layout

/-- What stands before a part at a nesting level. -/
def newline : Layout → Nat → List Char
  | .compact, _ => []
  | .indented, level => '\n' :: List.replicate (2 * level) ' '

/-- What stands between a key and its value. -/
def colon : Layout → List Char
  | .compact => [':']
  | .indented => [':', ' ']

end Layout

/-- A floating-point number as a document shows it. -/
def floatText (x : Float) : List Char :=
  match Binary.ofFloat x with
  | .finite negative mantissa exponent =>
    let whole := Binary.wholePart mantissa exponent
    if Binary.isWhole mantissa exponent && whole < 10000000000000000 then
      (if negative then ['-'] else []) ++ Decimal.naturalText whole ++ ['.', '0']
    else Decimal.shortestText negative mantissa exponent
  | _ => ['n', 'u', 'l', 'l']

namespace Node

mutual

/-- The text of a node that stands at a nesting level. -/
def write (layout : Layout) (level : Nat) : Node → List Char
  | .null | .missing => ['n', 'u', 'l', 'l']
  | .boolean true => ['t', 'r', 'u', 'e']
  | .boolean false => ['f', 'a', 'l', 's', 'e']
  | .integer n => Decimal.integerText n.toInt
  | .float x => floatText x
  | .string text => Quoted.write text.toList
  | .array [] => ['[', ']']
  | .array (first :: rest) =>
    '[' :: (layout.newline (level + 1) ++ write layout (level + 1) first
      ++ writeElements layout (level + 1) rest ++ layout.newline level ++ [']'])
  | .object [] => ['\x7b', '\x7d']
  | .object ((key, first) :: rest) =>
    '\x7b' :: (layout.newline (level + 1) ++ Quoted.write key.toList ++ layout.colon
      ++ write layout (level + 1) first ++ writeMembers layout (level + 1) rest
      ++ layout.newline level ++ ['\x7d'])

/-- The texts of elements, with a comma before each. -/
def writeElements (layout : Layout) (level : Nat) : List Node → List Char
  | [] => []
  | element :: rest =>
    ',' :: (layout.newline level ++ write layout level element ++ writeElements layout level rest)

/-- The texts of members, with a comma before each. -/
def writeMembers (layout : Layout) (level : Nat) : List (String × Node) → List Char
  | [] => []
  | (key, value) :: rest =>
    ',' :: (layout.newline level ++ Quoted.write key.toList ++ layout.colon
      ++ write layout level value ++ writeMembers layout level rest)

end

/-- A node as text in a layout. -/
def render (layout : Layout) (n : Node) : String := String.ofList (n.write layout 0)

/-- A node as compact text. -/
def compact (n : Node) : String := n.render .compact

/-- A node as indented text. -/
def pretty (n : Node) : String := n.render .indented

mutual

/-- The node as JSON can say it: missing nodes and numbers that are not finite become null. -/
def expressible : Node → Node
  | .missing => .null
  | .float x => if (Binary.ofFloat x).isFinite then .float x else .null
  | .array elements => .array (expressibleElements elements)
  | .object members => .object (expressibleMembers members)
  | .null => .null
  | .boolean b => .boolean b
  | .integer n => .integer n
  | .string text => .string text

/-- The elements as JSON can say them. -/
def expressibleElements : List Node → List Node
  | [] => []
  | element :: rest => expressible element :: expressibleElements rest

/-- The members as JSON can say them. -/
def expressibleMembers : List (String × Node) → List (String × Node)
  | [] => []
  | (key, value) :: rest => (key, expressible value) :: expressibleMembers rest

end

end Node

end PathQuery
