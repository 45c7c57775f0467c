import PathQuery.Expr
import PathQuery.Token
import PathQuery.Document.Render
/-!
# The normal form of an expression

Every expression has one text, its normal form, in which the document is always `$`, every step is
explicit and operators are signs. Parentheses stand where reading the text would otherwise give
another expression: around an operand whose operator does not bind tighter, around a combination
or a number to which a step applies, and around a computed key.
-/
namespace PathQuery.Expr

/-- A text, in parentheses if it has to be. -/
def grouped (needed : Bool) (text : List Char) : List Char :=
  if needed then '(' :: (text ++ [')']) else text

/-- Whether an object has to stand in parentheses before a step: operators bind looser than
steps, and a number before a point would go on as a fraction. -/
def groupedAsObject : Expr → Bool
  | .boolean .. | .literal _ (.integer _) | .literal _ (.float _) => true
  | _ => false

/-- Whether a left operand has to stand in parentheses: `||` binds looser than `&&`. -/
def groupedOnLeft (op : BoolOp) : Expr → Bool
  | .boolean _ inner _ _ => op == .and && inner == .or
  | _ => false

/-- Whether a right operand has to stand in parentheses: operators group to the left. -/
def groupedOnRight (op : BoolOp) : Expr → Bool
  | .boolean _ inner _ _ => op == .and || inner == .or
  | _ => false

/-- The short form of a key: a point before a plain name, brackets around an integer. -/
def shortKey? : Expr → Option (List Char)
  | .literal _ (.string name) =>
    if Token.isPlainName name then some ('.' :: name.toList) else none
  | .literal _ (.integer n) => some ('[' :: (Decimal.integerText n.toInt ++ [']']))
  | _ => none

/-- The name behind a descent: quoted, unless it is a plain name. -/
def descentName : Option String → List Char
  | none => []
  | some name =>
    if Token.isPlainName name then name.toList else Quoted.write name.toList

/-- The characters of the normal form. -/
def write : Expr → List Char
  | .root _ => ['$']
  | .literal _ value => value.write .compact 0
  | .field _ object key =>
    grouped object.groupedAsObject object.write
      ++ (shortKey? key).getD ('[' :: '(' :: (key.write ++ [')', ']']))
  | .index _ object n =>
    grouped object.groupedAsObject object.write ++ '.' :: Decimal.integerText n.toInt
  | .wildcard _ object => grouped object.groupedAsObject object.write ++ ['.', '*']
  | .descent _ object name =>
    grouped object.groupedAsObject object.write ++ '.' :: '.' :: descentName name
  | .boolean _ op left right =>
    grouped (left.groupedOnLeft op) left.write ++ ' ' :: (op.sign.toList ++ [' '])
      ++ grouped (right.groupedOnRight op) right.write

/-- The normal form of an expression. -/
def normal (e : Expr) : String := String.ofList e.write

end PathQuery.Expr
