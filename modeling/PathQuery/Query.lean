import PathQuery.Expr.Parser.State
import PathQuery.Expr.Normal
import PathQuery.Eval
/-!
# Queries

A query is an expression together with the text it came from. It is compiled once and evaluated
on any number of documents.
-/
namespace PathQuery

/-- An expression and its text. -/
structure Query where
  /-- The text that was compiled. -/
  source : String
  /-- The expression of the text. -/
  expr : Expr

namespace Query

/-- The query of a text. -/
def compile (source : String) : Except ParseError Query :=
  (Expr.ofText source).map fun expr => ⟨source, expr⟩

/-- The query of an expression; its text is the normal form. -/
def ofExpr (expr : Expr) : Query := ⟨expr.normal, expr⟩

/-- The normal form of a query. -/
def normal (q : Query) : String := q.expr.normal

/-- Whether the query is vector-typed. -/
def isVector (q : Query) : Bool := q.expr.isVector

/-- The result on a document. -/
def eval (q : Query) (document : Node) : Except EvalError Value := q.expr.eval document

end Query

end PathQuery
