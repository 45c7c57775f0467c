import PathQuery.Query
import PathQuery.Document.Library
/-!
# Commands

The two commands on queries: evaluating one on a document that is given as text, and describing
one. Their errors say which step failed.
-/
namespace PathQuery

/-- A plain type that a result can be converted to. -/
inductive OutputKind where
  /-- A truth value. -/
  | boolean
  /-- An integer of 32 bits. -/
  | int
  /-- An integer of 64 bits. -/
  | long
  /-- A floating-point number. -/
  | double
  /-- A text. -/
  | string
deriving DecidableEq, Repr

namespace OutputKind

/-- The kind with a name, if there is one. -/
def ofName? (name : String) : Option OutputKind :=
  if name = "boolean" then some .boolean
  else if name = "int" then some .int
  else if name = "long" then some .long
  else if name = "double" then some .double
  else if name = "string" then some .string
  else none

/-- The result of a query on a document, converted and taken as a document again. -/
def convert (kind : OutputKind) (e : Expr) (label : String) (document : Node) :
    Except EvalError Node :=
  match kind with
  | .boolean => (e.evalAsBoolean document).map .boolean
  | .int => (e.evalAs .int label document).map fun n => .integer n.toInt64
  | .long => (e.evalAs .long label document).map .integer
  | .double => (e.evalAs .double label document).map .float
  | .string => (e.evalAs .string label document).map .string

end OutputKind

/-- Why a command failed. -/
inductive CommandError where
  /-- The query is not well-formed. -/
  | parse (error : ParseError)
  /-- The query cannot be evaluated. -/
  | eval (error : EvalError)
  /-- The document is not well-formed. -/
  | document
  /-- The document is not text at all. -/
  | encoding
  /-- There is no document. -/
  | noInput

/-- The text of an error. -/
def CommandError.message : CommandError → String
  | .parse error => "Parse error: " ++ error.message
  | .eval error => "Evaluation error: " ++ error.message
  | .document => "Invalid JSON: the document is not well-formed"
  | .encoding => "IO error: stream did not contain valid UTF-8"
  | .noInput => "No input provided. Use --input or pipe JSON to stdin."

/-- What to evaluate, and how. -/
structure EvalOptions where
  /-- The text of the query. -/
  query : String
  /-- The text of the document, if there is one. -/
  input : Option String
  /-- Whether the result is written indented. -/
  pretty : Bool
  /-- Whether only the query is checked. -/
  syntaxOnly : Bool
  /-- The type to convert the result to, if any. -/
  outputKind : Option OutputKind
deriving DecidableEq, Repr

/-- What evaluation came to. -/
inductive EvalResult where
  /-- The query is well-formed, and nothing more was asked for. -/
  | valid
  /-- The result. -/
  | success (node : Node)

namespace EvalOptions

/-- What messages call the result of a query. -/
def resultLabel : String := "the query result"

/-- The layout of the result. -/
def layout (options : EvalOptions) : Layout := if options.pretty then .indented else .compact

/-- Evaluates. The query is compiled first; then a document is needed, has to be well-formed, and
is what the query is evaluated on. -/
def run (options : EvalOptions) : Except CommandError EvalResult :=
  match Query.compile options.query with
  | .error e => .error (.parse e)
  | .ok query =>
    if options.syntaxOnly then .ok .valid
    else
      match options.input with
      | none => .error .noInput
      | some text =>
        match Node.ofText? text with
        | none => .error .document
        | some document =>
          let result := match options.outputKind with
            | none => (query.eval document).map Value.toNode
            | some kind => kind.convert query.expr resultLabel document
          match result with
          | .ok node => .ok (.success node)
          | .error e => .error (.eval e)

end EvalOptions

/-- The description of a query. -/
structure Explanation where
  /-- The normal form of the query. -/
  normal : String
  /-- Whether the query is vector-typed. -/
  vector : Bool
deriving DecidableEq, Repr

namespace Explanation

/-- Describes a query. -/
def ofText (text : String) : Except CommandError Explanation :=
  match Query.compile text with
  | .ok query => .ok ⟨query.normal, query.isVector⟩
  | .error e => .error (.parse e)

/-- The text of a description. -/
def text (e : Explanation) : String :=
  "expression: " ++ e.normal ++ "\nresult: " ++ (if e.vector then "vector" else "single")

end Explanation

end PathQuery
