import PathQuery.Command.Arguments
/-!
# Running the program

What the program writes and the code it exits with, as a function of its arguments and of the
bytes that can be read. These are needed only when a query is to be evaluated and no document was
given with the arguments.
-/
namespace PathQuery.CommandLine

/-- What a run of the program shows. -/
structure Outcome where
  /-- The exit code. -/
  code : UInt32
  /-- What is written to the output. -/
  output : String
  /-- What is written to the error output. -/
  errors : String
deriving DecidableEq, Repr

/-- How the program is used. -/
def usageText : String :=
  "Usage: jpe [--log-level <LEVEL>] eval <QUERY> [-i|--input <JSON>] [-p|--pretty]\n"
    ++ "           [--syntax-only] [--as boolean|int|long|double|string]\n"
    ++ "       jpe [--log-level <LEVEL>] explain <QUERY>\n"
    ++ "       jpe --version\n"

/-- The name and the version of the program. -/
def versionText : String := "jpe 0.1.0\n"

/-- What a run shows when its arguments ended early. -/
def Stop.outcome : Stop → Outcome
  | .usage => ⟨2, "", usageText⟩
  | .help => ⟨0, usageText, ""⟩
  | .version => ⟨0, versionText, ""⟩

namespace Outcome

/-- Success with a text. -/
def success (text : String) : Outcome := ⟨0, text ++ "\n", ""⟩

/-- Failure with an error. -/
def failure (e : CommandError) : Outcome := ⟨1, "", "Error: " ++ e.message ++ "\n"⟩

end Outcome

namespace Invocation

/-- Whether the document has to be read: there is none among the arguments, and one is needed. -/
def readsInput : Invocation → Bool
  | .eval options => options.input.isNone && !options.syntaxOnly
  | .explain _ => false

/-- Evaluates with a document and shows the result. -/
def runEval (options : EvalOptions) : Outcome :=
  match options.run with
  | .ok .valid => .success "Syntax is valid"
  | .ok (.success node) => .success (node.render options.layout)
  | .error e => .failure e

/-- Runs an invocation, with the bytes to read a document from. -/
def run (input : ByteArray) : Invocation → Outcome
  | .eval options =>
    if readsInput (.eval options) then
      match String.fromUTF8? input with
      | some text => runEval { options with input := some text }
      | none => .failure .encoding
    else runEval options
  | .explain query =>
    match Explanation.ofText query with
    | .ok explanation => .success explanation.text
    | .error e => .failure e

end Invocation

/-- Runs the program. -/
def run (arguments : List String) (input : ByteArray) : Outcome :=
  match Invocation.ofArguments arguments with
  | .ok invocation => invocation.run input
  | .error stop => stop.outcome

/-- Whether a run of the program needs bytes to read. -/
def readsInput (arguments : List String) : Bool :=
  match Invocation.ofArguments arguments with
  | .ok invocation => invocation.readsInput
  | .error _ => false

end PathQuery.CommandLine
