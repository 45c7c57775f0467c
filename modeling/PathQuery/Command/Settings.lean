import PathQuery.Command
/-!
# Options of the command line

The options that commands take, and what they set. An option may be set once. Requests for help
and for the version set nothing and end the reading of arguments, as does a value that an option
does not take.
-/
namespace PathQuery.CommandLine

/-- An option. -/
inductive Flag where
  /-- How much is logged. -/
  | logLevel
  /-- The document. -/
  | input
  /-- Whether the result is written indented. -/
  | pretty
  /-- Whether only the query is checked. -/
  | syntaxOnly
  /-- The type to convert the result to. -/
  | outputKind
  /-- A request for help. -/
  | help
  /-- A request for the version. -/
  | version
deriving DecidableEq, Repr

namespace Flag

/-- The name of an option, behind two dashes. -/
def long : Flag → String
  | .logLevel => "log-level"
  | .input => "input"
  | .pretty => "pretty"
  | .syntaxOnly => "syntax-only"
  | .outputKind => "as"
  | .help => "help"
  | .version => "version"

/-- The letter of an option, behind one dash, if it has one. -/
def short? : Flag → Option Char
  | .input => some 'i'
  | .pretty => some 'p'
  | .help => some 'h'
  | .version => some 'V'
  | .logLevel | .syntaxOnly | .outputKind => none

/-- Whether an option takes a value. -/
def takesValue : Flag → Bool
  | .logLevel | .input | .outputKind => true
  | .pretty | .syntaxOnly | .help | .version => false

end Flag

/-- Why reading arguments ended before the last one. -/
inductive Stop where
  /-- An argument was not understood, or one is lacking. -/
  | usage
  /-- Help was asked for. -/
  | help
  /-- The version was asked for. -/
  | version
deriving DecidableEq, Repr

/-- What the arguments of one command have set so far. -/
structure Settings where
  /-- The level of logging. -/
  logLevel : Option String := none
  /-- The document. -/
  input : Option String := none
  /-- Whether the result is written indented. -/
  pretty : Bool := false
  /-- Whether only the query is checked. -/
  syntaxOnly : Bool := false
  /-- The type to convert the result to. -/
  outputKind : Option OutputKind := none
  /-- The query. -/
  query : Option String := none
deriving DecidableEq, Repr

namespace Settings

/-- Sets an option, which may not have been set before. An option without a value is given an
empty one. -/
def set (s : Settings) (flag : Flag) (value : String) : Except Stop Settings :=
  match flag with
  | .logLevel => if s.logLevel.isSome then .error .usage else .ok { s with logLevel := some value }
  | .input => if s.input.isSome then .error .usage else .ok { s with input := some value }
  | .pretty => if s.pretty then .error .usage else .ok { s with pretty := true }
  | .syntaxOnly => if s.syntaxOnly then .error .usage else .ok { s with syntaxOnly := true }
  | .outputKind =>
    match s.outputKind, OutputKind.ofName? value with
    | none, some kind => .ok { s with outputKind := some kind }
    | _, _ => .error .usage
  | .help => .error .help
  | .version => .error .version

/-- Sets the query, of which there is one. -/
def setQuery (s : Settings) (query : String) : Except Stop Settings :=
  if s.query.isSome then .error .usage else .ok { s with query := some query }

end Settings

end PathQuery.CommandLine
